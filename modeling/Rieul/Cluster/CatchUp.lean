import Rieul.Lib.System
import Rieul.Cluster.Node

/-!
# Catching up after a rejoin

A removed node that starts a new life in its old cluster keeps its key pair and begins with an
empty journal and no prepared transfers.
-/

namespace Rieul.Cluster
open Bytes Fallible System

section
variable [Platform]

theorem rejoined_tables (db db' : Database) (old : Node) (operation : Id) (endpoint : String)
    (now : Int64) (random : Randomness) (hold : loadNode db = .ok (some old))
    (hop : old.operation ≠ operation)
    (h : initializeNode db operation (some old.g) endpoint now random = .ok db') :
    (openDatabase db').tables = createIdentity Tables.empty old.g old.key := by
  obtain ⟨hend, -, -, rfl⟩ := initializeNode_again db db' old operation _ endpoint now random hold
    hop h
  have hroot := loadNode_root db old hold
  rw [openDatabase_of _ _ (loadNode_of _ _ _ rfl rfl hend hroot)]
  rfl

def CatchesUp (g : Genesis) (localKey : Id) (start : Tables) : Tables → Prop :=
  Reachable (fun t => t = start) fun t t' => ∃ entries, install t g localKey entries = .ok t'

structure Unprepared (g : Genesis) (localKey : Id) (t : Tables) : Prop where
  identity : checkIdentity t g localKey = .ok ()
  prepared : t.prepared = []
  journal : ∃ es s, t.Holds g es s

theorem unprepared_start (g : Genesis) (localKey : Id) :
    Unprepared g localKey (createIdentity Tables.empty g localKey) :=
  ⟨by simp [checkIdentity, createIdentity, Tables.empty], rfl, [], State.genesis g, rfl,
    Nat.zero_le _, rfl⟩

variable [LawfulPlatform]

theorem Unprepared.install {g : Genesis} {localKey : Id} {t t' : Tables} {entries : List Entry}
    (h : Unprepared g localKey t) (hi : install t g localKey entries = .ok t') :
    Unprepared g localKey t' := by
  obtain ⟨es, s, hold⟩ := h.journal
  obtain ⟨-, s', hold'⟩ := hold.of_install hi
  obtain ⟨-, -, -, -, -, -, rfl⟩ := (install_eq_ok t t' g localKey es entries s hold).mp hi
  exact ⟨checkIdentity_installed t g localKey localKey entries _ h.identity, h.prepared, entries,
    s', hold'⟩

theorem CatchesUp.unprepared {g : Genesis} {localKey : Id} {t : Tables}
    (h : CatchesUp g localKey (createIdentity Tables.empty g localKey) t) :
    Unprepared g localKey t :=
  h.invariant (Unprepared g localKey)
    (fun _ h0 => Eq.subst (Eq.symm h0) (unprepared_start g localKey))
    (fun _ _ hu ⟨_, hi⟩ => hu.install hi)

/-- After a rejoin a legal history can be installed exactly when the part of it that the node does
not hold yet has no Transfer to the node's key. -/
theorem catch_up_iff (db db' : Database) (old : Node) (operation : Id) (endpoint : String)
    (now : Int64) (random : Randomness) (hold : loadNode db = .ok (some old))
    (hop : old.operation ≠ operation)
    (hinit : initializeNode db operation (some old.g) endpoint now random = .ok db')
    (t : Tables) (ht : CatchesUp old.g old.key (openDatabase db').tables t)
    (history : List Entry) (s : State) (hreplay : replay old.g history = .ok s)
    (hlen : history.length ≤ maxHistory) (hsize : size history ≤ maxSize)
    (es : List Entry) (hes : load t old.g.cluster = .ok es) (hpre : es <+: history) :
    (∃ t', install t old.g old.key history = .ok t' ∧
        ∃ es', load t' old.g.cluster = .ok es' ∧ replay old.g es' = .ok s) ↔
      ∀ e ∈ history.drop es.length, e.activates old.key = false := by
  rw [rejoined_tables db db' old operation endpoint now random hold hop hinit] at ht
  have hu := ht.unprepared
  obtain ⟨es', s', hholds⟩ := hu.journal
  cases hholds.load.symm.trans hes
  have hspec := fun t' => install_eq_ok t t' old.g old.key es history s' hholds
  have hrec : (∀ e ∈ history.drop es.length, Receipt t.prepared old.key e) ↔
      ∀ e ∈ history.drop es.length, e.activates old.key = false := by
    simp only [hu.prepared, receipt_nil]
  constructor
  · rintro ⟨t', hi, -⟩
    obtain ⟨-, -, -, -, -, hall, -⟩ := (hspec t').mp hi
    exact hrec.mp hall
  · intro hall
    refine ⟨t.installed old.key history (history.drop es.length), (hspec _).mpr ⟨hu.identity, hlen,
      hpre, hsize, ⟨s, hreplay⟩, hrec.mpr hall, rfl⟩, history, ?_, hreplay⟩
    exact load_of_replayed _ old.g history s rfl hlen hreplay

end

section
attribute [local instance] residuePlatform residuePlatform_lawful

def handedBack : List Entry := sampleJournal (State.genesis sampleGenesis)
  [(1, sampleAdmit 3 3), (1, sampleTransfer 3 3), (3, sampleTransfer 1 1),
    (1, fun _ => .Remove (Fixed.fill 32 3)), (1, sampleAdmit 4 3)]

def readmitted : List Entry := sampleJournal (State.genesis sampleGenesis)
  [(1, sampleAdmit 3 3), (1, fun _ => .Remove (Fixed.fill 32 3)), (1, sampleAdmit 4 3)]

def removedNode (journal : List Entry) : Database where
  node := some ⟨(3 : UInt8), Fixed.fill 32 9, Fixed.fill 32 1, Fixed.fill 32 1, Fixed.fill 32 3,
    Fixed.fill 32 60, .removed⟩
  scope := some ⟨0, false⟩
  endpoint := some ⟨"endpoint", "root"⟩
  leaving := []
  retiredLocal := []
  tables := ⟨some ⟨sampleGenesis.cluster.data, (Fixed.fill 32 3).data, true⟩,
    journal.map Entry.row, []⟩

def rejoinRandomness : Randomness := ⟨(0 : UInt8), Fixed.fill 32 4, Fixed.fill 32 0⟩

theorem removedNode_loads (journal : List Entry) : loadNode (removedNode journal) = .ok (some
    ⟨sampleGenesis, (3 : UInt8), Fixed.fill 32 3, Fixed.fill 32 60, .removed, "endpoint", 0⟩) :=
  loadNode_of (removedNode journal) _ _ rfl rfl (by decide +kernel) (by decide +kernel)

def handled : List (List Entry × List Entry) :=
  [(readmitted.take 2, readmitted), (handedBack.take 4, handedBack)]

theorem removedNode_run : (∀ x ∈ handled,
    (initializeNode (removedNode x.1) (Fixed.fill 32 61) (some sampleGenesis) "endpoint" 0
      rejoinRandomness).toBool = true ∧
    (replay sampleGenesis x.2).toOption.map (fun s =>
      (s.members.lookup (Fixed.fill 32 4), s.primary)) =
        some (some (Fixed.fill 32 3), Fixed.fill 32 1) ∧
    x.2.length ≤ maxHistory ∧ size x.2 ≤ maxSize) ∧
    install (createIdentity Tables.empty sampleGenesis (Fixed.fill 32 3)) sampleGenesis
      (Fixed.fill 32 3) handedBack = .error .unprepared := by decide +kernel

/-- The removed node rejoins, and the history admits its new life. -/
theorem rejoins {x : List Entry × List Entry} (hx : x ∈ handled) : ∃ db s,
    initializeNode (removedNode x.1) (Fixed.fill 32 61) (some sampleGenesis) "endpoint" 0
      rejoinRandomness = .ok db ∧
    replay sampleGenesis x.2 = .ok s ∧
    s.members.lookup rejoinRandomness.admission = some (Fixed.fill 32 3) ∧
    s.primary = Fixed.fill 32 1 := by
  obtain ⟨hinit, hstate, -⟩ := removedNode_run.1 x hx
  obtain ⟨db, hinit⟩ := exists_of_toBool _ hinit
  cases hs : replay sampleGenesis x.2 with
  | error e =>
    rw [hs] at hstate
    cases hstate
  | ok s =>
    rw [hs] at hstate
    simp only [Except.toOption, Option.map_some, Option.some.injEq, Prod.mk.injEq] at hstate
    exact ⟨db, s, hinit, rfl, hstate.1, hstate.2⟩

theorem catch_up_first : ∃ db t' s, initializeNode (removedNode (readmitted.take 2))
      (Fixed.fill 32 61) (some sampleGenesis) "endpoint" 0 rejoinRandomness = .ok db ∧
    replay sampleGenesis readmitted = .ok s ∧
    s.members.lookup rejoinRandomness.admission = some (Fixed.fill 32 3) ∧
    install (openDatabase db).tables sampleGenesis (Fixed.fill 32 3) readmitted = .ok t' := by
  have hx : (readmitted.take 2, readmitted) ∈ handled := List.mem_cons_self
  obtain ⟨-, -, hlen, hsize⟩ := removedNode_run.1 _ hx
  obtain ⟨db, s, hinit, hs, hmember, -⟩ := rejoins hx
  have hop : Fixed.fill 32 60 ≠ Fixed.fill 32 61 := by decide
  have hloads := removedNode_loads (readmitted.take 2)
  have htables := rejoined_tables _ db _ _ "endpoint" 0 rejoinRandomness hloads hop hinit
  have hempty : load (openDatabase db).tables sampleGenesis.cluster = .ok [] := by
    rw [htables]
    rfl
  obtain ⟨t', ht', -⟩ := (catch_up_iff _ db _ _ "endpoint" 0 rejoinRandomness hloads hop hinit
    (openDatabase db).tables (.start _ rfl) readmitted s hs hlen hsize [] hempty
    List.nil_prefix).mpr (by decide)
  exact ⟨db, t', s, hinit, hs, hmember, ht'⟩

/-- The history hands over to the earlier admission, admits the new one and has another primary,
yet the rejoined node cannot install it. -/
theorem catch_up_blocked : ∃ (old : Node) (db : Database) (s : State),
    loadNode (removedNode (handedBack.take 4)) = .ok (some old) ∧ old.g = sampleGenesis ∧
      old.phase = .removed ∧
      initializeNode (removedNode (handedBack.take 4)) (Fixed.fill 32 61) (some old.g) "endpoint" 0
        rejoinRandomness = .ok db ∧
      replay old.g handedBack = .ok s ∧
      s.members.lookup rejoinRandomness.admission = some old.key ∧
      s.primary ≠ rejoinRandomness.admission ∧
      handedBack.length ≤ maxHistory ∧ size handedBack ≤ maxSize ∧
      install (openDatabase db).tables old.g old.key handedBack = .error .unprepared := by
  have hx : (handedBack.take 4, handedBack) ∈ handled := List.mem_cons_of_mem _ List.mem_cons_self
  obtain ⟨-, -, hlen, hsize⟩ := removedNode_run.1 _ hx
  obtain ⟨db, s, hinit, hs, hmember, hprimary⟩ := rejoins hx
  have hloads := removedNode_loads (handedBack.take 4)
  refine ⟨_, db, s, hloads, rfl, rfl, hinit, hs, hmember, ?_, hlen, hsize, ?_⟩
  · rw [hprimary]
    decide
  · rw [rejoined_tables _ db _ _ "endpoint" 0 rejoinRandomness hloads (by decide) hinit]
    exact removedNode_run.2

end

end Rieul.Cluster
