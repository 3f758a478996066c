import Rieul.Cluster.Fleet

/-!
# A sealed handoff can be activated

When the longest log of a cluster ends with a transfer that the target has not installed, the old
primary is sealed and nobody else may append.
-/

namespace Rieul.Cluster
open Bytes Fallible System

section
variable [Platform]

/-- The node is the unsealed primary of the journal `es`, and appends what the state accepts. -/
structure Takes (db : Database) (n : Node) (es : List Entry) (s : State) : Prop where
  loaded : loadNode db = .ok (some n)
  member : n.phase = .member
  journal : load db.tables n.g.cluster = .ok es
  unsealed : ∃ i, db.tables.identity = some i ∧ i.sealed = false
  primary : s.primary = n.admission
  key : s.members.lookup s.primary = some n.key
  appends : ∀ operation mutation sequence, (∀ a ∈ es, a.operation ≠ operation) →
    sequence.toNat = es.length + 1 →
    (∃ u, s.mutate (signEntry n.g s n.pair s.epoch operation mutation sequence) = .ok u) →
    es.length < maxHistory →
    size (es ++ [signEntry n.g s n.pair s.epoch operation mutation sequence]) ≤ maxSize →
    ∃ t, append db.tables n.g n.key n.pair s.epoch operation mutation =
      .ok (signEntry n.g s n.pair s.epoch operation mutation sequence, t)

variable [LawfulPlatform]

theorem signEntry_accepted {g : Genesis} {es : List Entry} {s u : State} {pair : Platform.Secret}
    {operation : Id} {mutation : Mutation} {sequence : UInt64} (hs : replay g es = .ok s)
    (hk : s.members.lookup s.primary = some (Platform.publicKey pair))
    (hfresh : ∀ a ∈ es, a.operation ≠ operation) (hseq : sequence.toNat = es.length + 1)
    (hroom : es.length < maxHistory)
    (hu : s.mutate (signEntry g s pair s.epoch operation mutation sequence) = .ok u) :
    ∃ v, s.apply (signEntry g s pair s.epoch operation mutation sequence) = .ok v := by
  have hcounts := (replay_counts g es s hs).sequence
  refine ⟨_, (State.apply_eq_ok s _ _).mpr ⟨⟨?_, rfl, ?_, ?_, rfl, ?_, rfl, _, hk, ?_⟩, u,
    (State.mutate_eq_ok s u _).mp hu, rfl⟩⟩
  · exact (replay_cluster g es s hs).symm
  · rw [hcounts]
    exact hseq
  · show sequence ≤ maxCounter
    rw [UInt64.le_iff_toNat_le, hseq]
    have hmax : maxCounter.toNat = 9007199254740991 := rfl
    have hhist : maxHistory = 512 := rfl
    omega
  · intro hmem
    obtain ⟨a, ha, heq⟩ := (replay_operations g es s hs operation).mp hmem
    exact hfresh a ha heq
  · exact LawfulPlatform.verify_sign pair _

theorem Takes.of_life {db : Database} {n : Node} {es : List Entry} {s : State} (h : Life db n es s)
    (hmember : n.phase = .member) (hid : checkIdentity db.tables n.g n.key = .ok ())
    (hunsealed : ∀ i, db.tables.identity = some i → i.sealed = false)
    (hprimary : s.primary = n.admission) : Takes db n es s := by
  have hk : s.members.lookup s.primary = some n.key := by
    rw [hprimary]
    exact h.member hmember
  obtain ⟨i, hi, -⟩ : ∃ i, db.tables.identity = some i ∧ True := by
    simp only [checkIdentity, bind_eq_ok, require_eq_ok] at hid
    exact ⟨hid.choose, hid.choose_spec.1, trivial⟩
  refine ⟨h.loaded, hmember, h.holds.load, ⟨i, hi, hunsealed i hi⟩, hprimary, hk, ?_⟩
  rintro operation mutation sequence hfresh hseq ⟨u, hu⟩ hroom hsize
  have hacc := signEntry_accepted h.holds.replayed hk hfresh hseq hroom hu
  have hcounts := (replay_counts n.g es s h.holds.replayed).sequence
  refine ⟨_, (append_eq_ok _ _ _ _ _ _ _ _ es s _ h.holds).mpr ⟨hid, rfl, Or.inr
    ⟨hfresh, hunsealed, hk, rfl, hroom, ?_, rfl, hacc, hsize, rfl⟩⟩⟩
  rw [hcounts]
  exact hseq

theorem Keeps.activates {db : Database} {n : Node} {before : List Entry} {s : State} {e : Entry}
    {sequence : UInt64} {head : Id} {acceptance : Signature} {id : Id} (h : Life db n before s)
    (hk : Keeps db n s ⟨e.operation, e.epoch, id, acceptance, sequence, head⟩)
    (he : e.mutation = .Transfer id n.key sequence head acceptance) {next : State}
    (hnext : replay n.g (before ++ [e]) = .ok next) (hlen : (before ++ [e]).length ≤ maxHistory)
    (hsize : size (before ++ [e]) ≤ maxSize) (external : Option Authorized) (now : Int64)
    (hauth : authorizeExternal db n external now = .ok ()) :
    ∃ db', importHistory n s db (wireHistory n.g (before ++ [e]) next) none (some e.operation)
        external now = .ok db' ∧ Takes db' n (before ++ [e]) next := by
  have hprimary : next.primary = n.admission :=
    (primary_of_transfer _ before e next hnext he).trans hk.admission.symm
  have hdecoded := decodedHistory_wireHistory n.g (before ++ [e]) next (loadNode_root db n h.loaded)
    hlen hnext
  have hact : isTransferTo n.admission e.operation e = true := by
    simp [isTransferTo, he, hk.admission]
  have hreceipt : Receipt db.tables.prepared n.key e := by
    intro id' sequence' head' acceptance' he'
    cases he.symm.trans he'
    rw [hk.stored]
    rfl
  have hinst : install db.tables n.g n.key (before ++ [e]) =
      .ok (db.tables.installed n.key (before ++ [e]) [e]) := by
    refine (install_eq_ok _ _ _ _ before (before ++ [e]) s h.holds).mpr ⟨hk.identity, hlen,
      List.prefix_append _ _, hsize, ⟨next, hnext⟩, ?_, ?_⟩
    · intro a ha
      rw [List.drop_left, List.mem_singleton] at ha
      rw [ha]
      exact hreceipt
    · rw [List.drop_left]
  have hactivation : checkActivation n s next (before ++ [e]) (some e.operation) = .ok () :=
    checkActivation_some.mpr ⟨hprimary, e, by simp, hact⟩
  have hfinish : checkFinish n none now = .ok () := by
    rw [checkFinish_none, hk.member]
    decide
  have hnmember : next.members.lookup n.admission = some n.key := by
    obtain ⟨t, ht, hu⟩ := (Replay.replay_snoc_eq_ok _ _ _ before e).mp hnext
    cases ht.symm.trans h.holds.replayed
    rcases State.member_apply (replay_wellFormed _ _ _ h.holds.replayed) (h.member hk.member) hu with
      hm | ⟨hrem, -⟩
    · exact hm
    · rw [he] at hrem
      cases hrem
  have hcurrent := (currentNode_eq_ok db n).mpr h.loaded
  have hphase := importedPhase_member hk.member hnmember
  refine ⟨setPhase { db with tables := db.tables.installed n.key (before ++ [e]) [e] } .member,
    ?_, ?_⟩
  · simp only [importHistory, hk.member, hfinish, hdecoded, hnext, lift, liftError, checkMember_none,
      hactivation, hcurrent, hauth, hinst, hphase, bind_eq_ok, exists_unit_iff, ensure_eq_ok,
      Except.ok.injEq, exists_eq_left', pure_eq_ok]
    simp
  · have hload : loadNode (setPhase { db with
        tables := db.tables.installed n.key (before ++ [e]) [e] } .member) =
          .ok (some { n with phase := .member }) := loadNode_setPhase _ _ _ h.loaded
    obtain ⟨-, hlife⟩ := h.install hinst hnext hload rfl (by simp) (fun _ => hnmember) (by simp)
    have hn : { n with phase := Phase.member } = n := by
      rw [← hk.member]
    rw [hn] at hlife
    refine Takes.of_life hlife hk.member ?_ ?_ hprimary
    · exact checkIdentity_installed _ _ _ _ _ _ hk.identity
    · intro i hi
      have hactivates : e.activates n.key = true := by simp [Entry.activates, he]
      simp only [setPhase_tables, Tables.installed, List.any_cons, hactivates, Bool.true_or, if_true,
        setSealed, Option.map_eq_some_iff] at hi
      obtain ⟨j, -, rfl⟩ := hi
      rfl

variable {ι : Type} [DecidableEq ι]

omit [DecidableEq ι] in
theorem Fleet.Longest.eq_chain {w : Fleet ι} {chain : Genesis → List Entry} {g : Genesis}
    {history : List Entry} (hw : w.Inv chain) (h : w.Longest g history) : history = chain g := by
  obtain ⟨⟨i, n, hn, rfl, hload⟩, hmax⟩ := h
  have hfound : ∀ j m es, loadNode (w.node j) = .ok (some m) →
      load (w.node j).tables m.g.cluster = .ok es → es <+: chain m.g := by
    intro j m es hj hes
    rcases hw.nodes j with ⟨hnone, -⟩ | ⟨m', a, v, hm, hf⟩
    · simp [loadNode, hnone] at hj
    · cases hj.symm.trans hm.loaded
      cases hes.symm.trans hm.holds.load
      exact hf.journal
  have hpre := hfound i n history hn hload
  by_cases hnil : chain n.g = []
  · rw [hnil, List.prefix_nil] at hpre
    rw [hpre, hnil]
  · obtain ⟨j, m, s, hm, hg, -⟩ := hw.held n.g hnil
    have hlen := hmax j m (chain n.g) hm.loaded hg (hg ▸ hm.holds.load)
    exact hpre.eq_of_length_le hlen

/-- If the longest log of a cluster ends with a transfer, the node with the target's key has the
target's admission; while its own log lacks the transfer it is an active member that does not leave,
and importing the longest log, by request or by the worker, makes it the primary that can append. -/
theorem handoff_activates (w : Fleet ι) (hw : w.Reached) (g : Genesis) (before : List Entry)
    (e : Entry) (hlong : w.Longest g (before ++ [e])) (id key : Id) (sequence : UInt64) (head : Id)
    (acceptance : Signature) (he : e.mutation = .Transfer id key sequence head acceptance) :
    ∃ t n es, loadNode (w.node t) = .ok (some n) ∧ n.g = g ∧ n.admission = id ∧ n.key = key ∧
      (∀ j m, loadNode (w.node j) = .ok (some m) → m.key = key ∨ m.admission = id → j = t) ∧
      load (w.node t).tables g.cluster = .ok es ∧
      (e ∉ es → n.phase = .member ∧ isLeaving (w.node t) n = false ∧ es = before ∧
        ∃ s next, opened (openDatabase (w.node t)) = .ok (n, s) ∧
          replay g (before ++ [e]) = .ok next ∧
          (∀ external now, authorizeExternal (openDatabase (w.node t)) n external now = .ok () →
            ∃ db, importHistory n s (openDatabase (w.node t))
              (wireHistory g (before ++ [e]) next) none (some e.operation) external now = .ok db ∧
              Takes db n (before ++ [e]) next) ∧
          ∀ now, ∃ db, applySync n s (openDatabase (w.node t))
              (wireHistory g (before ++ [e]) next) now = .ok db ∧
              Takes db n (before ++ [e]) next) := by
  obtain ⟨chain, hinv⟩ := hw.explained
  have hchain := hlong.eq_chain hinv
  obtain ⟨t, n, es, s, hl, rfl, hadm, rfl, hcase⟩ :=
    hinv.handoff g before e id key sequence head acceptance hchain.symm he
  simp only at hadm
  subst hadm
  refine ⟨t, n, es, hl.loaded, rfl, rfl, rfl, ?_, hl.holds.load, fun hnot => ?_⟩
  · rintro j m hj (hk | ha)
    · exact hinv.key_inj j t m n hj hl.loaded hk
    · exact hinv.admission_inj j t m n hj hl.loaded ha
  · rcases hcase with rfl | ⟨rfl, hk⟩
    · rw [← hchain] at hnot
      simp at hnot
    · obtain ⟨next, hnext⟩ := hinv.replays n.g
      obtain ⟨hlen, hsize⟩ := hinv.bounded n.g
      rw [← hchain] at hnext hlen hsize
      have hopen := hk.opens hl.loaded
      have himport := fun external now hauth =>
        hk.activates hl he hnext hlen hsize external now hauth
      refine ⟨hk.member, hk.staying, rfl, s, next, ?_, hnext, ?_, ?_⟩
      · rw [hopen]
        exact hl.opened_eq hk.identity
      · rw [hopen]
        exact himport
      · intro now
        rw [hopen]
        obtain ⟨db, hdb, htakes⟩ := himport none now rfl
        refine ⟨db, ?_, htakes⟩
        have hprimary := htakes.primary
        simp only [applySync, decodedHistory_wireHistory n.g _ next (loadNode_root _ n hl.loaded)
          hlen hnext, hnext, lift, liftError, bind_eq_ok, Except.ok.injEq, exists_eq_left',
          hprimary, hk.replica, ne_eq, not_false_eq_true, and_self, if_true, List.reverse_append,
          List.reverse_cons, List.reverse_nil, List.nil_append, List.cons_append,
          List.findSome?_cons, he]
        exact hdb

end

section
attribute [local instance] residuePlatform residuePlatform_lawful

def sampleAdmission : Call :=
  .admitMember sampleLocal (sampleOperation (sampleState 0)).data 1 (consent sampleTarget)

def sampleFinish : Call := .finishJoin sampleLocal (Fixed.fill 32 50)
  (wireHistory sampleGenesis (rootRemoved.take 1) (sampleState 1))

def sampleAccept : Call :=
  .prepareTransfer sampleLocal (sampleOperation (sampleState 1)).data (head (sampleState 1))

def sampleSeal : Call := .sealTransfer sampleLocal sampleAcceptance

def Call.answer (c : Call) (db : Database) : Option (Node × State × Database) :=
  match opened (openDatabase db) with
  | .ok (n, before) => (c.run n before (openDatabase db) 700).toOption.map fun db => (n, before, db)
  | .error _ => none

def Call.after (c : Call) (db : Database) : Database :=
  ((c.answer db).map fun r => r.2.2).getD db

def rootRandomness : Randomness := ⟨(1 : UInt8), Fixed.fill 32 1, Fixed.fill 32 9⟩

def targetRandomness : Randomness := ⟨(2 : UInt8), Fixed.fill 32 2, Fixed.fill 32 0⟩

def rootDatabase : Database :=
  (initializeNode Database.empty (Fixed.fill 32 60) none "root" 700 rootRandomness).toOption.getD
    Database.empty

def targetDatabase : Database :=
  (initializeNode Database.empty (Fixed.fill 32 50) (some sampleGenesis) "endpoint" 700
    targetRandomness).toOption.getD Database.empty

def admittingDatabase : Database := sampleAdmission.after rootDatabase
def joinedDatabase : Database := sampleFinish.after targetDatabase
def acceptingDatabase : Database := sampleAccept.after joinedDatabase
def sealedDatabase : Database := sampleSeal.after admittingDatabase

def admittedBy (db : Database) : Option (Genesis × UInt8) :=
  ((loadNode db).toOption.bind id).map fun n => (n.g, n.pair)

theorem Call.answer_opened {c : Call} {db : Database} (h : (c.answer db).isSome = true)
    {g : Genesis} {pair : UInt8} (hn : admittedBy db = some (g, pair)) :
    ∃ (n : Node) (before : State), opened (openDatabase db) = .ok (n, before) ∧ n.g = g ∧
      n.pair = pair ∧ c.run n before (openDatabase db) 700 = .ok (c.after db) := by
  cases ho : opened (openDatabase db) with
  | error e => simp [Call.answer, ho] at h
  | ok q =>
    obtain ⟨n, before⟩ := q
    cases hr : c.run n before (openDatabase db) 700 with
    | error e => simp [Call.answer, ho, hr, Except.toOption] at h
    | ok d =>
      have hload : loadNode db = .ok (some n) := by
        rw [← loadNode_openDatabase]
        simp only [opened, bind_eq_ok, require_eq_ok, pure_eq_ok, Prod.mk.injEq] at ho
        obtain ⟨_, hl, m, rfl, _, _, rfl, -⟩ := ho
        exact hl
      simp only [admittedBy, hload, Except.toOption, Option.bind_some, id, Option.map_some,
        Option.some.injEq, Prod.mk.injEq] at hn
      refine ⟨n, before, rfl, hn.1, hn.2, ?_⟩
      simp [Call.after, Call.answer, ho, hr, Except.toOption]

theorem Fleet.Reached.answer {w : Fleet Bool} (hw : w.Reached) (nodes : Bool → Database)
    (hnodes : w.node = nodes) (i : Bool) (c : Call) (db db' : Database) (hdb : nodes i = db)
    (hdb' : db' = c.after db) (g : Genesis) (pair : UInt8)
    (h : (c.answer db).isSome = true ∧ admittedBy db = some (g, pair)) (hg : w.Genuine g c.inputs) :
    ∃ (n : Node) (w' : Fleet Bool), n.g = g ∧ n.pair = pair ∧ w'.Reached ∧
      w'.node = Function.update nodes i db' ∧
      signed n (openDatabase db).tables db'.tables ⊆ w'.issued := by
  subst hnodes hdb hdb'
  obtain ⟨n, before, ho, rfl, hpair, hr⟩ := Call.answer_opened h.1 h.2
  exact ⟨n, _, rfl, hpair, .next w _ hw (.call i c 700 n before _ ho hg hr), rfl,
    Set.subset_union_right⟩

theorem genuine_of_none {w : Fleet Bool} {g : Genesis} {c : Call} (hh : c.history = none)
    (ha : c.acceptance = none) : w.Genuine g c.inputs := by
  constructor
  · intro h entries hin
    cases hh.symm.trans hin
  · rintro epoch operation id key sequence head acceptance ⟨a, hin, -⟩
    cases ha.symm.trans hin

theorem residue_key {pair : UInt8} {key : Id} {body : Str}
    (h : @Platform.verify residuePlatform key body (@Platform.sign residuePlatform pair body) = true) :
    key = Fixed.fill 32 pair := by
  have heq := of_decide_eq_true h
  exact (Fixed.frame_inj heq).1.symm

theorem rootRemoved_split : ∃ first handoff removal, rootRemoved = [first, handoff, removal] ∧
    first.signature = @Platform.sign residuePlatform (1 : UInt8) first.body ∧
    ∃ sequence head acceptance, handoff.mutation =
      .Transfer (Fixed.fill 32 2) (Fixed.fill 32 2) sequence head acceptance :=
  ⟨_, _, _, rfl, rfl, _, _, _, rfl⟩

def twoNodes (root target : Database) : Bool → Database := fun b => if b then root else target

theorem update_root (x y d : Database) :
    Function.update (twoNodes x y) true d = twoNodes d y := by
  funext b
  cases b <;> rfl

theorem update_target (x y d : Database) :
    Function.update (twoNodes x y) false d = twoNodes x d := by
  funext b
  cases b <;> rfl

def samplePromise : Promise where
  operation := sampleOperation (sampleState 1)
  epoch := 1
  target := Fixed.fill 32 2
  acceptance := @Platform.sign residuePlatform (2 : UInt8) (acceptanceBody sampleGenesis.cluster 1
    (sampleOperation (sampleState 1)) (Fixed.fill 32 2) (Fixed.fill 32 2) 1 (sampleState 1).head)
  sequence := 1
  head := (sampleState 1).head

theorem sample_run :
    (initializeNode Database.empty (Fixed.fill 32 60) none "root" 700 rootRandomness).toBool = true ∧
    (initializeNode Database.empty (Fixed.fill 32 50) (some sampleGenesis) "endpoint" 700
      targetRandomness).toBool = true ∧
    (readTarget (some (wireGenesis sampleGenesis))).toOption = some (some sampleGenesis) ∧
    (sampleAdmission.answer rootDatabase).isSome = true ∧
    (sampleFinish.answer targetDatabase).isSome = true ∧
    (sampleAccept.answer joinedDatabase).isSome = true ∧
    (sampleSeal.answer admittingDatabase).isSome = true ∧
    [rootDatabase, targetDatabase, joinedDatabase, admittingDatabase, sealedDatabase].map admittedBy =
      [some (sampleGenesis, 1), some (sampleGenesis, 2), some (sampleGenesis, 2),
        some (sampleGenesis, 1), some (sampleGenesis, 1)] ∧
    [openDatabase rootDatabase, admittingDatabase, acceptingDatabase, sealedDatabase].map
        (fun db => (load db.tables sampleGenesis.cluster).toOption) =
      [some [], some (rootRemoved.take 1), some (rootRemoved.take 1), some (rootRemoved.take 2)] ∧
    (decodedHistory (wireHistory sampleGenesis (rootRemoved.take 1) (sampleState 1))
      sampleGenesis).toOption = some (rootRemoved.take 1) ∧
    (acceptedTransfer sampleAcceptance).toOption = some (samplePromise.epoch,
      samplePromise.operation, .Transfer samplePromise.target (Fixed.fill 32 2)
        samplePromise.sequence samplePromise.head samplePromise.acceptance) ∧
    samplePromise.row ∈ acceptingDatabase.tables.prepared ∧
    samplePromise.row ∉ (openDatabase joinedDatabase).tables.prepared := by decide +kernel

theorem getD_of_toBool {x : Except RuntimeError Database} (h : x.toBool = true) (db : Database) :
    x = .ok (x.toOption.getD db) := by
  obtain ⟨a, ha⟩ := exists_of_toBool x h
  rw [ha]
  rfl

theorem rootDatabase_created : initializeNode Database.empty (Fixed.fill 32 60) none "root" 700
    rootRandomness = .ok rootDatabase := getD_of_toBool sample_run.1 Database.empty

theorem targetDatabase_created : initializeNode Database.empty (Fixed.fill 32 50)
    (some sampleGenesis) "endpoint" 700 targetRandomness = .ok targetDatabase :=
  getD_of_toBool sample_run.2.1 Database.empty

theorem sampleTarget_read : readTarget (some (wireGenesis sampleGenesis)) =
    .ok (some sampleGenesis) := eq_ok_of_toOption sample_run.2.2.1

theorem rootDatabase_loads : loadNode rootDatabase =
    .ok (some (newNode none (1 : UInt8) (Fixed.fill 32 60) "root" 700 rootRandomness)) := by
  obtain ⟨pair, h, ⟨-, rfl, -⟩ | ⟨n, hn, -⟩⟩ := initializeNode_begins _ _ none _ none _ _ _ rfl
    (by simp) (by simp) rootDatabase_created
  · exact h
  · contradiction

theorem targetDatabase_loads : loadNode targetDatabase = .ok (some (newNode (some sampleGenesis)
    (2 : UInt8) (Fixed.fill 32 50) "endpoint" 700 targetRandomness)) := by
  have hroot : ∀ g, some sampleGenesis = some g → validateEndpoint g.rootEndpoint = .ok () := by
    rintro g ⟨⟩
    exact readTarget_root sampleTarget_read
  obtain ⟨pair, h, ⟨-, rfl, -⟩ | ⟨n, hn, -⟩⟩ := initializeNode_begins _ _ none _ _ _ _ _ rfl
    (by simp) hroot targetDatabase_created
  · exact h
  · contradiction

def sampleLives : Set (Genesis × Id) :=
  {(sampleGenesis, Fixed.fill 32 1), (sampleGenesis, Fixed.fill 32 2)}

theorem two_lives :
    Fleet.Reached (⟨twoNodes rootDatabase targetDatabase, ∅, sampleLives⟩ : Fleet Bool) := by
  have h0 : Fleet.Reached (⟨twoNodes Database.empty Database.empty, ∅, ∅⟩ : Fleet Bool) :=
    .start _ ⟨fun b => by cases b <;> rfl, rfl, rfl⟩
  have hnone : ∀ b n, loadNode (twoNodes Database.empty Database.empty b) ≠ .ok (some n) := by
    intro b n
    cases b <;> simp [twoNodes, loadNode, Database.empty]
  have h1 := Reachable.next _ _ h0 (Fleet.Step.start true (Fixed.fill 32 60) none none "root" 700
    rootRandomness none rootDatabase _ rfl rfl (by simp) rootDatabase_created rootDatabase_loads
    ⟨by simp, by simp, fun b n es s hn => absurd hn (hnone b n), fun _ b n hn =>
      absurd hn (hnone b n)⟩)
  rw [update_root] at h1
  have hfresh : (⟨twoNodes rootDatabase Database.empty, ∅, ∅ ∪ {(sampleGenesis, Fixed.fill 32 1)}⟩ :
      Fleet Bool).Fresh false (some sampleGenesis) sampleGenesis targetRandomness := by
    constructor
    · rintro l (hl | rfl)
      · contradiction
      · exact ⟨by decide, by decide, fun _ => rfl⟩
    · decide
    · intro b n es s hn hholds
      cases b with
      | false => exact absurd hn (hnone false n)
      | true =>
        have hlog : es = [] := List.map_eq_nil_iff.mp hholds.rows.symm
        subst hlog
        cases hn.symm.trans rootDatabase_loads
        cases hholds.replayed
        decide
    · intro _ b n hn
      cases b with
      | false => exact absurd hn (hnone false n)
      | true =>
        cases hn.symm.trans rootDatabase_loads
        decide
  have h2 := Reachable.next _ _ h1 (Fleet.Step.start false (Fixed.fill 32 50)
    (some (wireGenesis sampleGenesis)) (some sampleGenesis) "endpoint" 700 targetRandomness none
    targetDatabase _ sampleTarget_read rfl (by simp) targetDatabase_created
    targetDatabase_loads hfresh)
  rw [update_target] at h2
  have hlives : ((∅ ∪ {(sampleGenesis, Fixed.fill 32 1)}) ∪ {(sampleGenesis, Fixed.fill 32 2)} :
      Set (Genesis × Id)) = sampleLives := by
    rw [Set.empty_union]
    rfl
  rw [← hlives]
  exact h2

theorem admission_issued {n : Node} (hg : n.g = sampleGenesis) (hpair : n.pair = (1 : UInt8))
    (hempty : (load (openDatabase rootDatabase).tables sampleGenesis.cluster).toOption = some [])
    (hfull : (load admittingDatabase.tables sampleGenesis.cluster).toOption =
      some (rootRemoved.take 1)) {e : Entry} (he : e ∈ rootRemoved.take 1) {key : Id}
    (hv : @Platform.verify residuePlatform key e.body e.signature = true) :
    (key, e.body, e.signature) ∈
      signed n (openDatabase rootDatabase).tables admittingDatabase.tables := by
  obtain ⟨first, handoff, removal, hsplit, hfirst, -⟩ := rootRemoved_split
  have heq : e = first := by simpa [hsplit] using he
  subst heq
  rw [hfirst] at hv
  have hkey := residue_key hv
  refine Or.inl ⟨[], rootRemoved.take 1, e, ?_, ?_, he, by simp, ?_, ?_⟩
  · rw [hg]
    exact eq_ok_of_toOption hempty
  · rw [hg]
    exact eq_ok_of_toOption hfull
  · rw [hpair]
    exact hfirst
  · rw [Node.key, hpair, hkey]
    rfl

theorem sealed_fleet : ∃ w : Fleet Bool, w.Reached ∧
    w.node = twoNodes sealedDatabase acceptingDatabase := by
  obtain ⟨-, -, -, hadmission, hfinish, haccept, hseal, hrows, hlogs, hdecoded, htransfer, hnew,
    hold⟩ := sample_run
  simp only [List.map_cons, List.map_nil, List.cons.injEq, and_true] at hrows hlogs
  obtain ⟨hroot, htarget, hjoined, hadmitting, -⟩ := hrows
  obtain ⟨n3, w3, hg3, hp3, h3, hn3, hi3⟩ := two_lives.answer _ rfl true sampleAdmission rootDatabase
    admittingDatabase rfl rfl _ _ ⟨hadmission, hroot⟩ (genuine_of_none rfl rfl)
  rw [update_root] at hn3
  obtain ⟨n4, w4, -, -, h4, hn4, -⟩ := h3.answer _ hn3 false sampleFinish targetDatabase
    joinedDatabase rfl rfl _ _ ⟨hfinish, htarget⟩ (by
      constructor
      · rintro h entries hin hdec e he key hv
        cases hin
        cases hdec.symm.trans (eq_ok_of_toOption hdecoded)
        exact hi3 (admission_issued hg3 hp3 hlogs.1 hlogs.2.1 he hv)
      · rintro epoch operation id key sequence head acceptance ⟨a, hin, -⟩
        cases hin)
  rw [update_target] at hn4
  obtain ⟨n5, w5, hg5, hp5, h5, hn5, hi5⟩ := h4.answer _ hn4 false sampleAccept joinedDatabase
    acceptingDatabase rfl rfl _ _ ⟨haccept, hjoined⟩ (genuine_of_none rfl rfl)
  rw [update_target] at hn5
  obtain ⟨n6, w6, -, -, h6, hn6, -⟩ := h5.answer _ hn5 true sampleSeal admittingDatabase
    sealedDatabase rfl rfl _ _ ⟨hseal, hadmitting⟩ (by
      constructor
      · intro h entries hin
        cases hin
      · rintro epoch operation id key sequence head acceptance ⟨a, hin, hdec⟩ -
        cases hin
        cases hdec.symm.trans (eq_ok_of_toOption htransfer)
        -- the acceptance is signed by the target
        refine hi5 (Or.inr ⟨samplePromise, hnew, hold, ?_⟩)
        rw [Node.key, hg5, hp5]
        rfl)
  rw [update_root] at hn6
  exact ⟨w6, h6, hn6⟩

theorem handoff_activates_sample : ∃ (w : Fleet Bool) (handoff : Entry), w.Reached ∧
    w.Longest sampleGenesis (rootRemoved.take 1 ++ [handoff]) ∧
    ∃ t n es, loadNode (w.node t) = .ok (some n) ∧ n.key = Fixed.fill 32 2 ∧
      load (w.node t).tables sampleGenesis.cluster = .ok es ∧
      (handoff ∉ es → n.phase = .member ∧ isLeaving (w.node t) n = false) := by
  obtain ⟨w, hw, hnode⟩ := sealed_fleet
  obtain ⟨first, handoff, removal, hsplit, -, sequence, head, acceptance, hhandoff⟩ :=
    rootRemoved_split
  obtain ⟨-, -, -, -, -, -, -, hrows, hlogs, -⟩ := sample_run
  simp only [List.map_cons, List.map_nil, List.cons.injEq, and_true] at hrows hlogs
  have hsealed : load sealedDatabase.tables sampleGenesis.cluster = .ok (rootRemoved.take 2) :=
    eq_ok_of_toOption hlogs.2.2.2
  have haccepting : load acceptingDatabase.tables sampleGenesis.cluster =
      .ok (rootRemoved.take 1) := eq_ok_of_toOption hlogs.2.2.1
  have hhistory : rootRemoved.take 1 ++ [handoff] = rootRemoved.take 2 := by simp [hsplit]
  have hlong : w.Longest sampleGenesis (rootRemoved.take 1 ++ [handoff]) := by
    rw [hhistory]
    constructor
    · have hg : admittedBy sealedDatabase = some (sampleGenesis, 1) := hrows.2.2.2.2
      simp only [admittedBy, Option.map_eq_some_iff, Option.bind_eq_some_iff, id] at hg
      obtain ⟨n, ⟨o, ho, rfl⟩, hn⟩ := hg
      refine ⟨true, n, ?_, congrArg Prod.fst hn, ?_⟩ <;> rw [hnode]
      · exact eq_ok_of_toOption ho
      · exact hsealed
    · intro i n es hn hg hes
      rw [hnode] at hes
      cases i with
      | true =>
        cases hes.symm.trans hsealed
        exact le_rfl
      | false =>
        cases hes.symm.trans haccepting
        simp [hsplit]
  obtain ⟨t, n, es, hn, -, -, hk, -, hes, hobligation⟩ := handoff_activates w hw sampleGenesis
    (rootRemoved.take 1) handoff hlong _ _ sequence head acceptance hhandoff
  exact ⟨w, handoff, hw, hlong, t, n, es, hn, hk, hes, fun hnot =>
    ⟨(hobligation hnot).1, (hobligation hnot).2.1⟩⟩

end

end Rieul.Cluster
