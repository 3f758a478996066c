import Rieul.Cluster.Life

/-!
# What an accepted transfer promises

A node that answers an acceptance keeps the prepared row, stays an active member
and does not leave as long as its journal does not grow.
-/

namespace Rieul.Cluster
open Bytes Fallible

/-- The acceptance of a transfer to `target` at the head that follows `sequence` entries. -/
structure Promise where
  operation : Id
  epoch : UInt64
  target : Id
  acceptance : Signature
  sequence : UInt64
  head : Id

def Promise.row (p : Promise) : Prepared :=
  ⟨p.operation.data, p.epoch, p.target.data, p.acceptance.data, p.sequence, p.head.data⟩

def Promise.body (p : Promise) (cluster key : Id) : Str :=
  acceptanceBody cluster p.epoch p.operation p.target key p.sequence p.head

theorem Promise.row_inj {p q : Promise} (h : p.row = q.row) : p = q := by
  cases p
  cases q
  simp only [Promise.row, Prepared.mk.injEq] at h
  obtain ⟨h1, rfl, h2, h3, rfl, h4⟩ := h
  rw [Fixed.ext' h1, Fixed.ext' h2, Fixed.ext' h3, Fixed.ext' h4]

section
variable [Platform]

structure Keeps (db : Database) (n : Node) (s : State) (p : Promise) : Prop where
  member : n.phase = .member
  admission : n.admission = p.target
  staying : isLeaving db n = false
  identity : checkIdentity db.tables n.g n.key = .ok ()
  replica : s.primary ≠ n.admission
  stored : db.tables.prepared.find? (fun r => r.operation = p.operation.data) = some p.row
  epoch : s.epoch = p.epoch
  sequence : s.sequence = p.sequence
  head : s.head = p.head

theorem Keeps.opens {db : Database} {n : Node} {s : State} {p : Promise}
    (h : Keeps db n s p) (hn : loadNode db = .ok (some n)) : openDatabase db = db := by
  rw [openDatabase_of db n hn, createIdentity_of_check _ _ _ h.identity]

variable [LawfulPlatform]

theorem Life.unique {db : Database} {n m : Node} {es es' : List Entry} {s s' : State}
    (h : Life db n es s) (h' : Life db m es' s') : n = m ∧ es = es' ∧ s = s' := by
  have hn : n = m := loadNode_unique h'.loaded h.loaded
  subst hn
  exact ⟨rfl, h.holds.unique h'.holds⟩

omit [LawfulPlatform] in
theorem importedPhase_member {n : Node} {s : State} (hp : n.phase = .member)
    (hm : s.members.lookup n.admission = some n.key) :
    importedPhase n n.key n.admission s = .member := by
  simp [importedPhase, hp, hm]

omit [Platform] [LawfulPlatform] in
theorem installed_nil (tx : Tables) (key : Id) (es : List Entry) (h : tx.log = es.map Entry.row) :
    tx.installed key es [] = tx := by
  cases tx
  simp only at h
  simp [Tables.installed, h]

theorem Keeps.ran {inputs : Inputs} {db db' : Database} {n n' : Node} {es : List Entry} {s : State}
    {p : Promise} {now : Int64} (hl : Life db n es s) (hk : Keeps db n s p)
    (hr : Ran inputs n s db now db') (hl' : Life db' n' es s) : Keeps db' n' s p := by
  have hjournal : ∀ s', journalState db n.g = .ok s' → s' = s := by
    intro s' hs
    simp only [journalState, bind_eq_ok, liftError_eq_ok, hl.holds.load, Except.ok.injEq,
      exists_eq_left', hl.holds.replayed] at hs
    exact hs.symm
  have hmem := List.mem_of_find?_eq_some hk.stored
  have hsame (m : Node) (hm : loadNode db' = .ok (some m)) : n' = m := loadNode_unique hm hl'.loaded
  cases hr with
  | committed epoch operation mutation e tables hmember htransfer happ =>
    obtain ⟨-, -, hcase⟩ := (append_eq_ok _ _ _ _ _ _ _ _ es s e hl.holds).mp happ
    rcases hcase with ⟨-, -, rfl⟩ | happended
    · rw [hsame n hl.loaded]
      exact hk
    · -- the key of the primary is not the key of this member
      have hw := replay_wellFormed n.g es s hl.holds.replayed
      exact absurd (hw.keys_inj _ _ _ happended.primary (hl.member hk.member)) hk.replica
  | left cur s' operation h =>
    have hcur := loadNode_unique hl.loaded h.current
    subst hcur
    have hs := hjournal s' h.journal
    subst hs
    exact absurd ⟨hk.epoch.symm, hk.sequence.symm, congrArg Fixed.data hk.head.symm⟩
      (h.free p.row hmem)
  | cancelled cur s' h rows =>
    have hcur := loadNode_unique hl.loaded h.current
    subst hcur
    exact absurd hk.member h.phase
  | imported finish activation cur entries next tables h =>
    have hcur := loadNode_unique hl.loaded h.current
    subst hcur
    have hinst := (install_eq_ok db.tables tables cur.g cur.key es entries s hl.holds).mp h.installed
    obtain ⟨-, hlen, -, -, -, -, rfl⟩ := hinst
    have hentries : entries = es := by
      have hnew : (db.tables.installed cur.key entries (entries.drop es.length)).Holds cur.g entries
          next := ⟨rfl, hlen, h.replayed⟩
      have hload := hl'.holds.load
      have hg : n'.g = cur.g := by
        rw [hsame _ (loadNode_setPhase _ _ _ hl.loaded)]
      rw [hg] at hload
      exact Except.ok.inj (hnew.load.symm.trans hload)
    subst hentries
    have hnext : next = s := Except.ok.inj (h.replayed.symm.trans hl.holds.replayed)
    subst hnext
    rw [List.drop_length, installed_nil _ _ _ hl.holds.rows,
      importedPhase_member hk.member (hl.member hk.member)] at hl' hsame ⊢
    rw [hsame _ (loadNode_setPhase _ _ _ hl.loaded)]
    exact ⟨rfl, hk.admission, hk.staying, hk.identity, hk.replica, hk.stored, hk.epoch, hk.sequence,
      hk.head⟩
  | configured cur entries next tables h rows scope hscope =>
    have hcur := loadNode_unique hl.loaded h.current
    subst hcur
    have hp := h.phase
    rw [hk.member] at hp
    contradiction
  | accepted operation cur mutation tables h =>
    have hcur := loadNode_unique hl.loaded h.current
    subst hcur
    rw [hsame _ hl.loaded]
    obtain ⟨-, target, -, -, -, -, ht⟩ := prepare_ok _ _ _ _ _ _ _ es s hl.holds h.prepared
    rcases ht with ⟨rfl, -⟩ | ⟨-, rfl⟩
    · exact hk
    · refine ⟨hk.member, hk.admission, hk.staying, hk.identity, hk.replica, ?_, hk.epoch,
        hk.sequence, hk.head⟩
      simp only [List.find?_append, hk.stored, Option.some_or]
  | unchanged =>
    rw [hsame n hl.loaded]
    exact hk

theorem Accepted.keeps {db : Database} {n cur : Node} {es : List Entry} {s : State} {operation : Id}
    {mutation : Mutation} {tables : Tables} (hl : Life db n es s)
    (h : Accepted n db operation cur mutation tables) :
    ∃ p : Promise, tables = { db.tables with prepared := db.tables.prepared ++ [p.row] } ∧
      Keeps { db with tables := tables } n s p := by
  have hcur : cur = n := loadNode_unique hl.loaded h.current
  subst hcur
  obtain ⟨_, hid, -⟩ := (bind_eq_ok _ _ _).mp h.prepared
  obtain ⟨-, target, htarget, hprimary, -, -, ht⟩ :=
    prepare_ok _ _ _ _ _ _ _ es s hl.holds h.prepared
  rcases ht with ⟨-, old, hold, -⟩ | ⟨hnone, rfl⟩
  · rw [h.fresh] at hold
    contradiction
  · have hw := replay_wellFormed cur.g es s hl.holds.replayed
    have hadm : cur.admission = target := hw.keys_inj _ _ _ (hl.member h.member) htarget
    refine ⟨⟨operation, s.epoch, target, Platform.sign cur.pair (acceptanceBody s.cluster s.epoch
      operation target cur.key s.sequence s.head), s.sequence, s.head⟩, rfl, h.member, hadm,
      h.staying, hid, ?_, ?_, rfl, rfl, rfl⟩
    · rw [hadm]
      exact hprimary.symm
    · simp only [List.find?_append, hnone, Option.none_or, preparedRow, List.find?_cons, decide_true]
      rfl

end

end Rieul.Cluster
