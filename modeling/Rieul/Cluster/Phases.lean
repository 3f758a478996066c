import Rieul.Cluster.Revalidation

/-!
# The phases of the node row (daemon/host/src/cluster/primary/runtime.rs)

What one call does to the row of the node and to `retired_local`, and from it
what a run can do: an operation that was given up once is never active again.
-/

namespace Rieul.Cluster
open Bytes Fallible System

def Phase.Closed (p : Phase) : Prop := p = .removalPending ∨ p = .removed

def Rows.Retired (rows : List LifeRow) (operation : Id) : Prop :=
  ∃ r ∈ rows, r.operation = operation

theorem Rows.retired_insertLife (rows : List LifeRow) (row : LifeRow) (operation : Id) :
    Rows.Retired (insertLife rows row) operation ↔
      Rows.Retired rows operation ∨ row.operation = operation := by
  unfold insertLife Rows.Retired
  split
  · rename_i h
    obtain ⟨r, hr, hop⟩ := List.any_eq_true.mp h
    constructor
    · exact .inl
    · intro hrow
      rcases hrow with hrow | rfl
      · exact hrow
      · exact ⟨r, hr, of_decide_eq_true hop⟩
  · constructor
    · intro hrow
      obtain ⟨r, hr, hop⟩ := hrow
      rcases List.mem_append.mp hr with hr | hr
      · exact .inl ⟨r, hr, hop⟩
      · rw [List.mem_singleton.mp hr] at hop
        exact .inr hop
    · intro hrow
      rcases hrow with ⟨r, hr, hop⟩ | hop
      · exact ⟨r, List.mem_append_left _ hr, hop⟩
      · exact ⟨row, List.mem_append_right _ List.mem_cons_self, hop⟩

section
variable [Platform]

structure Admitted (inputs : Inputs) (n : Node) (now : Int64) : Prop where
  unexpired : now < n.consentExpires
  imported : ∃ h entries digest, inputs.history h ∧ decodedHistory h n.g = .ok entries ∧
    consentDigest (consent n) = .ok digest ∧
    ∃ e ∈ entries, ∃ endpoint, e.mutation = .Admit n.admission n.key digest endpoint

structure Node.Moves (n n' : Node) : Prop where
  row : n' = { n with phase := n'.phase }
  joining : n'.phase = .joining → n.phase = .joining
  closed : n.phase.Closed → n'.phase.Closed

theorem Node.Moves.refl (n : Node) : n.Moves n := ⟨rfl, id, id⟩

theorem verifyAdmission_ok (n : Node) (entries : List Entry)
    (h : verifyAdmission n entries = .ok ()) : ∃ digest, consentDigest (consent n) = .ok digest ∧
      ∃ e ∈ entries, ∃ endpoint, e.mutation = .Admit n.admission n.key digest endpoint := by
  simp only [verifyAdmission, bind_eq_ok, ensure_eq_ok, List.any_eq_true] at h
  obtain ⟨digest, hdigest, e, he, hadmitted⟩ := h
  refine ⟨digest, hdigest, e, he, ?_⟩
  split at hadmitted
  · rename_i id key consent endpoint hm
    obtain ⟨rfl, rfl, rfl⟩ := of_decide_eq_true hadmitted
    exact ⟨endpoint, hm⟩
  · cases hadmitted

theorem Ran.moves {inputs : Inputs} {q : Node × State} {tx tx' : Database} {now : Int64} {n : Node}
    (hn : loadNode tx = .ok (some n))
    (hq : q.1.operation = n.operation → n.phase = .joining → q.1 = n)
    (h : Ran inputs q.1 q.2 tx now tx') :
    ∃ n', loadNode tx' = .ok (some n') ∧ n.Moves n' ∧
      (n.phase = .joining → n'.phase = .member → Admitted inputs n now) := by
  have hquiet : n.phase = .joining → n.phase = .member → Admitted inputs n now := by
    intro hj hm
    cases hj.symm.trans hm
  cases h with
  | committed | left | accepted | unchanged => exact ⟨n, hn, Node.Moves.refl n, hquiet⟩
  | cancelled cur s hcan rows =>
    obtain rfl := loadNode_unique hn hcan.current
    split
    · refine ⟨{ cur with phase := .removalPending }, loadNode_setPhase _ _ _ hn, ?_, nofun⟩
      exact ⟨rfl, nofun, fun _ => .inl rfl⟩
    · exact ⟨cur, hn, Node.Moves.refl cur, hquiet⟩
  | imported finish activation cur entries next tables himp =>
    obtain rfl := loadNode_unique hn himp.current
    refine ⟨_, loadNode_setPhase { tx with tables := tables } cur _ hn, ⟨rfl, ?_, ?_⟩, ?_⟩
    · intro hp
      dsimp only at hp
      unfold importedPhase at hp
      split at hp
      · rename_i hclosed
        split at hp
        · cases hp
        · exact hp
      · split at hp
        · cases hp
        · cases hp
    · intro hc
      dsimp only
      unfold importedPhase
      split
      · split
        · exact .inr rfl
        · exact hc
      · rename_i hopen
        exact absurd hc hopen
    · intro hj _
      obtain ⟨g, hdec⟩ := himp.decoded
      have hsnap := hq himp.operation.symm hj
      rw [hsnap] at himp hdec
      cases hf : finish with
      | none => exact absurd hj (himp.unfinished hf)
      | some op =>
        obtain ⟨_, _, _, hfin⟩ := himp.finished op hf
        obtain ⟨hexp, hver⟩ := hfin hj
        obtain ⟨digest, hdigest, hadmitted⟩ := verifyAdmission_ok cur entries hver
        exact ⟨Int64.not_le.mp hexp, g, entries, digest, hdec.1, hdec.2, hdigest, hadmitted⟩
  | configured cur entries next tables hconf rows scope hscope =>
    obtain rfl := loadNode_unique hn hconf.current
    split
    · refine ⟨{ cur with phase := .removed }, loadNode_setPhase _ _ _ hn, ?_, nofun⟩
      exact ⟨rfl, nofun, fun _ => .inr rfl⟩
    · exact ⟨cur, (loadNode_scope tx tables scope hscope).trans hn, Node.Moves.refl cur, hquiet⟩

theorem importHistory_rows {n : Node} {before : State} {tx tx' : Database} {h : ClusterHistory}
    {finish activation : Option Id} {external : Option Authorized} {now : Int64}
    (hi : importHistory n before tx h finish activation external now = .ok tx') :
    tx'.retiredLocal = tx.retiredLocal := by
  have hs : (⟨fun _ => True, fun _ _ _ => True⟩ : Inputs).history h := trivial
  obtain ⟨_, _, _, _, _, _, rfl⟩ := importHistory_ok hs hi
  rfl

theorem Call.run_rows {c : Call} {n : Node} {before : State} {tx tx' : Database} {now : Int64}
    {cur cur' : Node} (h : c.run n before tx now = .ok tx') (hcur : loadNode tx = .ok (some cur))
    (hcur' : loadNode tx' = .ok (some cur')) : tx'.retiredLocal = tx.retiredLocal ∨
      ∃ row : LifeRow, row.operation = cur.operation ∧
        tx'.retiredLocal = insertLife tx.retiredLocal row ∧ cur'.phase.Closed := by
  cases hc : c.commits with
  | true =>
    left
    rcases c.run_commits hc h with rfl | ⟨_, _, _, _, _, _, _, _, rfl⟩
    · rfl
    · rfl
  | false =>
    cases c with
    | leave auth operation =>
      left
      simp only [Call.run, requestLeave, bind_eq_ok, exists_unit_iff] at h
      obtain ⟨_, _, _, _, _, h⟩ := h
      split at h
      · simp only [bind_eq_ok, exists_unit_iff, pure_eq_ok] at h
        rw [← h.2]
      · simp only [bind_eq_ok, exists_unit_iff, pure_eq_ok] at h
        obtain ⟨_, _, _, _, _, _, rfl⟩ := h
        rfl
    | cancelJoin auth operation =>
      right
      simp only [Call.run, cancelClusterJoin, bind_eq_ok, exists_unit_iff, ensure_eq_ok,
        currentNode_eq_ok, pure_eq_ok, not_or] at h
      obtain ⟨_, _, _, m, hm, ⟨hop, _, _⟩, _, _, _, ⟨hphase, _⟩, rfl⟩ := h
      obtain rfl := loadNode_unique hcur hm
      refine ⟨⟨n.operation, n.g.cluster, n.admission⟩, hop.symm, ?_, ?_⟩
      · split
        · rfl
        · rfl
      · split at hcur'
        · cases (loadNode_setPhase _ m .removalPending hm).symm.trans hcur'
          exact .inl rfl
        · cases hcur.symm.trans hcur'
          rename_i hjoining
          cases hp : cur'.phase with
          | joining => exact absurd hp hjoining
          | member => exact absurd hp hphase
          | removalPending => exact .inl rfl
          | removed => exact .inr rfl
    | configureJoin auth operation history =>
      simp only [Call.run, configure, bind_eq_ok, exists_unit_iff, currentNode_eq_ok] at h
      obtain ⟨_, _, _, _, m, hm, _, _, _, _, _, _, _, tables, _, h⟩ := h
      obtain rfl := loadNode_unique hcur hm
      split at h
      · right
        rw [pure_eq_ok] at h
        subst h
        refine ⟨⟨m.operation, m.g.cluster, m.admission⟩, rfl, rfl, ?_⟩
        cases (loadNode_setPhase _ m .removed hm).symm.trans hcur'
        exact .inr rfl
      · left
        rw [pure_eq_ok] at h
        subst h
        rfl
    | finishJoin auth operation history | joinTick history | applyHistory auth history
    | activate auth operation history | workerImport finish activation history =>
      exact .inl (importHistory_rows h)
    | synchronize history =>
      left
      simp only [Call.run, applySync, bind_eq_ok] at h
      obtain ⟨_, _, _, _, hi⟩ := h
      exact importHistory_rows hi
    | removalProof history =>
      left
      simp only [Call.run, applyRemovalProof, bind_eq_ok, exists_unit_iff] at h
      obtain ⟨_, _, _, _, _, _, _, _, hi⟩ := h
      exact importHistory_rows hi
    | prepareTransfer auth operation expectedHead =>
      left
      simp only [Call.run, map_eq_ok, preparePrimaryTransfer, bind_eq_ok, exists_unit_iff] at h
      obtain ⟨⟨receipt, t⟩, ⟨_, _, _, _, _, _, _, h⟩, rfl⟩ := h
      split at h
      · simp only [bind_eq_ok, pure_eq_ok, Prod.mk.injEq] at h
        obtain ⟨_, _, _, rfl⟩ := h
        rfl
      · simp only [bind_eq_ok, exists_unit_iff] at h
        obtain ⟨_, _, _, ⟨_, _⟩, _, h⟩ := h
        split at h
        · rw [pure_eq_ok] at h
          cases h
          rfl
        · cases h
    | _ => cases hc

structure Machine.Tracks (m : Machine) (n : Node) : Prop where
  loaded : loadNode m.db = .ok (some n)
  retired : Rows.Retired m.db.retiredLocal n.operation → n.phase.Closed
  same : ∀ q ∈ m.snapshots, q.1.operation = n.operation →
    q.1 = { n with phase := q.1.phase } ∧ (n.phase = .joining → q.1.phase = .joining)
  other : ∀ q ∈ m.snapshots, q.1.operation ≠ n.operation →
    Rows.Retired m.db.retiredLocal q.1.operation

structure Machine.Rowless (m : Machine) : Prop where
  loaded : loadNode m.db = .ok none
  rows : m.db.retiredLocal = []
  snapshots : m.snapshots = []

/-- What a step does to the row: none yet, a first life, a life under an operation that was never
used, or a move within the life. -/
inductive Machine.Turns (m m' : Machine) (now : Int64) (a : Action) : Prop where
  | rowless (h : m.Rowless) (h' : m'.Rowless)
  | first (n' : Node) (h : m.Rowless) (h' : m'.Tracks n')
  | again (n n' : Node) (h : m.Tracks n) (h' : m'.Tracks n') (hremoved : n.phase = .removed)
      (hop : n'.operation ≠ n.operation)
      (hfresh : ¬ Rows.Retired m.db.retiredLocal n'.operation)
      (hold : Rows.Retired m'.db.retiredLocal n.operation)
      (hrows : ∀ op, Rows.Retired m.db.retiredLocal op → Rows.Retired m'.db.retiredLocal op)
  | moves (n n' : Node) (h : m.Tracks n) (h' : m'.Tracks n') (hmoves : n.Moves n')
      (hrows : ∀ op, Rows.Retired m.db.retiredLocal op → Rows.Retired m'.db.retiredLocal op)
      (hadmitted : n.phase = .joining → n'.phase = .member →
        ∃ i c, a = .call i c ∧ Admitted c.inputs n now)

variable {m m' : Machine} {now : Int64}

namespace Machine

theorem Tracks.stays (h : m.Tracks n) (h' : m'.Tracks n) (a : Action)
    (hrows : m'.db.retiredLocal = m.db.retiredLocal) : m.Turns m' now a := by
  apply Turns.moves n n h h' (Node.Moves.refl n)
  · intro op hop
    rw [hrows]
    exact hop
  · intro hj hm
    cases hj.symm.trans hm

theorem Tracks.begins {n : Node} (h : m.Tracks n) (operation : Id) (target : Option Genesis)
    (endpoint : String) (random : Randomness) (db : Database) (n' : Node)
    (lives : List (Genesis × Id)) (a : Action)
    (hinit : initializeNode m.db operation target endpoint now random = .ok db)
    (hload : loadNode db = .ok (some n')) (hop' : n'.operation = operation)
    (hop : n.operation ≠ operation) :
    m.Turns { m with db := db, lives := lives } now a := by
  obtain ⟨_, hret, hphase, hdb⟩ :=
    initializeNode_again m.db db n operation target endpoint now random h.loaded hop hinit
  have hfresh : ¬ Rows.Retired m.db.retiredLocal operation := by
    intro hr
    obtain ⟨r, hr, hrop⟩ := hr
    exact hret r hr hrop
  have hrows : ∀ op, Rows.Retired db.retiredLocal op ↔
      Rows.Retired m.db.retiredLocal op ∨ n.operation = op := by
    intro op
    rw [hdb]
    exact Rows.retired_insertLife m.db.retiredLocal _ op
  subst hop'
  apply Turns.again n n' h ?_ hphase (Ne.symm hop) hfresh ((hrows _).mpr (.inr rfl))
    fun op hr => (hrows op).mpr (.inl hr)
  constructor
  · exact hload
  · intro hr
    rcases (hrows n'.operation).mp hr with hr | hr
    · exact absurd hr hfresh
    · exact absurd hr hop
  · intro q hq hsame
    by_cases hq' : q.1.operation = n.operation
    · exact absurd (hq'.symm.trans hsame) hop
    · exact absurd (hsame ▸ h.other q hq hq') hfresh
  · intro q hq _
    by_cases hq' : q.1.operation = n.operation
    · exact (hrows _).mpr (.inr hq'.symm)
    · exact (hrows _).mpr (.inl (h.other q hq hq'))

theorem Tracks.call {n : Node} (h : m.Tracks n) (q : Node × State) (hq : q ∈ m.snapshots)
    (i : ℕ) (c : Call) (db : Database) (hrun : c.run q.1 q.2 m.db now = .ok db) :
    m.Turns { m with db := db } now (.call i c) := by
  have hsnap : q.1.operation = n.operation → n.phase = .joining → q.1 = n := by
    intro hop hj
    obtain ⟨heq, hp⟩ := h.same q hq hop
    rw [heq, hp hj, ← hj]
  obtain ⟨n', hload, hmoves, hadmitted⟩ := (c.run_ran hrun).moves h.loaded hsnap
  have hop : n'.operation = n.operation := by
    rw [hmoves.row]
  have hrows : ∀ op, Rows.Retired m.db.retiredLocal op → Rows.Retired db.retiredLocal op := by
    intro op hr
    rcases c.run_rows hrun h.loaded hload with heq | ⟨row, _, heq, _⟩
    · rw [heq]
      exact hr
    · rw [heq, Rows.retired_insertLife]
      exact .inl hr
  refine .moves n n' h ⟨hload, ?_, ?_, ?_⟩ hmoves hrows fun hj hm => ⟨i, c, rfl, hadmitted hj hm⟩
  · intro hr
    rw [hop] at hr
    rcases c.run_rows hrun h.loaded hload with heq | ⟨_, _, _, hclosed⟩
    · rw [heq] at hr
      exact hmoves.closed (h.retired hr)
    · exact hclosed
  · intro p hp hsame
    obtain ⟨heq, hphase⟩ := h.same p hp (hsame.trans hop)
    constructor
    · rw [hmoves.row]
      exact heq
    · exact fun hj => hphase (hmoves.joining hj)
  · intro p hp hother
    exact hrows _ (h.other p hp fun hsame => hother (hsame.trans hop.symm))

theorem turns {a : Action} (hm : m.Rowless ∨ ∃ n, m.Tracks n) (h : m.exec now a = some m') :
    m.Turns m' now a := by
  cases a with
  | start operation target endpoint random =>
    simp only [exec, begin, Option.bind_eq_bind, Option.bind_eq_some_iff] at h
    obtain ⟨t, ht, old, hold, db, hdb, node, hnode, n', rfl, h⟩ := h
    have ht := eq_ok_of_toOption ht
    have hold := eq_ok_of_toOption hold
    have hinit := eq_ok_of_toOption hdb
    have hload := eq_ok_of_toOption hnode
    have hroot : ∀ g, t = some g → validateEndpoint g.rootEndpoint = .ok () := by
      intro g hg
      exact readTarget_root (hg ▸ ht)
    by_cases hop : old.map Node.operation = some operation
    · rw [if_pos hop] at h
      cases h
      obtain ⟨o, rfl, ho⟩ := Option.map_eq_some_iff.mp hop
      have hdb := initializeNode_repeat m.db db o operation t endpoint now random hold ho hinit
      subst hdb
      rcases hm with hm | ⟨n, hm⟩
      · cases hold.symm.trans hm.loaded
      · exact hm.stays hm _ rfl
    · rw [if_neg hop] at h
      split at h
      · cases h
        obtain ⟨pair, hnew, _⟩ :=
          initializeNode_begins m.db db old operation t endpoint now random hold hop hroot hinit
        have hop' : n'.operation = operation := by
          cases hload.symm.trans hnew
          rfl
        rcases hm with hm | ⟨n, hm⟩
        · cases hold.symm.trans hm.loaded
          obtain ⟨_, hdb⟩ :=
            initializeNode_first m.db db operation t endpoint now random hm.loaded hinit
          have hnone : ∀ q, q ∉ m.snapshots := by
            intro q hq
            rw [hm.snapshots] at hq
            exact absurd hq List.not_mem_nil
          refine .first n' hm ⟨hload, ?_, fun q hq => absurd hq (hnone q),
            fun q hq => absurd hq (hnone q)⟩
          intro hr
          obtain ⟨r, hr, _⟩ := hr
          rw [hdb] at hr
          change r ∈ m.db.retiredLocal at hr
          rw [hm.rows] at hr
          exact absurd hr List.not_mem_nil
        · cases hold.symm.trans hm.loaded
          exact hm.begins operation t endpoint random db n' _ _ hinit hload hop'
            fun heq => hop (congrArg some heq)
      · cases h
  | read =>
    have hload := loadNode_openDatabase m.db
    have hrows : (openDatabase m.db).retiredLocal = m.db.retiredLocal := by
      unfold openDatabase
      split
      · rfl
      · rfl
    simp only [exec] at h
    rcases hm with hm | ⟨n, hm⟩
    · have hnone : ∀ q, opened (openDatabase m.db) ≠ .ok q := by
        intro q hq
        simp only [opened, hload, hm.loaded, bind_eq_ok, require_eq_ok] at hq
        obtain ⟨_, heq, _, hn, _⟩ := hq
        cases heq
        cases hn
      split at h
      · rename_i q hq
        exact absurd hq (hnone q)
      · cases h
        exact .rowless hm ⟨hload.trans hm.loaded, hrows.trans hm.rows, hm.snapshots⟩
    · split at h
      · rename_i q hq
        cases h
        have heq : q.1 = n := by
          simp only [opened, hload, hm.loaded, bind_eq_ok, require_eq_ok, pure_eq_ok] at hq
          obtain ⟨_, heq, o, ho, _, _, rfl⟩ := hq
          cases heq
          cases ho
          rfl
        have hread : Tracks
            { m with db := openDatabase m.db, snapshots := m.snapshots ++ [q] } n := by
          constructor
          · exact hload.trans hm.loaded
          · intro hr
            exact hm.retired (hrows ▸ hr)
          · intro p hp hop
            rcases List.mem_append.mp hp with hp | hp
            · exact hm.same p hp hop
            · rw [List.mem_singleton.mp hp, heq]
              exact ⟨rfl, id⟩
          · intro p hp hop
            rcases List.mem_append.mp hp with hp | hp
            · exact hrows ▸ hm.other p hp hop
            · rw [List.mem_singleton.mp hp, heq] at hop
              exact absurd rfl hop
        exact hm.stays hread _ hrows
      · cases h
        have hread : Tracks { m with db := openDatabase m.db } n :=
          ⟨hload.trans hm.loaded, fun hr => hm.retired (hrows ▸ hr), hm.same,
            fun q hq hop => hrows ▸ hm.other q hq hop⟩
        exact hm.stays hread _ hrows
  | call i c =>
    simp only [exec, Option.bind_eq_bind, Option.bind_eq_some_iff] at h
    obtain ⟨q, hq, db, hdb, h⟩ := h
    cases h
    have hmem := List.mem_of_getElem? hq
    rcases hm with hm | ⟨n, hm⟩
    · rw [hm.snapshots] at hmem
      exact absurd hmem List.not_mem_nil
    · exact hm.call q hmem i c db (eq_ok_of_toOption hdb)

theorem Turns.tracks {a : Action} (h : m.Turns m' now a) :
    m'.Rowless ∨ ∃ n, m'.Tracks n := by
  cases h with
  | rowless h h' => exact .inl h'
  | first n' h h' | again n n' h h' | moves n n' h h' => exact .inr ⟨n', h'⟩

theorem Reached.tracks (h : m.Reached) : m.Rowless ∨ ∃ n, m.Tracks n := by
  refine Reachable.invariant (fun m : Machine => m.Rowless ∨ ∃ n, m.Tracks n) ?_ ?_ h
  · intro s h0
    subst h0
    exact .inl ⟨rfl, rfl, rfl⟩
  · intro s t hs hstep
    obtain ⟨now, a, ha⟩ := hstep
    exact (turns hs ha).tracks

def Later (m : Machine) : Machine → Prop := Reachable (fun x => x = m) Step

def Retired (m : Machine) (operation : Id) : Prop :=
  Rows.Retired m.db.retiredLocal operation ∨
    ∃ n, loadNode m.db = .ok (some n) ∧ n.operation = operation ∧ n.phase.Closed

theorem Tracks.same_row {n n' : Node} (h : m.Tracks n)
    (h' : loadNode m.db = .ok (some n')) : n' = n :=
  Option.some.inj (Except.ok.inj (h'.symm.trans h.loaded))

theorem Turns.retired {a : Action} (h : m.Turns m' now a) (operation : Id)
    (hr : m.Retired operation) : m'.Retired operation := by
  have hnone : m.Rowless → False := by
    intro hm
    rcases hr with ⟨r, hr, _⟩ | ⟨n, hn, _⟩
    · rw [hm.rows] at hr
      exact absurd hr List.not_mem_nil
    · cases hm.loaded.symm.trans hn
  cases h with
  | rowless h h' | first n' h h' => exact (hnone h).elim
  | again n n' h h' hremoved hop hfresh hold hrows =>
    left
    rcases hr with hr | ⟨o, ho, rfl, _⟩
    · exact hrows operation hr
    · rw [h.same_row ho]
      exact hold
  | moves n n' h h' hmoves hrows hadmitted =>
    rcases hr with hr | ⟨o, ho, rfl, hclosed⟩
    · exact .inl (hrows operation hr)
    · right
      obtain rfl := h.same_row ho
      refine ⟨n', h'.loaded, ?_, hmoves.closed hclosed⟩
      rw [hmoves.row]

theorem Tracks.closed {n n' : Node} (h : m.Tracks n) (operation : Id)
    (hr : m.Retired operation) (hn : loadNode m.db = .ok (some n')) (hop : n'.operation = operation) :
    n'.phase.Closed := by
  obtain rfl := h.same_row hn
  rcases hr with hr | ⟨o, ho, _, hclosed⟩
  · rw [← hop] at hr
    exact h.retired hr
  · cases ho.symm.trans hn
    exact hclosed

structure Keeps (n : Node) (m : Machine) : Prop where
  tracks : ∃ n', m.Tracks n' ∧
    (n'.operation = n.operation → n'.consentExpires = n.consentExpires ∧ n'.admission = n.admission) ∧
    (n'.operation ≠ n.operation → Rows.Retired m.db.retiredLocal n.operation)

theorem Turns.keeps {a : Action} {n : Node} (h : m.Turns m' now a) (hk : Keeps n m) :
    Keeps n m' := by
  obtain ⟨o, ho, hsame, hother⟩ := hk
  cases h with
  | rowless h h' | first n' h h' => cases h.loaded.symm.trans ho.loaded
  | again o' n' h h' hremoved hop hfresh hold hrows =>
    obtain rfl := h.same_row ho.loaded
    refine ⟨n', h', ?_, ?_⟩
    · intro heq
      by_cases hoo : o.operation = n.operation
      · exact absurd (heq.trans hoo.symm) hop
      · exact absurd (heq ▸ hother hoo) hfresh
    · intro _
      by_cases hoo : o.operation = n.operation
      · exact hoo ▸ hold
      · exact hrows _ (hother hoo)
  | moves o' n' h h' hmoves hrows hadmitted =>
    obtain rfl := h.same_row ho.loaded
    have hrow := hmoves.row
    refine ⟨n', h', ?_, ?_⟩
    · rw [hrow]
      exact hsame
    · rw [hrow]
      exact fun hoo => hrows _ (hother hoo)

theorem Later.invariant (P : Machine → Prop) (hm : m.Reached) (hp : P m)
    (hturns : ∀ s t now a, s.Turns t now a → P s → P t) (hl : m.Later m') :
    m'.Reached ∧ P m' := by
  refine Reachable.invariant (fun m' : Machine => m'.Reached ∧ P m') ?_ ?_ hl
  · intro s hs
    subst hs
    exact ⟨hm, hp⟩
  · intro s t hs hstep
    obtain ⟨now, a, ha⟩ := id hstep
    exact ⟨.next s t hs.1 hstep, hturns s t now a (turns hs.1.tracks ha) hs.2⟩

/-- The phases of a row: an active member is listed by its journal with its own key, a retired one
was seen and is no member; a reservation becomes active by an import that admits its own consent in
time, and its deadline never moves; what waits for its removal only ends; and an operation that was
cancelled or retired is never active again. -/
theorem membership_phases [LawfulPlatform] (m : Machine) (h : m.Reached) :
    (∀ n, loadNode m.db = .ok (some n) →
      (∃ s, journalState m.db n.g = .ok s ∧
        (n.phase = .member → s.members.lookup n.admission = some n.key) ∧
        (n.phase = .removed → n.admission ∈ s.seen ∧ n.admission ∉ s.members)) ∧
      (∀ now a m', m.exec now a = some m' → ∃ n', loadNode m'.db = .ok (some n') ∧
        (n.phase = .joining → n'.phase = .member →
          ∃ i c, a = .call i c ∧ Admitted c.inputs n now) ∧
        (n.phase = .removalPending → n' = { n with phase := n'.phase } ∧
          (n'.phase = .removalPending ∨ n'.phase = .removed))) ∧
      ∀ m', m.Later m' → ∀ n', loadNode m'.db = .ok (some n') → n'.operation = n.operation →
        n'.consentExpires = n.consentExpires ∧ n'.admission = n.admission) ∧
    ∀ operation, m.Retired operation → ∀ m', m.Later m' → ∀ n', loadNode m'.db = .ok (some n') →
      n'.operation = operation → n'.phase ≠ .joining ∧ n'.phase ≠ .member := by
  have htracks := h.tracks
  constructor
  · intro n hn
    refine ⟨?_, ?_, ?_⟩
    · rcases h.inv with hp | ⟨n', es, s, hl⟩
      · simp [loadNode, hp.node] at hn
      · cases hn.symm.trans hl.life.loaded
        refine ⟨s, ?_, hl.life.member, hl.life.removed⟩
        unfold journalState
        rw [hl.life.holds.load]
        change liftError _ (replay n.g es) = _
        rw [hl.life.holds.replayed]
        rfl
    · intro now a m' ha
      have hturns := turns htracks ha
      cases hturns with
      | rowless h h' | first n' h h' => cases h.loaded.symm.trans hn
      | again o n' h h' hremoved =>
        obtain rfl := h.same_row hn
        refine ⟨n', h'.loaded, ?_, ?_⟩
        · intro hj
          cases hremoved.symm.trans hj
        · intro hp
          cases hremoved.symm.trans hp
      | moves o n' h h' hmoves hrows hadmitted =>
        obtain rfl := h.same_row hn
        exact ⟨n', h'.loaded, hadmitted, fun hp => ⟨hmoves.row, hmoves.closed (.inl hp)⟩⟩
    · intro m' hl n' hn' hop
      rcases htracks with hr | ⟨o, ho⟩
      · cases hr.loaded.symm.trans hn
      · obtain rfl := ho.same_row hn
        obtain ⟨_, hk⟩ := Later.invariant (Keeps n) h
          ⟨n, ho, fun _ => ⟨rfl, rfl⟩, fun hne => absurd rfl hne⟩
          (fun s t now a ht hk => ht.keeps hk) hl
        obtain ⟨o, ho, hsame, _⟩ := hk
        obtain rfl := ho.same_row hn'
        exact hsame hop
  · intro operation hr m' hl n' hn' hop
    obtain ⟨hreached, hr'⟩ := Later.invariant (fun m => m.Retired operation) h hr
      (fun s t now a ht hr => ht.retired operation hr) hl
    have hclosed : n'.phase.Closed := by
      rcases hreached.tracks with hno | ⟨o, ho⟩
      · cases hno.loaded.symm.trans hn'
      · exact ho.closed operation hr' hn' hop
    rcases hclosed with hp | hp
    · rw [hp]
      simp
    · rw [hp]
      simp

end Machine

end

section
attribute [local instance] residuePlatform residuePlatform_lawful

def cancelledJoin : List Action :=
  [.start (Fixed.fill 32 50) (some (wireGenesis sampleGenesis)) "endpoint"
    ⟨(2 : UInt8), Fixed.fill 32 2, Fixed.fill 32 0⟩, .read,
    .call 0 (.cancelJoin sampleLocal (Fixed.fill 32 50).data)]

theorem Machine.membership_phases_sample : ∃ m : Machine, m.Retired (Fixed.fill 32 50) ∧
    ∀ m', m.Later m' → ∀ n', loadNode m'.db = .ok (some n') → n'.operation = Fixed.fill 32 50 →
      n'.phase ≠ .joining ∧ n'.phase ≠ .member := by
  have hrun : (Machine.initial.run cancelledJoin).any (fun m =>
      m.db.retiredLocal.any fun r => r.operation = Fixed.fill 32 50) = true := by decide +kernel
  obtain ⟨m, hm, hrows⟩ := exists_of_any _ _ hrun
  obtain ⟨r, hr, hop⟩ := List.any_eq_true.mp hrows
  have hreached := Machine.reached_of_run cancelledJoin _ m (.start _ rfl) hm
  have hretired : m.Retired (Fixed.fill 32 50) := .inl ⟨r, hr, of_decide_eq_true hop⟩
  exact ⟨m, hretired, (Machine.membership_phases m hreached).2 _ hretired⟩

end
end Rieul.Cluster
