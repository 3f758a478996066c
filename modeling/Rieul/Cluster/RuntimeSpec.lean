import Rieul.Cluster.Runtime

/-!
# What a call can do

`Ran` lists the outcomes of the second part of a call, with what the call has checked in its
transaction.
-/

namespace Rieul.Cluster
open Bytes Fallible

section
variable [Platform]

@[simp] theorem setPhase_tables (tx : Database) (phase : Phase) :
    (setPhase tx phase).tables = tx.tables := rfl

theorem loadNode_unique {db : Database} {n m : Node} (hn : loadNode db = .ok (some n))
    (hm : loadNode db = .ok (some m)) : m = n :=
  Option.some.inj (Except.ok.inj (hm.symm.trans hn))

theorem currentNode_eq_ok (tx : Database) (n : Node) :
    currentNode tx = .ok n ↔ loadNode tx = .ok (some n) := by
  simp only [currentNode, bind_eq_ok, require_eq_ok]
  constructor
  · rintro ⟨_, h, rfl⟩
    exact h
  · exact fun h => ⟨_, h, rfl⟩

theorem loadNode_setPhase (tx : Database) (n : Node) (phase : Phase)
    (h : loadNode tx = .ok (some n)) :
    loadNode (setPhase tx phase) = .ok (some { n with phase := phase }) := by
  obtain ⟨row, endpoints, hrow, hend, hown, hroot, rfl⟩ := loadNode_eq_some tx n h
  exact loadNode_of (setPhase tx phase) { row with phase := phase } endpoints
    (by simp [setPhase, hrow]) hend hown hroot

structure Inputs where
  history : ClusterHistory → Prop
  transfer : UInt64 → Id → Mutation → Prop

structure Imported (inputs : Inputs) (n : Node) (before : State) (tx : Database)
    (finish activation : Option Id) (now : Int64) (cur : Node) (entries : List Entry) (next : State)
    (tables : Tables) : Prop where
  decoded : ∃ h, inputs.history h ∧ decodedHistory h n.g = .ok entries
  current : loadNode tx = .ok (some cur)
  genesis : cur.g = n.g
  admission : cur.admission = n.admission
  operation : cur.operation = n.operation
  open_snapshot : n.phase = .removalPending ∨ n.phase = .removed → finish = none ∧ activation = none
  open_current : cur.phase = .removalPending ∨ cur.phase = .removed →
    finish = none ∧ activation = none
  finished : ∀ op, finish = some op → n.operation = op ∧ (n.phase = .joining ∨ n.phase = .member) ∧
    next.members.lookup n.admission = some n.key ∧
    (n.phase = .joining → ¬ n.consentExpires ≤ now ∧ verifyAdmission n entries = .ok ())
  unfinished : finish = none → n.phase ≠ .joining
  replayed : replay n.g entries = .ok next
  quiet : activation = none → next.primary = n.admission → before.primary = n.admission
  activated : ∀ op, activation = some op → next.primary = n.admission ∧
    ∃ e ∈ entries, isTransferTo n.admission op e = true
  installed : install tx.tables n.g n.key entries = .ok tables

structure Configured (inputs : Inputs) (n : Node) (tx : Database) (now : Int64) (cur : Node)
    (entries : List Entry) (next : State) (tables : Tables) : Prop where
  decoded : ∃ h, inputs.history h ∧ decodedHistory h n.g = .ok entries
  current : loadNode tx = .ok (some cur)
  genesis : cur.g = n.g
  admission : cur.admission = n.admission
  phase : cur.phase = .joining
  unexpired : ¬ cur.consentExpires ≤ now
  replayed : replay n.g entries = .ok next
  admitted : cur.admission ∈ next.members → verifyAdmission cur entries = .ok ()
  installed : install tx.tables cur.g cur.key entries = .ok tables

structure Left (n : Node) (tx : Database) (cur : Node) (s : State) : Prop where
  current : loadNode tx = .ok (some cur)
  genesis : cur.g = n.g
  admission : cur.admission = n.admission
  member : cur.phase = .member
  journal : journalState tx cur.g = .ok s
  replica : s.primary ≠ cur.admission
  /-- No acceptance for the present head can still be sealed. -/
  free : ∀ p ∈ tx.tables.prepared,
    ¬ (p.epoch = s.epoch ∧ p.prefixSequence = s.sequence ∧ p.prefixHash = s.head.data)

structure Cancelled (n : Node) (tx : Database) (cur : Node) (s : State) : Prop where
  current : loadNode tx = .ok (some cur)
  genesis : cur.g = n.g
  admission : cur.admission = n.admission
  operation : cur.operation = n.operation
  journal : journalState tx cur.g = .ok s
  phase : cur.phase ≠ .member
  replica : s.primary ≠ cur.admission
  free : ∀ p ∈ tx.tables.prepared, ¬ s.epoch ≤ p.epoch

structure Accepted (n : Node) (tx : Database) (operation : Id) (cur : Node) (mutation : Mutation)
    (tables : Tables) : Prop where
  current : loadNode tx = .ok (some cur)
  fresh : tx.tables.prepared.find? (fun p => p.operation = operation.data) = none
  member : cur.phase = .member
  staying : isLeaving tx cur = false
  prepared : prepare tx.tables n.g n.key n.pair operation = .ok (mutation, tables)

inductive Ran (inputs : Inputs) (n : Node) (before : State) (tx : Database) (now : Int64) :
    Database → Prop where
  | committed (epoch : UInt64) (operation : Id) (mutation : Mutation) (e : Entry) (tables : Tables)
      (hmember : n.phase = .member)
      (htransfer : mutation.isTransfer = true → inputs.transfer epoch operation mutation)
      (h : append tx.tables n.g n.key n.pair epoch operation mutation = .ok (e, tables)) :
      Ran inputs n before tx now { tx with tables := tables }
  | left (cur : Node) (s : State) (operation : Id) (h : Left n tx cur s) :
      Ran inputs n before tx now { tx with
        leaving := tx.leaving ++ [⟨operation, cur.g.cluster, cur.admission⟩] }
  | cancelled (cur : Node) (s : State) (h : Cancelled n tx cur s) (rows : List LifeRow) :
      Ran inputs n before tx now (if cur.phase = .joining
        then setPhase { tx with retiredLocal := rows } .removalPending
        else { tx with retiredLocal := rows })
  | imported (finish activation : Option Id) (cur : Node) (entries : List Entry) (next : State)
      (tables : Tables) (h : Imported inputs n before tx finish activation now cur entries next tables) :
      Ran inputs n before tx now
        (setPhase { tx with tables := tables } (importedPhase cur n.key n.admission next))
  | configured (cur : Node) (entries : List Entry) (next : State) (tables : Tables)
      (h : Configured inputs n tx now cur entries next tables) (rows : List LifeRow)
      (scope : Option JoinScope)
      (hscope : scope.map JoinScope.expires = tx.scope.map JoinScope.expires) :
      Ran inputs n before tx now (if cur.admission ∈ next.seen ∧ cur.admission ∉ next.members
        then setPhase { tx with tables := tables, retiredLocal := rows } .removed
        else { tx with tables := tables, scope := scope })
  | accepted (operation : Id) (cur : Node) (mutation : Mutation) (tables : Tables)
      (h : Accepted n tx operation cur mutation tables) :
      Ran inputs n before tx now { tx with tables := tables }
  | unchanged : Ran inputs n before tx now tx

section
variable {inputs : Inputs}

theorem requestLeave_ran {n : Node} {before : State} {tx tx' : Database} {auth : Authorized}
    {now : Int64} {operation : Id} (h : requestLeave n tx auth now operation = .ok tx') :
    Ran inputs n before tx now tx' := by
  simp only [requestLeave, bind_eq_ok, exists_unit_iff, ensure_eq_ok, currentNode_eq_ok] at h
  obtain ⟨cur, hcur, ⟨hg, ha⟩, -, -, h⟩ := h
  split at h
  · simp only [bind_eq_ok, exists_unit_iff, ensure_eq_ok, pure_eq_ok] at h
    rw [← h.2]
    exact .unchanged
  · simp only [requireMember, bind_eq_ok, exists_unit_iff, ensure_eq_ok, pure_eq_ok, not_or,
      List.any_eq_true, decide_eq_true_eq, not_exists, not_and] at h
    obtain ⟨hmember, s, hs, -, -, ⟨hprimary, hfree⟩, rfl⟩ := h
    refine .left cur s operation ⟨hcur, hg, ha, hmember, hs, hprimary, ?_⟩
    rintro p hp ⟨h1, h2, h3⟩
    exact hfree p hp h1 h2 h3

theorem cancelClusterJoin_ran {n : Node} {before : State} {tx tx' : Database} {auth : Authorized}
    {now : Int64} {operation : Str} (h : cancelClusterJoin n tx auth now operation = .ok tx') :
    Ran inputs n before tx now tx' := by
  simp only [cancelClusterJoin, bind_eq_ok, exists_unit_iff, ensure_eq_ok, currentNode_eq_ok,
    pure_eq_ok, not_or, List.any_eq_true, decide_eq_true_eq, not_exists, not_and] at h
  obtain ⟨op, -, -, cur, hcur, ⟨ho, ha, hg⟩, -, s, hs, ⟨hphase, hprimary, hfree⟩, rfl⟩ := h
  exact .cancelled cur s ⟨hcur, hg, ha, ho, hs, hphase, hprimary, hfree⟩ _

theorem checkFinish_some {n : Node} {op : Id} {now : Int64} :
    checkFinish n (some op) now = .ok () ↔ n.operation = op ∧
      (n.phase = .joining ∨ n.phase = .member) ∧ (n.phase = .joining → ¬ n.consentExpires ≤ now) := by
  simp only [checkFinish, bind_eq_ok, exists_unit_iff, ensure_eq_ok, not_or, not_and, ne_eq, not_not]
  tauto

theorem checkFinish_none {n : Node} {now : Int64} :
    checkFinish n none now = .ok () ↔ n.phase ≠ .joining := by
  cases hp : n.phase <;> simp [checkFinish, requireMember, hp, pure, Except.pure]

theorem checkMember_some {n : Node} {entries : List Entry} {next : State} {op : Id} :
    checkMember n entries next (some op) = .ok () ↔ next.members.lookup n.admission = some n.key ∧
      (n.phase = .joining → verifyAdmission n entries = .ok ()) := by
  by_cases hp : n.phase = .joining <;> simp [checkMember, hp]

theorem checkMember_none {n : Node} {entries : List Entry} {next : State} :
    checkMember n entries next none = .ok () := by
  simp [checkMember]

theorem checkActivation_some {n : Node} {before next : State} {entries : List Entry} {op : Id} :
    checkActivation n before next entries (some op) = .ok () ↔ next.primary = n.admission ∧
      ∃ e ∈ entries, isTransferTo n.admission op e = true := by
  simp [checkActivation]

theorem checkActivation_none {n : Node} {before next : State} {entries : List Entry} :
    checkActivation n before next entries none = .ok () ↔
      (next.primary = n.admission → before.primary = n.admission) := by
  simp [checkActivation]

section
variable {n : Node} {before : State} {tx tx' : Database} {h : ClusterHistory}
  {finish activation : Option Id} {external : Option Authorized} {now : Int64}
  (hs : inputs.history h)
  (hi : importHistory n before tx h finish activation external now = .ok tx')
include n before tx tx' h finish activation external now hs hi

theorem importHistory_ok :
    ∃ cur entries next tables, decodedHistory h n.g = .ok entries ∧
      Imported inputs n before tx finish activation now cur entries next tables ∧
      tx' = setPhase { tx with tables := tables } (importedPhase cur n.key n.admission next) := by
  simp only [importHistory, bind_eq_ok, exists_unit_iff, ensure_eq_ok, liftError_eq_ok,
    currentNode_eq_ok, pure_eq_ok] at hi
  obtain ⟨hsnap, hfin, entries, hdec, next, hnext, hmem, hact, cur, hcur, ⟨hg, ha, ho⟩, -, hopen, -,
    tables, hinst, rfl⟩ := hi
  refine ⟨cur, entries, next, tables, hdec, ⟨⟨h, hs, hdec⟩, hcur, hg, ha, ho, ?_, ?_, ?_, ?_, hnext,
    ?_, ?_, hinst⟩, rfl⟩
  · intro hp
    cases finish <;> cases activation <;> simp_all
  · intro hp
    cases finish <;> cases activation <;> simp_all
  · rintro op rfl
    obtain ⟨hop, hphase, hexp⟩ := checkFinish_some.mp hfin
    obtain ⟨hkey, hver⟩ := checkMember_some.mp hmem
    exact ⟨hop, hphase, hkey, fun hp => ⟨hexp hp, hver hp⟩⟩
  · rintro rfl
    exact checkFinish_none.mp hfin
  · rintro rfl
    exact checkActivation_none.mp hact
  · rintro op rfl
    exact checkActivation_some.mp hact

theorem importHistory_ran :
    Ran inputs n before tx now tx' := by
  obtain ⟨cur, entries, next, tables, -, himp, rfl⟩ := importHistory_ok hs hi
  exact .imported finish activation cur entries next tables himp

end

section
variable {n : Node} {before : State} {tx tx' : Database}
include n before tx tx'

theorem applySync_ran {h : ClusterHistory}
    {now : Int64} (hs : inputs.history h) (ha : applySync n before tx h now = .ok tx') :
    Ran inputs n before tx now tx' := by
  simp only [applySync, bind_eq_ok] at ha
  obtain ⟨_, _, _, _, hi⟩ := ha
  exact importHistory_ran hs hi

theorem applyRemovalProof_ran {h : ClusterHistory}
    {now : Int64} (hs : inputs.history h) (hp : applyRemovalProof n before tx h now = .ok tx') :
    Ran inputs n before tx now tx' := by
  simp only [applyRemovalProof, bind_eq_ok, exists_unit_iff] at hp
  obtain ⟨_, _, _, _, _, _, _, _, hi⟩ := hp
  exact importHistory_ran hs hi

theorem configure_ran {auth : Authorized}
    {now : Int64} {operation : Str} {h : ClusterHistory}
    (hs : inputs.history h) (hc : configure n tx auth now operation h = .ok tx') :
    Ran inputs n before tx now tx' := by
  simp only [configure, live, checkBootstrap, bind_eq_ok, exists_unit_iff, ensure_eq_ok,
    liftError_eq_ok, currentNode_eq_ok, not_or, ne_eq, not_not] at hc
  obtain ⟨entries, hdec, next, hnext, cur, hcur, ⟨hg, ha⟩, op, -, -, ⟨hphase, hexp⟩, -, hboot, tables,
    hinst, hres⟩ := hc
  have hconf : Configured inputs n tx now cur entries next tables := by
    refine ⟨⟨h, hs, hdec⟩, hcur, hg, ha, hphase, hexp, hnext, fun hm => ?_, hinst⟩
    rwa [if_pos hm] at hboot
  have hran := fun rows scope hs =>
    @Ran.configured _ inputs n before tx now cur entries next tables hconf rows scope hs
  split at hres
  · next hcond =>
    rw [pure_eq_ok] at hres
    have hr := hran (insertLife tx.retiredLocal ⟨cur.operation, cur.g.cluster, cur.admission⟩)
      tx.scope rfl
    rw [if_pos hcond] at hr
    exact hres ▸ hr
  · next hcond =>
    rw [pure_eq_ok] at hres
    have hr := hran tx.retiredLocal (tx.scope.map fun scope => { scope with syncEnabled := true })
      (by cases tx.scope <;> rfl)
    rw [if_neg hcond] at hr
    exact hres ▸ hr

theorem preparePrimaryTransfer_ran
    {auth : Authorized} {now : Int64} {operation : Str} {expectedHead : ClusterHead}
    {receipt : ClusterTransferAcceptance}
    (h : preparePrimaryTransfer n tx auth now operation expectedHead = .ok (receipt, tx')) :
    Ran inputs n before tx now tx' := by
  simp only [preparePrimaryTransfer, requireMember, bind_eq_ok, exists_unit_iff, ensure_eq_ok,
    currentNode_eq_ok] at h
  obtain ⟨op, -, cur, hcur, hmember, -, hstay, h⟩ := h
  split at h
  · simp only [bind_eq_ok, pure_eq_ok, Prod.mk.injEq] at h
    obtain ⟨-, -, -, rfl⟩ := h
    exact .unchanged
  · next hfind =>
    simp only [bind_eq_ok, exists_unit_iff, ensure_eq_ok, liftError_eq_ok] at h
    obtain ⟨s, -, -, ⟨mutation, tables⟩, hprep, h⟩ := h
    have hacc : Accepted n tx op cur mutation tables := ⟨hcur, hfind, hmember, hstay, hprep⟩
    split at h
    · simp only [pure_eq_ok, Prod.mk.injEq] at h
      rw [← h.2]
      exact .accepted op cur _ tables hacc
    · contradiction

end

end

def Call.commits : Call → Bool
  | .admitMember .. => true
  | .removeMember .. => true
  | .revokeGrant .. => true
  | .adoptClient .. => true
  | .sealTransfer .. => true
  | .getAdoption .. => true
  | _ => false

def Call.history : Call → Option ClusterHistory
  | .configureJoin _ _ history => some history
  | .finishJoin _ _ history => some history
  | .joinTick history => some history
  | .applyHistory _ history => some history
  | .activate _ _ history => some history
  | .synchronize history => some history
  | .removalProof history => some history
  | .workerImport _ _ history => some history
  | _ => none

def Call.acceptance : Call → Option ClusterTransferAcceptance
  | .sealTransfer _ acceptance => some acceptance
  | _ => none

def Call.inputs (c : Call) : Inputs where
  history h := c.history = some h
  transfer epoch operation mutation :=
    ∃ a, c.acceptance = some a ∧ acceptedTransfer a = .ok (epoch, operation, mutation)

omit [Platform] in
theorem adoptionMutation_transfer {intent : ClusterPairingIntent} {m : Mutation}
    (h : adoptionMutation intent = .ok m) : m.isTransfer = false := by
  simp only [adoptionMutation, bind_eq_ok, pure_eq_ok] at h
  obtain ⟨_, _, _, _, _, _, _, _, _, _, _, _, rfl⟩ := h
  rfl

/-- A commit: one `append` for a snapshot that was a member. -/
structure Committed (inputs : Inputs) (n : Node) (tx tx' : Database) : Prop where
  member : n.phase = .member
  appended : ∃ epoch operation mutation e tables,
    (mutation.isTransfer = true → inputs.transfer epoch operation mutation) ∧
    append tx.tables n.g n.key n.pair epoch operation mutation = .ok (e, tables) ∧
    tx' = { tx with tables := tables }

section
variable {inputs : Inputs} {n : Node} {tx tx' : Database} {epoch : UInt64} {operation : Id}
  {mutation : Mutation} {e : Entry} (hm : n.phase = .member)
include inputs n tx tx' epoch operation mutation e hm

theorem committed_of_append
    (htransfer : mutation.isTransfer = true → inputs.transfer epoch operation mutation)
    (h : appendTransaction n tx epoch operation mutation = .ok (e, tx')) :
    Committed inputs n tx tx' := by
  simp only [appendTransaction, bind_eq_ok, liftError_eq_ok, pure_eq_ok] at h
  obtain ⟨⟨e', tables⟩, happ, heq⟩ := h
  cases heq
  exact ⟨hm, epoch, operation, mutation, _, tables, htransfer, happ, rfl⟩

theorem committed_of_other (hmut : mutation.isTransfer = false)
    (h : appendTransaction n tx epoch operation mutation = .ok (e, tx')) :
    Committed inputs n tx tx' := by
  refine committed_of_append hm ?_ h
  rw [hmut]
  intro htrue
  contradiction

end

theorem Call.run_commits {c : Call} {n : Node} {before : State} {tx tx' : Database} {now : Int64}
    (hc : c.commits = true) (h : c.run n before tx now = .ok tx') :
    tx' = tx ∨ Committed c.inputs n tx tx' := by
  cases c with
  | admitMember auth operation epoch consent =>
    simp only [Call.run, map_eq_ok, admitClusterMember, commitAdmission, requireMember, bind_eq_ok,
      exists_unit_iff, ensure_eq_ok] at h
    obtain ⟨⟨e, t⟩, ⟨hm, _, _, _, _, _, _, _, _, _, _, _, _, _, _, _, _, _, _, _, _, _, happ⟩, rfl⟩ := h
    exact Or.inr (committed_of_other hm rfl happ)
  | removeMember auth operation epoch admission =>
    simp only [Call.run, map_eq_ok, removeClusterMember, commitAuthorized, requireMember, bind_eq_ok,
      exists_unit_iff, ensure_eq_ok] at h
    obtain ⟨⟨e, t⟩, ⟨hm, _, _, _, _, _, _, _, happ⟩, rfl⟩ := h
    exact Or.inr (committed_of_other hm rfl happ)
  | revokeGrant auth operation epoch grant =>
    simp only [Call.run, map_eq_ok, revokeClusterClientGrant, commitAuthorized, requireMember,
      bind_eq_ok, exists_unit_iff, ensure_eq_ok] at h
    obtain ⟨⟨e, t⟩, ⟨hm, _, _, _, _, _, _, _, happ⟩, rfl⟩ := h
    exact Or.inr (committed_of_other hm rfl happ)
  | adoptClient auth epoch intent =>
    simp only [Call.run, map_eq_ok, adoptClusterClient, commitAuthorized, requireMember, bind_eq_ok,
      exists_unit_iff, ensure_eq_ok] at h
    obtain ⟨⟨e, t⟩, ⟨hm, _, _, _, _, hmut, _, _, _, _, _, _, _, _, happ⟩, rfl⟩ := h
    exact Or.inr (committed_of_other hm (adoptionMutation_transfer hmut) happ)
  | sealTransfer auth acceptance =>
    simp only [Call.run, map_eq_ok, sealPrimaryTransfer, commitAuthorized, requireMember, bind_eq_ok,
      exists_unit_iff, ensure_eq_ok] at h
    obtain ⟨⟨e, t⟩, ⟨hm, _, _, _, _, ⟨epoch, operation, mutation⟩, hacc, _, happ⟩, rfl⟩ := h
    exact Or.inr (committed_of_append hm (fun _ => ⟨acceptance, rfl, hacc⟩) happ)
  | getAdoption epoch grant intent =>
    simp only [Call.run, Cluster.getAdoption, bind_eq_ok] at h
    obtain ⟨_, _, h⟩ := h
    split at h
    · exact Or.inl (Except.ok.inj h).symm
    split at h
    · exact Or.inl (Except.ok.inj h).symm
    simp only [bind_eq_ok] at h
    obtain ⟨_, _, h⟩ := h
    split at h
    · exact Or.inl (Except.ok.inj h).symm
    split at h
    · next hm =>
      simp only [bind_eq_ok, pure_eq_ok] at h
      obtain ⟨_, hmut, ⟨e, t⟩, happ, rfl⟩ := h
      exact Or.inr (committed_of_other hm.1 (adoptionMutation_transfer hmut) happ)
    · exact Or.inl (Except.ok.inj h).symm
  | _ => cases hc

theorem Call.run_ran {c : Call} {n : Node} {before : State} {tx tx' : Database} {now : Int64}
    (h : c.run n before tx now = .ok tx') : Ran c.inputs n before tx now tx' := by
  cases hc : c.commits with
  | true =>
    rcases c.run_commits hc h with rfl | ⟨hm, epoch, operation, mutation, e, tables, hacc, happ, rfl⟩
    · exact .unchanged
    · exact .committed epoch operation mutation e tables hm hacc happ
  | false =>
    cases c with
    | leave auth operation => exact requestLeave_ran h
    | cancelJoin auth operation => exact cancelClusterJoin_ran h
    | configureJoin auth operation history => exact configure_ran rfl h
    | finishJoin auth operation history | joinTick history | applyHistory auth history
    | activate auth operation history | workerImport finish activation history =>
      exact importHistory_ran rfl h
    | synchronize history => exact applySync_ran rfl h
    | removalProof history => exact applyRemovalProof_ran rfl h
    | prepareTransfer auth operation expectedHead =>
      simp only [Call.run, map_eq_ok] at h
      obtain ⟨⟨receipt, t⟩, hp, rfl⟩ := h
      exact preparePrimaryTransfer_ran hp
    | _ => cases hc

end

end Rieul.Cluster
