import Rieul.Cluster.Handoff
import Rieul.Cluster.Revalidation

/-!
# Leaving and accepting a transfer (daemon/host/src/cluster/primary/runtime.rs)

A member that has asked to leave accepts no transfer, and an acceptance for the
present head forbids to leave. The head moves on only with the journal, and an
acceptance of an earlier head can never be sealed.
-/

namespace Rieul.Cluster
open Bytes Fallible System

def Prepared.Matches (p : Prepared) (s : State) : Prop :=
  p.epoch = s.epoch ∧ p.prefixSequence = s.sequence ∧ p.prefixHash = s.head.data

instance (p : Prepared) (s : State) : Decidable (p.Matches s) := by
  unfold Prepared.Matches
  infer_instance

def Prepared.Seals (p : Prepared) (e : Entry) : Prop :=
  ∃ target key head acceptance, e.mutation = .Transfer target key p.prefixSequence head acceptance ∧
    e.operation.data = p.operation ∧ e.epoch = p.epoch ∧ target.data = p.target ∧
    head.data = p.prefixHash ∧ acceptance.data = p.acceptance

def Tables.active (t : Tables) (s : State) : ℕ := t.prepared.countP fun p => p.Matches s

section
variable [Platform]

/-- What the rows of `prepared` and of `leaving` are to the journal. -/
structure Obliged (db : Database) (n : Node) (es : List Entry) (s : State) : Prop where
  recorded : ∀ p ∈ db.tables.prepared, p.prefixSequence.toNat ≤ es.length ∧
    (p.prefixSequence.toNat = es.length → p.Matches s)
  staying : isLeaving db n = true → ∀ p ∈ db.tables.prepared, p.prefixSequence.toNat < es.length
  active : db.tables.active s ≤ 16
  total : db.tables.prepared.length ≤ maxHistory

theorem Prepared.Matches.sequence_eq {p : Prepared} {g : Genesis} {es : List Entry} {s : State}
    (h : p.Matches s) (hr : replay g es = .ok s) : p.prefixSequence.toNat = es.length := by
  rw [h.2.1]
  exact (replay_counts g es s hr).sequence

theorem Tables.active_eq_zero {t : Tables} {g : Genesis} {es : List Entry} {s : State}
    (hr : replay g es = .ok s) (h : ∀ p ∈ t.prepared, p.prefixSequence.toNat < es.length) :
    t.active s = 0 := by
  refine List.countP_eq_zero.mpr ?_
  intro p hp hmatch
  have hlt := h p hp
  have heq := (of_decide_eq_true hmatch).sequence_eq hr
  omega

theorem Prepared.not_seals {p : Prepared} {g : Genesis} {es more : List Entry} {t : State}
    (hr : replay g (es ++ more) = .ok t) (hp : p.prefixSequence.toNat < es.length) (e : Entry)
    (he : e ∈ more) : ¬ p.Seals e := by
  intro h
  obtain ⟨target, key, head, acceptance, hm, _⟩ := h
  obtain ⟨as, bs, rfl⟩ := List.append_of_mem he
  rw [← List.append_assoc] at hr
  obtain ⟨u, v, hu, hv, _⟩ := replay_at g (es ++ as) bs e t hr
  have hlen := (replay_counts g _ u hu).sequence
  obtain ⟨_, w, hw, _⟩ := (State.apply_eq_ok u v e).mp hv
  rw [List.length_append] at hlen
  cases hw with
  | transfers target' key' acceptance' hm' =>
    have hseq : p.prefixSequence = u.sequence := by
      have heq := hm.symm.trans hm'
      injection heq
    rw [hseq] at hp
    omega
  | admits id key' consent endpoint hm' | removes id hm' | revokes grant hm' =>
    cases hm.symm.trans hm'
  | adopts grant issuer client expires clientProof issuerProof issuerKey hm' =>
    cases hm.symm.trans hm'

theorem Obliged.continues {db db' : Database} {n n' : Node} {es es' : List Entry} {s s' : State}
    (h : Obliged db n es s) (hl : Life db n es s) (hl' : Life db' n' es' s')
    (hc : Continues n n' es es') (hprepared : db'.tables.prepared = db.tables.prepared)
    (hleaving : db'.leaving = db.leaving) : Obliged db' n' es' s' := by
  have hleave : isLeaving db' n' = isLeaving db n := by
    unfold isLeaving
    rw [hleaving, hc.g, hc.admission]
  obtain ⟨more, rfl⟩ := hc.journal
  cases more with
  | nil =>
    have hs : s' = s := by
      have hr := hl'.holds.replayed
      rw [hc.g, List.append_nil] at hr
      exact Except.ok.inj (hr.symm.trans hl.holds.replayed)
    subst hs
    rw [List.append_nil]
    constructor
    · rw [hprepared]
      exact h.recorded
    · rw [hprepared, hleave]
      exact h.staying
    · unfold Tables.active
      rw [hprepared]
      exact h.active
    · rw [hprepared]
      exact h.total
  | cons e more =>
    have hlt : ∀ p ∈ db'.tables.prepared, p.prefixSequence.toNat < (es ++ e :: more).length := by
      intro p hp
      rw [hprepared] at hp
      have hle := (h.recorded p hp).1
      simp only [List.length_append, List.length_cons]
      omega
    constructor
    · intro p hp
      have hp' := hlt p hp
      exact ⟨hp'.le, fun heq => absurd heq hp'.ne⟩
    · exact fun _ => hlt
    · rw [Tables.active_eq_zero hl'.holds.replayed hlt]
      exact Nat.zero_le _
    · rw [hprepared]
      exact h.total

variable [LawfulPlatform]

theorem Obliged.left {db : Database} {n q : Node} {es : List Entry} {s t : State}
    (h : Obliged db n es s) (hl : Life db n es s) {cur : Node} (hleft : Left q db cur t)
    (operation : Id) :
    Obliged { db with leaving := db.leaving ++ [⟨operation, cur.g.cluster, cur.admission⟩] } n es s := by
  refine ⟨h.recorded, ?_, h.active, h.total⟩
  intro _ p hp
  obtain ⟨hle, heq⟩ := h.recorded p hp
  have hcur : cur = n := loadNode_unique hl.loaded hleft.current
  subst hcur
  have ht : t = s := by
    have hj := hleft.journal
    simp only [journalState, bind_eq_ok, liftError_eq_ok, hl.holds.load, Except.ok.injEq,
      exists_eq_left', hl.holds.replayed] at hj
    exact hj.symm
  subst ht
  have hne := hleft.free p hp
  refine lt_of_le_of_ne hle ?_
  intro hlen
  exact hne (heq hlen)

theorem prepare_limits {tx t : Tables} {g : Genesis} {localKey : Id} {pair : Platform.Secret}
    {operation : Id} {m : Mutation} {es : List Entry} {s : State} (hold : tx.Holds g es s)
    (h : prepare tx g localKey pair operation = .ok (m, t))
    (hnone : tx.prepared.find? (fun p => p.operation = operation.data) = none) :
    tx.active s < 16 ∧ tx.prepared.length < maxHistory := by
  simp only [prepare, bind_eq_ok, exists_unit_iff, ensure_eq_ok, hold.load, Except.ok.injEq,
    exists_eq_left', hold.replayed, require_eq_ok, hnone] at h
  obtain ⟨-, -, _, -, -, hlimits, -⟩ := h
  rw [not_or, not_le, not_le] at hlimits
  exact hlimits

theorem Obliged.accepts {db : Database} {n : Node} {es : List Entry} {s : State}
    (h : Obliged db n es s) (hl : Life db n es s) {operation : Id} {mutation : Mutation}
    {tables : Tables} (hstay : isLeaving db n = false)
    (hfresh : db.tables.prepared.find? (fun p => p.operation = operation.data) = none)
    (hp : prepare db.tables n.g n.key n.pair operation = .ok (mutation, tables)) :
    Obliged { db with tables := tables } n es s := by
  obtain ⟨hactive, htotal⟩ := prepare_limits hl.holds hp hfresh
  obtain ⟨-, target, -, -, -, -, ht⟩ := prepare_ok _ _ _ _ _ _ _ es s hl.holds hp
  rcases ht with ⟨-, old, hold, -⟩ | ⟨-, rfl⟩
  · rw [hfresh] at hold
    contradiction
  · constructor
    · intro p hp
      rcases List.mem_append.mp hp with hp | hp
      · exact h.recorded p hp
      · rw [List.mem_singleton.mp hp]
        have hmatch : (preparedRow s n.key n.pair operation target).Matches s := ⟨rfl, rfl, rfl⟩
        exact ⟨(hmatch.sequence_eq hl.holds.replayed).le, fun _ => hmatch⟩
    · intro hleaving
      cases hstay.symm.trans hleaving
    · refine le_trans ?_ (Nat.succ_le_of_lt hactive)
      unfold Tables.active
      rw [List.countP_append]
      exact Nat.add_le_add_left List.countP_le_length _
    · simp only [List.length_append, List.length_singleton]
      omega

theorem Obliged.ran {inputs : Inputs} {db db' : Database} {n n' : Node} {es es' : List Entry}
    {s s' : State} {q : Node × State} {now : Int64} (h : Obliged db n es s) (hl : Life db n es s)
    (hq : Snapshot n es q) (hg : checkIdentity db.tables q.1.g q.1.key = .ok () → q.1.g = n.g)
    (hr : Ran inputs q.1 q.2 db now db') (hl' : Life db' n' es' s') (hc : Continues n n' es es') :
    Obliged db' n' es' s' := by
  cases hr with
  | committed epoch operation mutation e tables hmember htransfer happ =>
    obtain ⟨_, hid, -⟩ := (bind_eq_ok _ _ _).mp happ
    rw [hg hid, hq.key_eq, hq.pair] at happ
    obtain ⟨-, -, hcase⟩ := (append_eq_ok _ _ _ _ _ _ _ _ es s e hl.holds).mp happ
    refine h.continues hl hl' hc ?_ rfl
    rcases hcase with ⟨-, -, rfl⟩ | happended
    · rfl
    · simp only [happended.tables]
      split <;> rfl
  | left cur s' operation hleft =>
    have hlife : Life { db with leaving := db.leaving ++ [⟨operation, cur.g.cluster, cur.admission⟩] }
        n es s := ⟨hl.loaded, hl.identity, hl.holds, hl.targets, hl.waiting, hl.handed, hl.member,
      hl.removed⟩
    obtain ⟨rfl, rfl, rfl⟩ := hlife.unique hl'
    exact h.left hl hleft operation
  | cancelled cur s' hcan rows =>
    refine h.continues hl hl' hc ?_ ?_
    · split <;> rfl
    · split <;> rfl
  | imported finish activation cur entries next tables himp =>
    have hcur := loadNode_unique hl.loaded himp.current
    subst hcur
    have hi := himp.installed
    rw [← himp.genesis] at hi
    obtain ⟨-, -, -, -, -, -, rfl⟩ := (install_eq_ok _ _ _ _ es entries s hl.holds).mp hi
    exact h.continues hl hl' hc rfl rfl
  | configured cur entries next tables hconf rows scope hscope =>
    have hcur := loadNode_unique hl.loaded hconf.current
    subst hcur
    obtain ⟨-, -, -, -, -, -, rfl⟩ :=
      (install_eq_ok _ _ _ _ es entries s hl.holds).mp hconf.installed
    refine h.continues hl hl' hc ?_ ?_
    · split <;> rfl
    · split <;> rfl
  | accepted operation cur mutation tables hacc =>
    have hcur := loadNode_unique hl.loaded hacc.current
    subst hcur
    have hprep := hacc.prepared
    obtain ⟨_, hid, -⟩ := (bind_eq_ok _ _ _).mp hprep
    rw [hg hid, hq.key_eq, hq.pair] at hprep
    obtain ⟨-, target, -, -, -, -, ht⟩ := prepare_ok _ _ _ _ _ _ _ es s hl.holds hprep
    have hlog : tables.log = db.tables.log := by
      rcases ht with ⟨rfl, -⟩ | ⟨-, rfl⟩
      · rfl
      · rfl
    have hcur' : cur = n' := loadNode_unique hl'.loaded hl.loaded
    subst hcur'
    have hholds : tables.Holds cur.g es s := by
      refine ⟨?_, hl.holds.bounded, hl.holds.replayed⟩
      rw [hlog]
      exact hl.holds.rows
    obtain ⟨rfl, rfl⟩ := hholds.unique hl'.holds
    exact h.accepts hl hacc.staying hacc.fresh hprep
  | unchanged => exact h.continues hl hl' hc rfl rfl

def Machine.Obliged (m : Machine) : Prop :=
  m.Pristine ∨ ∃ n es s, m.Living n es s ∧ Cluster.Obliged m.db n es s

omit [LawfulPlatform] in
theorem Obliged.opens {db : Database} {n : Node} {es : List Entry} {s : State}
    (h : Obliged db n es s) (hl : Life db n es s) : Obliged (openDatabase db) n es s := by
  have hprepared : (openDatabase db).tables.prepared = db.tables.prepared := by
    rw [openDatabase_of db n hl.loaded]
    rfl
  have hleave : isLeaving (openDatabase db) n = isLeaving db n := by
    rw [openDatabase_of db n hl.loaded]
    rfl
  constructor
  · rw [hprepared]
    exact h.recorded
  · rw [hprepared, hleave]
    exact h.staying
  · unfold Tables.active
    rw [hprepared]
    exact h.active
  · rw [hprepared]
    exact h.total

omit [LawfulPlatform] in
theorem Obliged.empty {db : Database} {n : Node} {es : List Entry} {s : State}
    (h : db.tables.prepared = []) : Obliged db n es s := by
  constructor
  · simp [h]
  · simp [h]
  · simp [Tables.active, h]
  · simp [h]

theorem Machine.Obliged.step {m m' : Machine} (hm : m.Obliged) (h : m.Step m') : m'.Obliged := by
  obtain ⟨now, a, ha⟩ := h
  rcases hm with hp | ⟨n, es, s, hlive, hob⟩
  · rcases hp.step ⟨now, a, ha⟩ with hp' | ⟨n', es', s', hlive'⟩
    · exact .inl hp'
    · -- the first life begins with the tables of nobody
      refine .inr ⟨n', es', s', hlive', Obliged.empty ?_⟩
      have hnone : loadNode m.db = .ok none := by simp [loadNode, hp.node]
      cases a with
      | start operation target endpoint random =>
        rcases Machine.begun hnone ha with rfl | ⟨t, db, n, pair, -, -, -, rfl, hcase⟩
        · simp [hp.tables, Tables.empty]
        · rcases hcase with ⟨-, -, htables⟩ | ⟨_, hsome, -⟩
          · simp [htables, hp.tables, Tables.empty]
          · contradiction
      | read =>
        have hdb : openDatabase m.db = m.db := by simp [openDatabase, hnone]
        simp only [Machine.exec] at ha
        rw [hdb] at ha
        split at ha
        · cases ha
          simp [hp.tables, Tables.empty]
        · cases ha
          simp [hp.tables, Tables.empty]
      | call i c =>
        simp only [Machine.exec, hp.snapshots, List.getElem?_nil] at ha
        contradiction
  · right
    cases a with
    | start operation target endpoint random =>
      obtain ⟨n', es', s', hlive', -⟩ := hlive.begin ha
      rcases Machine.begun hlive.life.loaded ha with rfl | ⟨t, db, n'', pair, -, -, -, rfl, hcase⟩
      · exact ⟨n, es, s, hlive, hob⟩
      · refine ⟨n', es', s', hlive', Obliged.empty ?_⟩
        rcases hcase with ⟨hnone, -⟩ | ⟨_, -, -, -, htables⟩
        · contradiction
        · simp [htables, Tables.empty]
    | read =>
      simp only [Machine.exec] at ha
      split at ha
      · next q ho =>
        cases ha
        exact ⟨n, es, s, hlive.read ho, hob.opens hlive.life⟩
      · cases ha
        exact ⟨n, es, s, ⟨hlive.life.opens, hlive.latest, hlive.snapshots⟩, hob.opens hlive.life⟩
    | call i c =>
      simp only [Machine.exec, Option.bind_eq_bind, Option.bind_eq_some_iff] at ha
      obtain ⟨⟨snapshot, before⟩, hq, db, hdb, ha⟩ := ha
      cases ha
      have hran := c.run_ran (eq_ok_of_toOption hdb)
      obtain ⟨hlife, hsnap⟩ := hlive.snapshots _ (List.mem_of_getElem? hq)
      have hg := hlive.latest.genesis_eq hlive.life hlife
      obtain ⟨n', es', s', hlife', hcont⟩ := hlive.life.ran hsnap hg hran
      refine ⟨n', es', s', ⟨hlife', hlive.latest.continues hcont, ?_⟩, ?_⟩
      · intro q hq
        exact ⟨(hlive.snapshots q hq).1, (hlive.snapshots q hq).2.continues hcont⟩
      · exact hob.ran hlive.life hsnap hg hran hlife' hcont

theorem Machine.Reached.obliged {m : Machine} (h : m.Reached) : m.Obliged := by
  refine Reachable.invariant Machine.Obliged ?_ ?_ h
  · intro s h0
    rw [h0]
    exact .inl ⟨rfl, rfl, rfl, rfl⟩
  · intro s t hs hstep
    exact hs.step hstep

omit [LawfulPlatform] in
theorem requestLeave_prepared {tx : Database} {n q : Node} {es : List Entry} {s : State}
    (hl : Life tx n es s) (hstay : isLeaving tx n = false) (hes : load tx.tables n.g.cluster = .ok es)
    (hp : ∃ p ∈ tx.tables.prepared, p.Matches s) (auth : Authorized) (now : Int64) (operation : Id)
    (db : Database) : requestLeave q tx auth now operation ≠ .ok db := by
  intro h
  simp only [requestLeave, bind_eq_ok, exists_unit_iff, ensure_eq_ok, currentNode_eq_ok] at h
  obtain ⟨cur, hcur, -, -, -, h⟩ := h
  have heq : cur = n := loadNode_unique hl.loaded hcur
  subst heq
  split at h
  · rename_i old hfind
    have hleaving : isLeaving tx cur = true :=
      List.any_eq_true.mpr ⟨old, List.mem_of_find?_eq_some hfind, by simpa using List.find?_some hfind⟩
    cases hstay.symm.trans hleaving
  · simp only [bind_eq_ok, exists_unit_iff, ensure_eq_ok, journalState, liftError_eq_ok, hes,
      Except.ok.injEq, exists_eq_left', hl.holds.replayed] at h
    obtain ⟨-, -, -, hfree, -⟩ := h
    obtain ⟨p, hp, h1, h2, h3⟩ := hp
    refine hfree (.inr (List.any_eq_true.mpr ⟨p, hp, ?_⟩))
    exact decide_eq_true ⟨h1, h2, h3⟩

/-- In every reachable state: a leaving member holds no acceptance of the present head and none that
a transfer could still be sealed with; a member that holds one cannot begin to leave; and the
acceptances are within their limits. -/
theorem leaving_excludes_prepared (m : Machine) (hm : m.Reached) :
    m.db.tables.prepared.length ≤ 512 ∧ ∀ n es s, loadNode m.db = .ok (some n) →
      load m.db.tables n.g.cluster = .ok es → replay n.g es = .ok s →
      (isLeaving m.db n = true → ∀ p ∈ m.db.tables.prepared, ¬ p.Matches s ∧
        ∀ more t, replay n.g (es ++ more) = .ok t → ∀ e ∈ more, ¬ p.Seals e) ∧
      ((∃ p ∈ m.db.tables.prepared, p.Matches s) → ∀ q auth now operation db,
        requestLeave q m.db auth now operation ≠ .ok db) ∧
      (m.db.tables.prepared.countP fun p => p.Matches s) ≤ 16 := by
  rcases hm.obliged with hp | ⟨n', es', s', hlive, hob⟩
  · refine ⟨by simp [hp.tables, Tables.empty], ?_⟩
    intro n es s hn
    simp [loadNode, hp.node] at hn
  · refine ⟨hob.total, ?_⟩
    intro n es s hn hes hs
    have hl := hlive.life
    obtain rfl : n' = n := loadNode_unique hn hl.loaded
    obtain rfl : es' = es := Except.ok.inj (hl.holds.load.symm.trans hes)
    obtain rfl : s' = s := Except.ok.inj (hl.holds.replayed.symm.trans hs)
    have hexcluded : isLeaving m.db n' = true → ∀ p ∈ m.db.tables.prepared, ¬ p.Matches s' := by
      intro hleaving p hp hmatch
      have hlt := hob.staying hleaving p hp
      have heq := hmatch.sequence_eq hs
      omega
    refine ⟨?_, ?_, hob.active⟩
    · intro hleaving p hp
      refine ⟨hexcluded hleaving p hp, ?_⟩
      intro more t ht e he
      exact p.not_seals ht (hob.staying hleaving p hp) e he
    · intro hprepared q auth now operation db
      refine requestLeave_prepared hl ?_ hes hprepared auth now operation db
      obtain ⟨p, hp, hmatch⟩ := hprepared
      cases hleaving : isLeaving m.db n' with
      | false => rfl
      | true => exact absurd hmatch (hexcluded hleaving p hp)

omit [LawfulPlatform]

def Machine.accepting (m : Machine) : Bool :=
  match loadNode m.db with
  | .ok (some n) => match load m.db.tables n.g.cluster with
    | .ok es => match replay n.g es with
      | .ok s => m.db.tables.prepared.any fun p => p.Matches s
      | .error _ => false
    | .error _ => false
  | _ => false

theorem Machine.accepting_ok (m : Machine) (h : m.accepting = true) : ∃ n es s,
    loadNode m.db = .ok (some n) ∧ load m.db.tables n.g.cluster = .ok es ∧ replay n.g es = .ok s ∧
      ∃ p ∈ m.db.tables.prepared, p.Matches s := by
  unfold Machine.accepting at h
  split at h
  · next n hn =>
    split at h
    · next es hes =>
      split at h
      · next s hs =>
        obtain ⟨p, hp, hmatch⟩ := List.any_eq_true.mp h
        exact ⟨n, es, s, hn, hes, hs, p, hp, of_decide_eq_true hmatch⟩
      · contradiction
    · contradiction
  · contradiction

end

section
attribute [local instance] residuePlatform residuePlatform_lawful

def acceptingRun : List Action :=
  [.start (Fixed.fill 32 50) (some (wireGenesis sampleGenesis)) "endpoint" targetRandomness, .read,
    .call 0 sampleFinish, .read, .call 1 sampleAccept]

theorem leaving_excludes_prepared_sample : ∃ (m : Machine) (n : Node) (es : List Entry) (s : State),
    m.Reached ∧ loadNode m.db = .ok (some n) ∧ load m.db.tables n.g.cluster = .ok es ∧
      replay n.g es = .ok s ∧ (∃ p ∈ m.db.tables.prepared, p.Matches s) ∧
      ∀ q auth now operation db, requestLeave q m.db auth now operation ≠ .ok db := by
  have hrun : (acceptingRun.foldlM (fun (m : Machine) a => m.exec 700 a) Machine.initial).any
      Machine.accepting = true := by decide +kernel
  obtain ⟨m, hm, haccepting⟩ := exists_of_any _ _ hrun
  have hreached : m.Reached := by
    refine run_invariant _ Machine.Reached ?_ acceptingRun (.start _ rfl) hm
    intro m a m' hm ha
    exact .next m m' hm ⟨700, a, ha⟩
  obtain ⟨n, es, s, hn, hes, hs, hprepared⟩ := m.accepting_ok haccepting
  have h := (leaving_excludes_prepared m hreached).2 n es s hn hes hs
  exact ⟨m, n, es, s, hreached, hn, hes, hs, hprepared, h.2.1 hprepared⟩

end

end Rieul.Cluster
