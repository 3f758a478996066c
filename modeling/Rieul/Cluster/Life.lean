import Rieul.Cluster.Membership
import Rieul.Cluster.RuntimeSpec

/-!
# The lives of a node

A life begins with `initializeNode` and ends with the next one.
-/

namespace Rieul.Cluster
open Bytes Fallible

section
variable [Platform]

structure Life (db : Database) (n : Node) (es : List Entry) (s : State) : Prop where
  loaded : loadNode db = .ok (some n)
  identity : ∀ i, db.tables.identity = some i → i.cluster = n.g.cluster.data ∧
    i.localKey = n.key.data
  holds : db.tables.Holds n.g es s
  targets : ∀ p ∈ db.tables.prepared, p.target = n.admission.data
  waiting : n.phase = .joining ∨ n.phase = .removalPending →
    db.tables.prepared = [] ∧ ∀ e ∈ es, e.activates n.key = false
  handed : ∀ e ∈ es, ∀ id sequence head acceptance,
    e.mutation = .Transfer id n.key sequence head acceptance → id = n.admission
  member : n.phase = .member → s.members.lookup n.admission = some n.key
  removed : n.phase = .removed → s.Tombstoned n.admission

structure Snapshot (n : Node) (es : List Entry) (q : Node × State) : Prop where
  pair : q.1.pair = n.pair
  member : q.1.phase = .member → q.2.members.lookup q.1.admission = some q.1.key
  same : q.1.admission = n.admission → (n.phase = .joining → q.1.phase = .joining) ∧
    ∃ es0, es0 <+: es ∧ replay n.g es0 = .ok q.2

structure Continues (n n' : Node) (es es' : List Entry) : Prop where
  g : n'.g = n.g
  pair : n'.pair = n.pair
  admission : n'.admission = n.admission
  joining : n'.phase = .joining → n.phase = .joining
  waiting : n'.phase = .joining ∨ n'.phase = .removalPending →
    n.phase = .joining ∨ n.phase = .removalPending
  journal : es <+: es'

theorem Continues.refl (n : Node) (es : List Entry) : Continues n n es es :=
  ⟨rfl, rfl, rfl, id, id, List.prefix_rfl⟩

theorem Snapshot.continues {n n' : Node} {es es' : List Entry} {q : Node × State}
    (h : Snapshot n es q) (hc : Continues n n' es es') : Snapshot n' es' q := by
  refine ⟨h.pair.trans hc.pair.symm, h.member, fun ha => ?_⟩
  obtain ⟨hphase, es0, hp, hr⟩ := h.same (ha.trans hc.admission)
  refine ⟨fun hj => hphase (hc.joining hj), es0, hp.trans hc.journal, ?_⟩
  rw [hc.g]
  exact hr

theorem Life.begins {target : Option Genesis} {pair : Platform.Secret} {operation : Id}
    {endpoint : String} {now : Int64} {random : Randomness} {db : Database}
    (hloaded : loadNode db = .ok (some (newNode target pair operation endpoint now random)))
    (htables : db.tables = Tables.empty) :
    Life db (newNode target pair operation endpoint now random) []
      (State.genesis (newNode target pair operation endpoint now random).g) := by
  refine ⟨hloaded, ?_, ?_, ?_, ?_, by simp, ?_, ?_⟩
  · simp [htables, Tables.empty]
  · rw [htables]
    exact ⟨rfl, Nat.zero_le _, rfl⟩
  · simp [htables, Tables.empty]
  · simp [htables, Tables.empty]
  · intro hp
    rcases newLife_cases target (Platform.publicKey pair) endpoint random with ⟨g, -, hnew⟩ |
      ⟨-, hnew⟩
    · simp [newNode, hnew] at hp
    · simp only [newNode, hnew, State.genesis, IdMap.lookup_insert, if_true]
      rfl
  · intro hp
    rcases newLife_cases target (Platform.publicKey pair) endpoint random with ⟨g, -, hnew⟩ |
      ⟨-, hnew⟩ <;> simp [newNode, hnew] at hp

theorem Life.opens {db : Database} {n : Node} {es : List Entry} {s : State} (h : Life db n es s) :
    Life (openDatabase db) n es s := by
  refine ⟨(loadNode_openDatabase db).trans h.loaded, ?_, ?_, ?_, ?_, h.handed, h.member, h.removed⟩
  · intro i hi
    rw [openDatabase_of db n h.loaded] at hi
    simp only [createIdentity, Option.some.injEq] at hi
    cases hid : db.tables.identity with
    | none => simp [← hi, hid]
    | some j =>
      rw [hid, Option.getD_some] at hi
      exact hi ▸ h.identity j hid
  · rw [openDatabase_of db n h.loaded]
    exact ⟨h.holds.rows, h.holds.bounded, h.holds.replayed⟩
  · rw [openDatabase_of db n h.loaded]
    exact h.targets
  · rw [openDatabase_of db n h.loaded]
    exact h.waiting

theorem loadNode_scope (tx : Database) (tables : Tables) (scope : Option JoinScope)
    (h : scope.map JoinScope.expires = tx.scope.map JoinScope.expires) :
    loadNode { tx with tables := tables, scope := scope } = loadNode tx := by
  unfold loadNode
  rw [h]

theorem Life.append {db : Database} {n : Node} {es : List Entry} {s : State} (h : Life db n es s)
    {epoch : UInt64} {operation : Id} {mutation : Mutation} {e : Entry} {t : Tables}
    (ha : Appended db.tables n.g n.key n.pair epoch operation mutation es s e t) :
    ∃ u, Life { db with tables := t } n (es ++ [e]) u := by
  have hw := replay_wellFormed n.g es s h.holds.replayed
  obtain ⟨u, hu, hold⟩ := h.holds.of_append ha
  -- the primary has the node's key, so the entry is no transfer to that key
  have hact : e.activates n.key = false := State.not_activates hw ha.primary hu
  have hprepared : t.prepared = db.tables.prepared := by
    rw [ha.tables]
    split <;> rfl
  refine ⟨u, h.loaded, ?_, hold, ?_, ?_, ?_, ?_, ?_⟩
  · intro i hi
    simp only [ha.tables] at hi
    split at hi
    · simp only [setSealed, Option.map_eq_some_iff] at hi
      obtain ⟨j, hj, rfl⟩ := hi
      exact h.identity j hj
    · exact h.identity i hi
  · simp only [hprepared]
    exact h.targets
  · intro hp
    obtain ⟨hnone, hes⟩ := h.waiting hp
    refine ⟨hprepared.trans hnone, ?_⟩
    intro a hmem
    rcases List.mem_append.mp hmem with hmem | hmem
    · exact hes a hmem
    · rw [List.mem_singleton.mp hmem]
      exact hact
  · intro a hmem id sequence head acceptance hm
    rcases List.mem_append.mp hmem with hmem | hmem
    · exact h.handed a hmem id sequence head acceptance hm
    · rw [List.mem_singleton.mp hmem] at hm
      simp [Entry.activates, hm] at hact
  · intro hp
    have hprimary := hw.keys_inj _ _ _ (h.member hp) ha.primary
    rw [hprimary]
    exact State.primary_apply hw ha.primary hu
  · intro hp
    exact (h.removed hp).apply hu

variable [LawfulPlatform]

section
variable {db : Database} {n : Node} {es : List Entry} {s : State}
include db n es s

theorem Life.opened {q : Node × State}
    (h : Life db n es s) (ho : opened db = .ok q) : q = (n, s) := by
  simp only [Cluster.opened, openStore, bind_eq_ok, require_eq_ok, liftError_eq_ok, exists_unit_iff,
    pure_eq_ok] at ho
  obtain ⟨_, hload, n', rfl, s', ⟨-, es', hes, hs⟩, rfl⟩ := ho
  cases hload.symm.trans h.loaded
  have hcreated : (createIdentity db.tables n.g n.key).Holds n.g es s :=
    ⟨h.holds.rows, h.holds.bounded, h.holds.replayed⟩
  cases hes.symm.trans hcreated.load
  cases hs.symm.trans h.holds.replayed
  rfl

theorem Life.opened_eq (h : Life db n es s)
    (hid : checkIdentity db.tables n.g n.key = .ok ()) : Cluster.opened db = .ok (n, s) := by
  have hcreate := createIdentity_of_check _ _ _ hid
  simp only [Cluster.opened, openStore, hcreate, bind_eq_ok, h.loaded, require_eq_ok,
    Except.ok.injEq, exists_eq_left', liftError_eq_ok, exists_unit_iff, hid, h.holds.load,
    h.holds.replayed, pure_eq_ok, Option.some.injEq, true_and]

theorem Life.install (h : Life db n es s)
    {entries : List Entry} {next : State} {t : Tables} {db' : Database} {phase : Phase}
    (hi : install db.tables n.g n.key entries = .ok t) (hr : replay n.g entries = .ok next)
    (hloaded : loadNode db' = .ok (some { n with phase := phase })) (ht : db'.tables = t)
    (hwaiting : phase = .joining ∨ phase = .removalPending →
      n.phase = .joining ∨ n.phase = .removalPending)
    (hmember : phase = .member → next.members.lookup n.admission = some n.key)
    (hremoved : phase = .removed → next.Tombstoned n.admission) :
    es <+: entries ∧ Life db' { n with phase := phase } entries next := by
  obtain ⟨-, hlen, hp, -, -, hrec, rfl⟩ :=
    (install_eq_ok db.tables t n.g n.key es entries s h.holds).mp hi
  obtain ⟨suffix, rfl⟩ := hp
  rw [List.drop_left] at hrec
  refine ⟨List.prefix_append es suffix, hloaded, ?_, ?_, ?_, ?_, ?_, hmember, hremoved⟩
  · intro i hid
    simp only [ht, Tables.installed] at hid
    split at hid
    · simp only [setSealed, Option.map_eq_some_iff] at hid
      obtain ⟨j, hj, rfl⟩ := hid
      exact h.identity j hj
    · exact h.identity i hid
  · rw [ht]
    exact ⟨rfl, hlen, hr⟩
  · rw [ht]
    exact h.targets
  · intro hph
    obtain ⟨hnone, hes⟩ := h.waiting (hwaiting hph)
    rw [ht]
    refine ⟨hnone, ?_⟩
    intro a hmem
    rcases List.mem_append.mp hmem with hmem | hmem
    · exact hes a hmem
    · exact (receipt_nil n.key a).mp (hnone ▸ hrec a hmem)
  · intro a hmem id sequence head acceptance hm
    rcases List.mem_append.mp hmem with hmem | hmem
    · exact h.handed a hmem id sequence head acceptance hm
    · -- the receipt names the target of a prepared row
      have hfind := hrec a hmem id sequence head acceptance hm
      obtain ⟨p, hp, heq⟩ := Option.map_eq_some_iff.mp hfind
      have htarget := h.targets p (List.mem_of_find?_eq_some hp)
      simp only [Prod.mk.injEq] at heq
      exact Fixed.ext' (heq.2.1.symm.trans htarget)

end

omit [LawfulPlatform] in
theorem Snapshot.key_eq {n : Node} {es : List Entry} {q : Node × State} (hq : Snapshot n es q) :
    q.1.key = n.key := by
  rw [Node.key, Node.key, hq.pair]

omit [LawfulPlatform] in
theorem Imported.phase {inputs : Inputs} {db : Database} {n : Node} {es : List Entry}
    {s : State} {q : Node × State} {finish activation : Option Id} {now : Int64} {cur : Node}
    {entries : List Entry} {next : State} {tables : Tables} (h : Life db n es s)
    (hq : Snapshot n es q)
    (hi : Imported inputs q.1 q.2 db finish activation now cur entries next tables)
    (hes : es <+: entries)
    (phase : Phase) (hphase : importedPhase n n.key n.admission next = phase) :
    (phase = .joining → n.phase = .joining) ∧
      (phase = .joining ∨ phase = .removalPending → n.phase = .joining ∨ n.phase = .removalPending) ∧
      (phase = .member → next.members.lookup n.admission = some n.key) ∧
      (phase = .removed → next.Tombstoned n.admission) := by
  have hcur : cur = n := loadNode_unique h.loaded hi.current
  subst hcur
  have hnext : replay cur.g entries = .ok next := hi.genesis ▸ hi.replayed
  obtain ⟨more, rfl⟩ := hes
  by_cases hclosed : cur.phase = .removalPending ∨ cur.phase = .removed
  · rw [importedPhase, if_pos hclosed] at hphase
    split at hphase
    · next htomb =>
      subst hphase
      simp only [reduceCtorEq, false_or, false_imp_iff, true_and]
      exact fun _ => htomb
    · next htomb =>
      subst hphase
      rcases hclosed with hp | hp
      · simp [hp]
      · obtain ⟨s', hs', hmore⟩ := (Replay.replay_append_eq_ok _ _ next es more).mp hnext
        have hss : s' = s := Except.ok.inj (hs'.symm.trans h.holds.replayed)
        subst hss
        exact absurd (tombstoned_replay more s' next _ (h.removed hp) hmore) htomb
  · rw [importedPhase, if_neg hclosed] at hphase
    split at hphase
    · next hlookup =>
      subst hphase
      simp only [reduceCtorEq, or_self, false_imp_iff, true_and, and_true]
      exact fun _ => hlookup
    · next hlookup =>
      subst hphase
      simp only [reduceCtorEq, or_self, false_imp_iff, true_and]
      intro _
      -- a joining node finishes only as a member; a member can only have been removed
      have hmember : cur.phase = .member := by
        cases hp : cur.phase with
        | member => rfl
        | removalPending => exact absurd (Or.inl hp) hclosed
        | removed => exact absurd (Or.inr hp) hclosed
        | joining =>
          have hsnap := (hq.same hi.admission.symm).1 hp
          cases hf : finish with
          | none => exact absurd hsnap (hi.unfinished hf)
          | some op =>
            have hm := (hi.finished op hf).2.2.1
            rw [← hi.admission, hq.key_eq] at hm
            exact absurd hm hlookup
      rcases member_replay cur.g es more s next _ _ h.holds.replayed hnext (h.member hmember) with
        hm | hm
      · exact absurd hm hlookup
      · exact hm

theorem Life.ran {inputs : Inputs} {db db' : Database} {n : Node} {es : List Entry} {s : State}
    {q : Node × State} {now : Int64} (h : Life db n es s) (hq : Snapshot n es q)
    (hg : checkIdentity db.tables q.1.g q.1.key = .ok () → q.1.g = n.g)
    (hr : Ran inputs q.1 q.2 db now db') :
    ∃ n' es' s', Life db' n' es' s' ∧ Continues n n' es es' := by
  cases hr with
  | committed epoch operation mutation e tables hmember htransfer happ =>
    obtain ⟨_, hid, -⟩ := (bind_eq_ok _ _ _).mp happ
    rw [hg hid, hq.key_eq, hq.pair] at happ
    obtain ⟨-, -, hcase⟩ := (append_eq_ok _ _ _ _ _ _ _ _ es s e h.holds).mp happ
    rcases hcase with ⟨-, -, rfl⟩ | happended
    · exact ⟨n, es, s, h, Continues.refl n es⟩
    · obtain ⟨u, hu⟩ := h.append happended
      exact ⟨n, es ++ [e], u, hu, rfl, rfl, rfl, id, id, List.prefix_append es [e]⟩
  | left cur s' operation hleft =>
    exact ⟨n, es, s, ⟨h.loaded, h.identity, h.holds, h.targets, h.waiting, h.handed, h.member,
      h.removed⟩, Continues.refl n es⟩
  | cancelled cur s' hcan rows =>
    have hcur := loadNode_unique h.loaded hcan.current
    subst hcur
    split
    · next hp =>
      have hload : loadNode (setPhase { db with retiredLocal := rows } .removalPending) =
          .ok (some { cur with phase := .removalPending }) := loadNode_setPhase _ _ _ h.loaded
      refine ⟨_, es, s, ⟨hload, h.identity, h.holds, h.targets, fun _ => h.waiting (Or.inl hp),
        h.handed, by simp, by simp⟩, rfl, rfl, rfl, by simp, fun _ => Or.inl hp, List.prefix_rfl⟩
    · exact ⟨cur, es, s, ⟨h.loaded, h.identity, h.holds, h.targets, h.waiting, h.handed, h.member,
        h.removed⟩, Continues.refl cur es⟩
  | imported finish activation cur entries next tables himp =>
    have hcur := loadNode_unique h.loaded himp.current
    subst hcur
    have hi := himp.installed
    rw [← himp.genesis, hq.key_eq] at hi
    have hes := (h.holds.of_install hi).1
    rw [hq.key_eq, ← himp.admission]
    obtain ⟨hj, hw, hm, hrem⟩ := himp.phase h hq hes _ rfl
    have hload : loadNode (setPhase { db with tables := tables }
        (importedPhase cur cur.key cur.admission next)) = .ok (some { cur with
          phase := importedPhase cur cur.key cur.admission next }) := loadNode_setPhase _ _ _ h.loaded
    obtain ⟨-, hlife⟩ := h.install hi (himp.genesis ▸ himp.replayed) hload rfl hw hm hrem
    exact ⟨_, entries, next, hlife, rfl, rfl, rfl, hj, hw, hes⟩
  | configured cur entries next tables hconf rows scope hscope =>
    have hcur := loadNode_unique h.loaded hconf.current
    subst hcur
    have hr : replay cur.g entries = .ok next := hconf.genesis ▸ hconf.replayed
    have hp := hconf.phase
    split
    · next htomb =>
      have hload : loadNode (setPhase { db with tables := tables, retiredLocal := rows } .removed) =
          .ok (some { cur with phase := .removed }) := loadNode_setPhase _ _ _ h.loaded
      obtain ⟨hes, hlife⟩ := h.install hconf.installed hr hload rfl (by simp) (by simp)
        (fun _ => htomb)
      exact ⟨_, entries, next, hlife, rfl, rfl, rfl, by simp, by simp, hes⟩
    · have hload : loadNode { db with tables := tables, scope := scope } =
          .ok (some { cur with phase := cur.phase }) :=
        (loadNode_scope db tables scope hscope).trans h.loaded
      obtain ⟨hes, hlife⟩ := h.install hconf.installed hr hload rfl id (by simp [hp]) (by simp [hp])
      exact ⟨_, entries, next, hlife, rfl, rfl, rfl, id, id, hes⟩
  | accepted operation cur mutation tables hacc =>
    have hcur := loadNode_unique h.loaded hacc.current
    subst hcur
    have hprep := hacc.prepared
    obtain ⟨_, hid, -⟩ := (bind_eq_ok _ _ _).mp hprep
    rw [hg hid, hq.key_eq, hq.pair] at hprep
    obtain ⟨-, target, htarget, -, -, -, ht⟩ := prepare_ok _ _ _ _ _ _ _ es s h.holds hprep
    rcases ht with ⟨rfl, -⟩ | ⟨-, rfl⟩
    · exact ⟨cur, es, s, h, Continues.refl cur es⟩
    · have hw := replay_wellFormed cur.g es s h.holds.replayed
      -- the accepted member is the admission of this life
      have hadm : target = cur.admission := hw.keys_inj _ _ _ htarget (h.member hacc.member)
      refine ⟨cur, es, s, ⟨h.loaded, h.identity, ⟨h.holds.rows, h.holds.bounded, h.holds.replayed⟩,
        ?_, ?_, h.handed, h.member, h.removed⟩, Continues.refl cur es⟩
      · intro p hp
        rcases List.mem_append.mp hp with hp | hp
        · exact h.targets p hp
        · rw [List.mem_singleton.mp hp, ← hadm]
          rfl
      · simp [hacc.member]
  | unchanged => exact ⟨n, es, s, h, Continues.refl n es⟩

end

end Rieul.Cluster
