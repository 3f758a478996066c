import Rieul.Lib.System
import Rieul.Cluster.Life

/-!
# Handlers that overlap on one node

A handler reads its snapshot in one step and writes in a later one.
-/

namespace Rieul.Cluster
open Bytes Fallible System

section
variable [Platform]

/-- One node. `snapshots` are the reads of the handlers that have begun; `lives` records the
clusters and admissions that the node has had. -/
structure Machine where
  db : Database
  snapshots : List (Node × State)
  lives : List (Genesis × Id)

inductive Action where
  | start (operation : Id) (target : Option ClusterGenesis) (endpoint : String) (random : Randomness)
  | read
  | call (i : ℕ) (c : Call)

def Machine.fresh (m : Machine) (target : Option Genesis) (g : Genesis) (admission : Id) : Prop :=
  (∀ l ∈ m.lives, l.2 ≠ admission ∧ l.1.root ≠ admission ∧ (l.1.cluster = g.cluster → l.1 = g)) ∧
    target.map Genesis.root ≠ some admission

instance (m : Machine) (target : Option Genesis) (g : Genesis) (admission : Id) :
    Decidable (m.fresh target g admission) := by
  unfold Machine.fresh
  infer_instance

/-- `initializeNode` on the machine; a repeated request begins no life. -/
def Machine.begin (m : Machine) (now : Int64) (operation : Id) (target : Option ClusterGenesis)
    (endpoint : String) (random : Randomness) : Option Machine := do
  let target ← (readTarget target).toOption
  let old ← (loadNode m.db).toOption
  let db ← (initializeNode m.db operation target endpoint now random).toOption
  let node ← (loadNode db).toOption
  let n ← node
  if old.map Node.operation = some operation then some { m with db := db }
  else if m.fresh target n.g random.admission then
    some { m with db := db, lives := m.lives ++ [(n.g, n.admission)] }
  else none

def Machine.exec (m : Machine) (now : Int64) : Action → Option Machine
  | .start operation target endpoint random => m.begin now operation target endpoint random
  | .read =>
    let db := openDatabase m.db
    match opened db with
    | .ok snapshot => some { m with db := db, snapshots := m.snapshots ++ [snapshot] }
    | .error _ => some { m with db := db }
  | .call i c => do
    let (n, before) ← m.snapshots[i]?
    let db ← (c.run n before m.db now).toOption
    some { m with db := db }

def Machine.initial : Machine := ⟨Database.empty, [], []⟩

def Machine.Step (m m' : Machine) : Prop := ∃ now a, m.exec now a = some m'

def Machine.Reached : Machine → Prop := Reachable (fun m => m = Machine.initial) Machine.Step

def Revalidated (db : Database) : Prop :=
  ∃ n es s, loadNode db = .ok (some n) ∧ n.phase = .member ∧ load db.tables n.g.cluster = .ok es ∧
    replay n.g es = .ok s ∧ s.primary = n.admission

structure Latest (lives : List (Genesis × Id)) (n : Node) : Prop where
  mem : (n.g, n.admission) ∈ lives
  cluster_inj : ∀ l ∈ lives, l.1.cluster = n.g.cluster → l.1 = n.g
  admission_inj : ∀ l ∈ lives, l.2 = n.admission → l.1 = n.g
  root : n.admission = n.g.root → ∀ l ∈ lives, l.1 = n.g → l.2 = n.admission
  joined : n.phase = .joining ∨ n.phase = .removalPending → n.admission ≠ n.g.root

structure Machine.Living (m : Machine) (n : Node) (es : List Entry) (s : State) : Prop where
  life : Life m.db n es s
  latest : Latest m.lives n
  snapshots : ∀ q ∈ m.snapshots, (q.1.g, q.1.admission) ∈ m.lives ∧ Snapshot n es q

structure Machine.Pristine (m : Machine) : Prop where
  node : m.db.node = none
  tables : m.db.tables = Tables.empty
  snapshots : m.snapshots = []
  lives : m.lives = []

def Machine.Inv (m : Machine) : Prop := m.Pristine ∨ ∃ n es s, m.Living n es s

theorem Latest.continues {lives : List (Genesis × Id)} {n n' : Node} {es es' : List Entry}
    (h : Latest lives n) (hc : Continues n n' es es') : Latest lives n' := by
  have hg := hc.g
  have ha := hc.admission
  constructor
  · rw [hg, ha]
    exact h.mem
  · rw [hg]
    exact h.cluster_inj
  · rw [hg, ha]
    exact h.admission_inj
  · rw [hg, ha]
    exact h.root
  · intro hp
    rw [hg, ha]
    exact h.joined (hc.waiting hp)

theorem Latest.genesis_eq {db : Database} {lives : List (Genesis × Id)} {n : Node}
    {es : List Entry} {s : State} {q : Node × State} (h : Life db n es s) (hl : Latest lives n)
    (hq : (q.1.g, q.1.admission) ∈ lives) (hid : checkIdentity db.tables q.1.g q.1.key = .ok ()) :
    q.1.g = n.g := by
  simp only [checkIdentity, bind_eq_ok, require_eq_ok, ensure_eq_ok] at hid
  obtain ⟨i, hi, hcluster, -⟩ := hid
  have hown := (h.identity i hi).1
  exact hl.cluster_inj _ hq (Fixed.ext' (hcluster.symm.trans hown))

theorem Latest.begins {m : Machine} {target : Option Genesis} {pair : Platform.Secret}
    {operation : Id} {endpoint : String} {now : Int64} {random : Randomness} {n : Node}
    (hn : n = newNode target pair operation endpoint now random)
    (hfresh : m.fresh target n.g random.admission) :
    Latest (m.lives ++ [(n.g, n.admission)]) n := by
  have hadm : n.admission = random.admission := by rw [hn]; rfl
  obtain ⟨hlives, htarget⟩ := hfresh
  have hcases : ∀ l ∈ m.lives ++ [(n.g, n.admission)], l ∈ m.lives ∨ l = (n.g, n.admission) := by
    intro l hl
    rcases List.mem_append.mp hl with hl | hl
    · exact Or.inl hl
    · exact Or.inr (List.mem_singleton.mp hl)
  refine ⟨List.mem_append_right _ (List.mem_singleton_self _), ?_, ?_, ?_, ?_⟩
  · intro l hl hcluster
    rcases hcases l hl with hl | rfl
    · exact (hlives l hl).2.2 hcluster
    · rfl
  · intro l hl ha
    rcases hcases l hl with hl | rfl
    · exact absurd (ha.trans hadm) (hlives l hl).1
    · rfl
  · intro hroot l hl hg
    rcases hcases l hl with hl | rfl
    · exact absurd ((congrArg Genesis.root hg).trans (hroot.symm.trans hadm)) (hlives l hl).2.1
    · rfl
  · intro hp hroot
    rcases newLife_cases target (Platform.publicKey pair) endpoint random with ⟨g, htg, hnew⟩ |
      ⟨-, hnew⟩
    · have hg : n.g = g := by rw [hn, newNode, hnew]
      rw [htg, Option.map_some, ← hg, ← hroot, hadm] at htarget
      exact htarget rfl
    · simp [hn, newNode, hnew] at hp

theorem Machine.Living.begins {m : Machine} {pair : Platform.Secret} {target : Option Genesis}
    {operation : Id} {endpoint : String} {now : Int64} {random : Randomness} {db : Database}
    {n : Node} (hn : n = newNode target pair operation endpoint now random)
    (hloaded : loadNode db = .ok (some n)) (htables : db.tables = Tables.empty)
    (hfresh : m.fresh target n.g random.admission)
    (hsnap : ∀ q ∈ m.snapshots, (q.1.g, q.1.admission) ∈ m.lives ∧ q.1.pair = pair ∧
      (q.1.phase = .member → q.2.members.lookup q.1.admission = some q.1.key)) :
    ∃ es s, ({ m with db := db, lives := m.lives ++ [(n.g, n.admission)] } : Machine).Living
      n es s := by
  subst hn
  refine ⟨[], _, Life.begins hloaded htables, Latest.begins rfl hfresh, ?_⟩
  intro q hq
  obtain ⟨hmem, hpair, hmember⟩ := hsnap q hq
  refine ⟨List.mem_append_left _ hmem, hpair, hmember, fun ha => ?_⟩
  exact absurd ha (hfresh.1 _ hmem).1

/-- A repeated request changes nothing, another one begins the life of `n`. -/
theorem Machine.begun {m m' : Machine} {now : Int64} {operation : Id}
    {target : Option ClusterGenesis} {endpoint : String} {random : Randomness} {old : Option Node}
    (hold : loadNode m.db = .ok old)
    (h : m.begin now operation target endpoint random = some m') :
    m' = m ∨ ∃ t db n pair, loadNode db = .ok (some n) ∧
      n = newNode t pair operation endpoint now random ∧ m.fresh t n.g random.admission ∧
      m' = { m with db := db, lives := m.lives ++ [(n.g, n.admission)] } ∧
      ((old = none ∧ pair = random.pair ∧ db.tables = m.db.tables) ∨
        ∃ o, old = some o ∧ o.phase = .removed ∧ pair = o.pair ∧ db.tables = Tables.empty) := by
  simp only [Machine.begin, Option.bind_eq_bind, Option.bind_eq_some_iff] at h
  obtain ⟨t, ht, old', hold', db, hdb, node, hnode, n, hn, h⟩ := h
  have ht := eq_ok_of_toOption ht
  cases (eq_ok_of_toOption hold').symm.trans hold
  have hinit := eq_ok_of_toOption hdb
  have hload := eq_ok_of_toOption hnode
  subst hn
  have hroot : ∀ g, t = some g → validateEndpoint g.rootEndpoint = .ok () := by
    intro g hg
    exact readTarget_root (hg ▸ ht)
  by_cases hop : old.map Node.operation = some operation
  · rw [if_pos hop] at h
    obtain ⟨o, rfl, ho⟩ := Option.map_eq_some_iff.mp hop
    have hdb := initializeNode_repeat m.db db o operation t endpoint now random hold ho hinit
    subst hdb
    cases h
    exact .inl rfl
  · rw [if_neg hop] at h
    split at h
    · next hfresh =>
      cases h
      obtain ⟨pair, hnew, hcase⟩ :=
        initializeNode_begins m.db db old operation t endpoint now random hold hop hroot hinit
      exact .inr ⟨t, db, n, pair, hload, loadNode_unique hnew hload, hfresh, rfl, hcase⟩
    · contradiction

def Machine.Grows (m m' : Machine) (n n' : Node) (es es' : List Entry) : Prop :=
  (Continues n n' es es' ∧ m'.lives = m.lives) ∨
    ((∀ l ∈ m.lives, l.2 ≠ n'.admission) ∧ m'.lives = m.lives ++ [(n'.g, n'.admission)])

theorem Machine.Living.begin {m m' : Machine} {n : Node} {es : List Entry} {s : State}
    {now : Int64} {operation : Id} {target : Option ClusterGenesis} {endpoint : String}
    {random : Randomness} (hlive : m.Living n es s)
    (h : m.begin now operation target endpoint random = some m') :
    ∃ n' es' s', m'.Living n' es' s' ∧ m.Grows m' n n' es es' := by
  rcases Machine.begun hlive.life.loaded h with rfl | ⟨t, db, n', pair, hload, hn, hfresh, rfl, hcase⟩
  · exact ⟨n, es, s, hlive, .inl ⟨Continues.refl n es, rfl⟩⟩
  · rcases hcase with ⟨hnone, -⟩ | ⟨o, hsome, -, hpair, htables⟩
    · contradiction
    · cases hsome
      obtain ⟨es', s', hnew⟩ := Machine.Living.begins hn hload htables hfresh (by
        intro q hq
        obtain ⟨hmem, hs⟩ := hlive.snapshots q hq
        exact ⟨hmem, hs.pair.trans hpair.symm, hs.member⟩)
      refine ⟨n', es', s', hnew, .inr ⟨?_, rfl⟩⟩
      rw [hn]
      exact fun l hl => (hfresh.1 l hl).1

theorem Machine.Pristine.begin {m m' : Machine} {now : Int64} {operation : Id}
    {target : Option ClusterGenesis} {endpoint : String} {random : Randomness} (hp : m.Pristine)
    (h : m.begin now operation target endpoint random = some m') : m'.Inv := by
  have hnone : loadNode m.db = .ok none := by simp [loadNode, hp.node]
  rcases Machine.begun hnone h with rfl | ⟨t, db, n, pair, hload, hn, hfresh, rfl, hcase⟩
  · exact .inl hp
  · rcases hcase with ⟨-, -, htables⟩ | ⟨_, hsome, -⟩
    · exact .inr ⟨n, Machine.Living.begins hn hload (htables.trans hp.tables) hfresh
        (by simp [hp.snapshots])⟩
    · contradiction

variable [LawfulPlatform]

theorem Machine.Living.read {m : Machine} {n : Node} {es : List Entry} {s : State} {q : Node × State}
    (h : m.Living n es s) (ho : opened (openDatabase m.db) = .ok q) :
    ({ m with db := openDatabase m.db, snapshots := m.snapshots ++ [q] } : Machine).Living n es s := by
  refine ⟨h.life.opens, h.latest, ?_⟩
  intro p hp
  rcases List.mem_append.mp hp with hp | hp
  · exact h.snapshots p hp
  · rw [List.mem_singleton.mp hp, h.life.opens.opened ho]
    exact ⟨h.latest.mem, rfl, h.life.member, fun _ => ⟨id, es, List.prefix_rfl,
      h.life.holds.replayed⟩⟩

theorem Machine.Living.step {m m' : Machine} {n : Node} {es : List Entry} {s : State}
    (hlive : m.Living n es s) (h : m.Step m') :
    ∃ n' es' s', m'.Living n' es' s' ∧ m.Grows m' n n' es es' := by
  obtain ⟨now, a, ha⟩ := h
  cases a with
  | start operation target endpoint random => exact hlive.begin ha
  | read =>
    simp only [Machine.exec] at ha
    split at ha
    · next q ho =>
      cases ha
      exact ⟨n, es, s, hlive.read ho, .inl ⟨Continues.refl n es, rfl⟩⟩
    · cases ha
      exact ⟨n, es, s, ⟨hlive.life.opens, hlive.latest, hlive.snapshots⟩,
        .inl ⟨Continues.refl n es, rfl⟩⟩
  | call i c =>
    simp only [Machine.exec, Option.bind_eq_bind, Option.bind_eq_some_iff] at ha
    obtain ⟨⟨snapshot, before⟩, hq, db, hdb, ha⟩ := ha
    cases ha
    have hrun := eq_ok_of_toOption hdb
    obtain ⟨hlife, hsnap⟩ := hlive.snapshots _ (List.mem_of_getElem? hq)
    obtain ⟨n', es', s', hlife', hcont⟩ :=
      hlive.life.ran hsnap (hlive.latest.genesis_eq hlive.life hlife) (c.run_ran hrun)
    refine ⟨n', es', s', ⟨hlife', hlive.latest.continues hcont, ?_⟩, .inl ⟨hcont, rfl⟩⟩
    intro q hq
    exact ⟨(hlive.snapshots q hq).1, (hlive.snapshots q hq).2.continues hcont⟩

omit [LawfulPlatform] in
theorem Machine.Pristine.step {m m' : Machine} (hp : m.Pristine) (h : m.Step m') : m'.Inv := by
  obtain ⟨now, a, ha⟩ := h
  cases a with
  | start operation target endpoint random => exact hp.begin ha
  | read =>
    have hnone : loadNode m.db = .ok none := by simp [loadNode, hp.node]
    have hdb : openDatabase m.db = m.db := by simp [openDatabase, hnone]
    have hopened : opened m.db = .error .invalidState := by simp [opened, hnone, ok_bind, require]; rfl
    simp only [Machine.exec] at ha
    rw [hdb, hopened] at ha
    cases ha
    exact .inl hp
  | call i c =>
    simp only [Machine.exec, hp.snapshots, List.getElem?_nil] at ha
    contradiction

theorem Machine.Inv.step {m m' : Machine} (hm : m.Inv) (h : m.Step m') : m'.Inv := by
  rcases hm with hp | ⟨n, es, s, hlive⟩
  · exact hp.step h
  · obtain ⟨n', es', s', hlive', -⟩ := hlive.step h
    exact .inr ⟨n', es', s', hlive'⟩

theorem Machine.Reached.inv {m : Machine} (h : m.Reached) : m.Inv := by
  refine Reachable.invariant Machine.Inv ?_ ?_ h
  · intro s h0
    rw [h0]
    exact Or.inl ⟨rfl, rfl, rfl, rfl⟩
  · intro s t hs hstep
    exact hs.step hstep

omit [LawfulPlatform] in
theorem Life.primary {db : Database} {n : Node} {es : List Entry} {s : State} (h : Life db n es s)
    (hk : s.members.lookup s.primary = some n.key) :
    ((∀ e ∈ es, e.mutation.isTransfer = false) ∧ s.primary = n.g.root ∧ n.g.rootKey = n.key) ∨
      ((∃ e ∈ es, e.mutation.isTransfer = true) ∧ s.primary = n.admission) := by
  rcases primary_origin n.g es s h.holds.replayed with ⟨hnone, hroot, hkey⟩ |
    ⟨e, he, key, sequence, head, acceptance, hm, hkey⟩
  · refine Or.inl ⟨hnone, hroot, ?_⟩
    rw [hroot, hkey] at hk
    exact Option.some.inj hk
  · have heq : key = n.key := Option.some.inj (hkey.symm.trans hk)
    subst heq
    exact Or.inr ⟨⟨e, he, by rw [hm]; rfl⟩, h.handed e he _ _ _ _ hm⟩

omit [LawfulPlatform] in
theorem Life.active {db : Database} {n : Node} {es : List Entry} {s : State} {lives}
    (h : Life db n es s) (hl : Latest lives n) (hk : s.members.lookup s.primary = some n.key)
    (hp : s.primary = n.admission) : n.phase = .member := by
  have hwaiting : ¬ (n.phase = .joining ∨ n.phase = .removalPending) := by
    intro hw
    rcases h.primary hk with ⟨-, hroot, -⟩ | ⟨⟨e, he, htr⟩, -⟩
    · exact hl.joined hw (hp.symm.trans hroot)
    · rcases primary_origin n.g es s h.holds.replayed with ⟨hnone, -, -⟩ |
        ⟨a, ha, key, sequence, head, acceptance, hm, hkey⟩
      · rw [hnone e he] at htr
        contradiction
      · have heq : key = n.key := Option.some.inj (hkey.symm.trans hk)
        have hno := (h.waiting hw).2 a ha
        simp [Entry.activates, hm, heq] at hno
  cases hph : n.phase with
  | member => rfl
  | joining => exact absurd (Or.inl hph) hwaiting
  | removalPending => exact absurd (Or.inr hph) hwaiting
  | removed =>
    have hmem := (replay_wellFormed n.g es s h.holds.replayed).primary_member
    rw [hp] at hmem
    exact absurd hmem (h.removed hph).2

/-- An entry that a handler appends is appended by an active member that is the primary exactly when
the handler's snapshot is of the present life, or the node's key is not the key of the cluster's
root, or the journal has a transfer. -/
theorem revalidated_iff (m : Machine) (hm : m.Reached) (i : ℕ) (n : Node) (before : State)
    (hq : m.snapshots[i]? = some (n, before)) (c : Call) (hc : c.commits = true) (now : Int64)
    (db : Database) (h : c.run n before m.db now = .ok db) (hlog : db.tables.log ≠ m.db.tables.log) :
    ∃ cur es, loadNode m.db = .ok (some cur) ∧ load m.db.tables cur.g.cluster = .ok es ∧
      (Revalidated m.db ↔ cur.admission = n.admission ∨ n.g.rootKey ≠ n.key ∨
        ∃ e ∈ es, e.mutation.isTransfer = true) := by
  have hmem := List.mem_of_getElem? hq
  have hcommit := c.run_commits hc h
  rw [or_iff_right (fun heq => hlog (by rw [heq]))] at hcommit
  obtain ⟨hmember, epoch, operation, mutation, e, t, -, happ, rfl⟩ := hcommit
  rcases hm.inv with hp | ⟨cur, es, s, hlive⟩
  · rw [hp.snapshots] at hmem
    contradiction
  · have hlife := hlive.life
    obtain ⟨hold, hsnap⟩ := hlive.snapshots _ hmem
    have hid : checkIdentity m.db.tables n.g n.key = .ok () := by
      simp only [append, bind_eq_ok, exists_unit_iff] at happ
      exact happ.1
    have hg : n.g = cur.g := hlive.latest.genesis_eq hlife hold hid
    have hkey : n.key = cur.key := hsnap.key_eq
    have hpair : n.pair = cur.pair := hsnap.pair
    rw [hg, hkey, hpair] at happ
    obtain ⟨-, -, hcase⟩ := (append_eq_ok _ _ _ _ _ _ _ _ es s e hlife.holds).mp happ
    have hk : s.members.lookup s.primary = some cur.key := by
      rcases hcase with ⟨-, -, rfl⟩ | happended
      · exact absurd rfl hlog
      · exact happended.primary
    have hw := replay_wellFormed cur.g es s hlife.holds.replayed
    have hrev : Revalidated m.db ↔ s.primary = cur.admission := by
      constructor
      · rintro ⟨n', es', s', hload, -, hes', hs', hprimary⟩
        cases hload.symm.trans hlife.loaded
        cases hes'.symm.trans hlife.holds.load
        cases hs'.symm.trans hlife.holds.replayed
        exact hprimary
      · intro hprimary
        exact ⟨cur, es, s, hlife.loaded, hlife.active hlive.latest hk hprimary, hlife.holds.load,
          hlife.holds.replayed, hprimary⟩
    refine ⟨cur, es, hlife.loaded, hlife.holds.load, hrev.trans ?_⟩
    rw [hg, hkey]
    rcases hlife.primary hk with ⟨hnone, hroot, hrootKey⟩ | ⟨htransfer, hprimary⟩
    · have hno : ¬ ∃ e ∈ es, e.mutation.isTransfer = true := by
        rintro ⟨a, ha, htr⟩
        rw [hnone a ha] at htr
        contradiction
      simp only [hrootKey, ne_eq, not_true, hno, or_false]
      constructor
      · intro hprimary
        -- the life of the root was the first in this cluster
        exact (hlive.latest.root (hprimary.symm.trans hroot) _ hold hg).symm
      · intro hadm
        -- the snapshot's admission and the root were members with one key
        obtain ⟨-, es0, ⟨more, rfl⟩, hr0⟩ := hsnap.same hadm.symm
        have hm0 := hsnap.member hmember
        rw [hkey] at hm0
        rcases primary_origin cur.g es0 before hr0 with ⟨-, hroot0, hkey0⟩ |
          ⟨a, ha, key, sequence, head, acceptance, hm, -⟩
        · have hw0 := replay_wellFormed cur.g es0 before hr0
          rw [hrootKey] at hkey0
          rw [hroot, hadm]
          exact (hw0.keys_inj _ _ _ hm0 hkey0).symm
        · have htr := hnone a (List.mem_append_left more ha)
          rw [hm] at htr
          contradiction
    · exact ⟨fun _ => Or.inr (Or.inr htransfer), fun _ => hprimary⟩

end

section
attribute [local instance] residuePlatform residuePlatform_lawful

def Machine.run (m : Machine) : List Action → Option Machine
  | [] => some m
  | a :: as => do
    let m' ← m.exec 0 a
    Machine.run m' as

theorem Machine.reached_of_run (as : List Action) :
    ∀ (m m' : Machine), m.Reached → m.run as = some m' → m'.Reached := by
  induction as with
  | nil =>
    intro m m' hm h
    cases h
    exact hm
  | cons a as ih =>
    intro m m' hm h
    simp only [Machine.run, Option.bind_eq_bind, Option.bind_eq_some_iff] at h
    obtain ⟨u, hu, hr⟩ := h
    exact ih u m' (.next m u hm ⟨0, a, hu⟩) hr

def sampleRevoke : Call :=
  .revokeGrant sampleLocal (Fixed.fill 32 70).data 1 (Fixed.fill 32 71).data

def founded : List Action :=
  [.start (Fixed.fill 32 60) none "root" ⟨(1 : UInt8), Fixed.fill 32 1, Fixed.fill 32 9⟩, .read]

def rejoined : List Action := founded ++
  [.call 0 (.admitMember sampleLocal (sampleOperation (sampleState 0)).data 1 (consent sampleTarget)),
    .call 0 (.sealTransfer sampleLocal sampleAcceptance),
    .call 0 (.removalProof (wireHistory sampleGenesis rootRemoved (sampleState 3))),
    .start (Fixed.fill 32 61) (some (wireGenesis sampleGenesis)) "endpoint"
      ⟨(0 : UInt8), Fixed.fill 32 4, Fixed.fill 32 0⟩, .read]

def Machine.commits (m : Machine) : Bool :=
  match m.snapshots[0]? with
  | some (n, before) => match sampleRevoke.run n before m.db 0 with
    | .ok db => db.tables.log ≠ m.db.tables.log
    | .error _ => false
  | none => false

theorem Machine.commits_ok (m : Machine) (h : m.commits = true) : ∃ n before db,
    m.snapshots[0]? = some (n, before) ∧ sampleRevoke.run n before m.db 0 = .ok db ∧
      db.tables.log ≠ m.db.tables.log := by
  unfold Machine.commits at h
  split at h
  · next n before hq =>
    split at h
    · next db hrun => exact ⟨n, before, db, hq, hrun, of_decide_eq_true h⟩
    · contradiction
  · contradiction

theorem revalidated_first : ∃ (m : Machine) (n : Node) (before : State) (db : Database), m.Reached ∧
    m.snapshots[0]? = some (n, before) ∧ sampleRevoke.run n before m.db 0 = .ok db ∧
    ∃ cur es, loadNode m.db = .ok (some cur) ∧ load m.db.tables cur.g.cluster = .ok es ∧
      (Revalidated m.db ↔ cur.admission = n.admission ∨ n.g.rootKey ≠ n.key ∨
        ∃ e ∈ es, e.mutation.isTransfer = true) := by
  have hrun : (Machine.initial.run founded).any Machine.commits = true := by decide +kernel
  obtain ⟨m, hm, hcommits⟩ := exists_of_any _ _ hrun
  obtain ⟨n, before, db, hq, hdb, hlog⟩ := m.commits_ok hcommits
  have hreached := Machine.reached_of_run founded _ m (.start _ rfl) hm
  exact ⟨m, n, before, db, hreached, hq, hdb,
    revalidated_iff m hreached 0 n before hq sampleRevoke rfl 0 db hdb hlog⟩

theorem overtaken_append : ∃ (m : Machine) (n : Node) (before : State) (db : Database), m.Reached ∧
    m.snapshots[0]? = some (n, before) ∧ sampleRevoke.commits = true ∧ sampleRevoke.run n before m.db 0 = .ok db ∧
      db.tables.log ≠ m.db.tables.log ∧ ¬ Revalidated m.db := by
  have hrun : (Machine.initial.run rejoined).any (fun m => m.commits &&
      (loadNode m.db).toOption.any fun o => o.any fun n : Node => n.phase = .joining) = true := by
    decide +kernel
  obtain ⟨m, hm, hcheck⟩ := exists_of_any _ _ hrun
  obtain ⟨hcommits, hphase⟩ := Bool.and_eq_true_iff.mp hcheck
  obtain ⟨n, before, db, hq, hdb, hlog⟩ := m.commits_ok hcommits
  refine ⟨m, n, before, db, Machine.reached_of_run rejoined _ m (.start _ rfl) hm, hq, rfl, hdb,
    hlog, ?_⟩
  rintro ⟨cur, es, s, hload, hmember, -⟩
  simp [hload, Except.toOption, hmember] at hphase

end

end Rieul.Cluster
