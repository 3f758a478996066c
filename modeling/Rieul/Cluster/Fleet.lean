import Rieul.Lib.System
import Rieul.Cluster.Promise

/-!
# Many nodes

Any number of nodes run the procedures on databases of their own, in any order
and with any requests; lives begin and end. The only assumption is that nobody
forges a signature and that drawn ids and keys are new. All journals of a
cluster are prefixes of one chain, and what a node has accepted for the end of
the chain it still keeps.
-/

namespace Rieul.Cluster
open Bytes Fallible System

section
variable [Platform] {ι : Type} [DecidableEq ι]

/-- `issued` records the signatures that nodes have made, `lives` the clusters and admissions that
they have had. -/
structure Fleet (ι : Type) where
  node : ι → Database
  issued : Set (Id × Str × Signature)
  lives : Set (Genesis × Id)

def Fleet.Issued (w : Fleet ι) (key : Id) (body : Str) (sig : Signature) : Prop :=
  Platform.verify key body sig = true → (key, body, sig) ∈ w.issued

structure Fleet.Genuine (w : Fleet ι) (g : Genesis) (inputs : Inputs) : Prop where
  history : ∀ h entries, inputs.history h → decodedHistory h g = .ok entries →
    ∀ e ∈ entries, ∀ key, w.Issued key e.body e.signature
  transfer : ∀ epoch operation id key sequence head acceptance,
    inputs.transfer epoch operation (.Transfer id key sequence head acceptance) →
      w.Issued key (acceptanceBody g.cluster epoch operation id key sequence head) acceptance

def signed (n : Node) (tx tx' : Tables) : Set (Id × Str × Signature) :=
  {x | (∃ es es' e, load tx n.g.cluster = .ok es ∧ load tx' n.g.cluster = .ok es' ∧ e ∈ es' ∧
        e ∉ es ∧ e.signature = Platform.sign n.pair e.body ∧ x = (n.key, e.body, e.signature)) ∨
      ∃ p : Promise, p.row ∈ tx'.prepared ∧ p.row ∉ tx.prepared ∧
        x = (n.key, p.body n.g.cluster n.key, p.acceptance)}

structure Fleet.Fresh (w : Fleet ι) (i : ι) (target : Option Genesis) (g : Genesis)
    (random : Randomness) : Prop where
  lives : ∀ l ∈ w.lives, l.2 ≠ random.admission ∧ l.1.root ≠ random.admission ∧
    (l.1.cluster = g.cluster → l.1 = g)
  target : target.map Genesis.root ≠ some random.admission
  seen : ∀ j n es s, loadNode (w.node j) = .ok (some n) → (w.node j).tables.Holds n.g es s →
    random.admission ∉ s.seen
  key : (w.node i).node = none → ∀ j n, loadNode (w.node j) = .ok (some n) →
    n.key ≠ Platform.publicKey random.pair

inductive Fleet.Step (w : Fleet ι) : Fleet ι → Prop where
  /-- A life begins. -/
  | start (i : ι) (operation : Id) (wire : Option ClusterGenesis) (target : Option Genesis)
      (endpoint : String) (now : Int64) (random : Randomness) (old : Option Node) (db : Database)
      (n : Node) (htarget : readTarget wire = .ok target)
      (hold : loadNode (w.node i) = .ok old) (hop : old.map Node.operation ≠ some operation)
      (hinit : initializeNode (w.node i) operation target endpoint now random = .ok db)
      (hn : loadNode db = .ok (some n)) (hfresh : w.Fresh i target n.g random) :
      Step w ⟨Function.update w.node i db, w.issued, w.lives ∪ {(n.g, n.admission)}⟩
  /-- A request that only opens the database, or whose transaction fails. -/
  | read (i : ι) :
      Step w ⟨Function.update w.node i (openDatabase (w.node i)), w.issued, w.lives⟩
  | call (i : ι) (c : Call) (now : Int64) (n : Node) (before : State) (db : Database)
      (hopen : opened (openDatabase (w.node i)) = .ok (n, before)) (hg : w.Genuine n.g c.inputs)
      (h : c.run n before (openDatabase (w.node i)) now = .ok db) :
      Step w ⟨Function.update w.node i db,
        w.issued ∪ signed n (openDatabase (w.node i)).tables db.tables, w.lives⟩

def Fleet.Initial (w : Fleet ι) : Prop :=
  (∀ i, w.node i = Database.empty) ∧ w.issued = ∅ ∧ w.lives = ∅

def Fleet.Reached : Fleet ι → Prop := Reachable Fleet.Initial Fleet.Step

def Fleet.Longest (w : Fleet ι) (g : Genesis) (history : List Entry) : Prop :=
  (∃ i n, loadNode (w.node i) = .ok (some n) ∧ n.g = g ∧
    load (w.node i).tables g.cluster = .ok history) ∧
  ∀ i n es, loadNode (w.node i) = .ok (some n) → n.g = g →
    load (w.node i).tables g.cluster = .ok es → es.length ≤ history.length

/-- The node of a life among the chains: its log is a prefix, and longer than every journal that
made its admission the primary. -/
structure Fleet.Follows (w : Fleet ι) (chain : Genesis → List Entry) (n : Node) (es : List Entry) :
    Prop where
  life : (n.g, n.admission) ∈ w.lives
  journal : es <+: chain n.g
  past : ∀ p t, p <+: chain n.g → p ≠ chain n.g → replay n.g p = .ok t →
    t.primary = n.admission → p.length < es.length

def Fleet.Kept (w : Fleet ι) (chain : Genesis → List Entry) (g : Genesis) (key : Id) (p : Promise) :
    Prop :=
  ∃ i n s, Life (w.node i) n (chain g) s ∧ n.g = g ∧ n.key = key ∧ Keeps (w.node i) n s p

def Fleet.TakesOver (w : Fleet ι) (chain : Genesis → List Entry) (g : Genesis) (before : List Entry)
    (key : Id) (p : Promise) : Prop :=
  ∃ i n es s, Life (w.node i) n es s ∧ n.g = g ∧ n.admission = p.target ∧ n.key = key ∧
    (es = chain g ∨ es = before ∧ Keeps (w.node i) n s p)

structure Fleet.Inv (w : Fleet ι) (chain : Genesis → List Entry) : Prop where
  nodes : ∀ i, ((w.node i).node = none ∧ (w.node i).tables = Tables.empty) ∨
    ∃ n es s, Life (w.node i) n es s ∧ w.Follows chain n es
  admission_inj : ∀ i j n m, loadNode (w.node i) = .ok (some n) → loadNode (w.node j) = .ok (some m) →
    n.admission = m.admission → i = j
  key_inj : ∀ i j n m, loadNode (w.node i) = .ok (some n) → loadNode (w.node j) = .ok (some m) →
    n.key = m.key → i = j
  clusters : ∀ l ∈ w.lives, ∀ l' ∈ w.lives, l.1.cluster = l'.1.cluster → l.1 = l'.1
  replays : ∀ g, ∃ s, replay g (chain g) = .ok s
  bounded : ∀ g, (chain g).length ≤ maxHistory ∧ size (chain g) ≤ maxSize
  held : ∀ g, chain g ≠ [] → ∃ i n s, Life (w.node i) n (chain g) s ∧ n.g = g ∧
    s.members.lookup n.admission = some n.key
  issued : ∀ k body sig, (k, body, sig) ∈ w.issued →
    (∃ l ∈ w.lives, ∃ e ∈ chain l.1, body = e.body ∧ sig = e.signature) ∨
      ∃ l ∈ w.lives, ∃ p : Promise, body = p.body l.1.cluster k ∧ sig = p.acceptance ∧
        (p.sequence.toNat < (chain l.1).length ∨ w.Kept chain l.1 k p)
  handoff : ∀ g before e id key sequence head acceptance, chain g = before ++ [e] →
    e.mutation = .Transfer id key sequence head acceptance →
      w.TakesOver chain g before key ⟨e.operation, e.epoch, id, acceptance, sequence, head⟩

variable {w : Fleet ι} {chain : Genesis → List Entry}

omit [DecidableEq ι] in
theorem Fleet.Inv.follows [LawfulPlatform] (hw : w.Inv chain) {i : ι} {n : Node} {es : List Entry}
    {s : State} (h : Life (w.node i) n es s) : w.Follows chain n es := by
  rcases hw.nodes i with ⟨hnone, -⟩ | ⟨n', es', s', hl, hf⟩
  · have hload := h.loaded
    simp [loadNode, hnone] at hload
  · obtain ⟨rfl, rfl, -⟩ := h.unique hl
    exact hf

structure Moves (db db' : Database) (n n' : Node) (es es' : List Entry) (s s' : State) : Prop where
  before : Life db n es s
  after : Life db' n' es' s'
  continues : Continues n n' es es'
  keeps : es' = es → ∀ p, Keeps db n s p → Keeps db' n' s' p

theorem Moves.key {db db' : Database} {n n' : Node} {es es' : List Entry} {s s' : State}
    (h : Moves db db' n n' es es' s s') : n'.key = n.key := by
  rw [Node.key, Node.key, h.continues.pair]

theorem Moves.state {db db' : Database} {n n' : Node} {es es' : List Entry} {s s' : State}
    (h : Moves db db' n n' es es' s s') (hes : es' = es) : s' = s := by
  have hr := h.after.holds.replayed
  rw [hes, h.continues.g] at hr
  exact Except.ok.inj (hr.symm.trans h.before.holds.replayed)

variable [LawfulPlatform]

theorem Fleet.Kept.moves {i : ι} {db' : Database} {n n' : Node} {es es' : List Entry} {s s' : State}
    {issued : Set (Id × Str × Signature)} {g : Genesis} {key : Id} {p : Promise}
    (hm : Moves (w.node i) db' n n' es es' s s') (hpre : es' <+: chain n.g)
    (h : w.Kept chain g key p) :
    Fleet.Kept ⟨Function.update w.node i db', issued, w.lives⟩ chain g key p := by
  obtain ⟨j, m, u, hl, rfl, rfl, hk⟩ := h
  by_cases hj : j = i
  · subst hj
    obtain ⟨rfl, rfl, rfl⟩ := hm.before.unique hl
    -- the keeper holds the whole chain, so its journal has not grown
    have hes : es' = chain n.g := hpre.eq_of_length_le hm.continues.journal.length_le
    have hk' := hm.keeps hes p hk
    refine ⟨j, n', s', ?_, hm.continues.g, hm.key, ?_⟩
    · simp only [Function.update_self]
      exact hes ▸ hm.after
    · simp only [Function.update_self]
      exact hk'
  · refine ⟨j, m, u, ?_, rfl, rfl, ?_⟩ <;> simp only [Function.update_of_ne hj]
    · exact hl
    · exact hk

theorem Fleet.TakesOver.moves {i : ι} {db' : Database} {n n' : Node} {es es' : List Entry}
    {s s' : State} {issued : Set (Id × Str × Signature)} {g : Genesis} {before : List Entry}
    {e : Entry} {key : Id} {p : Promise} (hm : Moves (w.node i) db' n n' es es' s s')
    (hpre : es' <+: chain n.g) (hg : chain g = before ++ [e])
    (h : w.TakesOver chain g before key p) :
    Fleet.TakesOver ⟨Function.update w.node i db', issued, w.lives⟩ chain g before key p := by
  obtain ⟨j, m, a, u, hl, rfl, hadm, rfl, hcase⟩ := h
  by_cases hj : j = i
  · subst hj
    obtain ⟨rfl, rfl, rfl⟩ := hm.before.unique hl
    refine ⟨j, n', es', s', ?_, hm.continues.g, hm.continues.admission.trans hadm, hm.key, ?_⟩
    · simp only [Function.update_self]
      exact hm.after
    · rcases hcase with hes | ⟨hes, hk⟩
      · exact Or.inl (hpre.eq_of_length_le (hes ▸ hm.continues.journal.length_le))
      · -- the journal is the chain without its last entry, or has grown to the chain
        by_cases hgrown : es' = es
        · right
          refine ⟨hgrown.trans hes, ?_⟩
          simp only [Function.update_self]
          exact hm.keeps hgrown p hk
        · left
          refine hpre.eq_of_length_le ?_
          have hlt : es.length < es'.length := by
            refine lt_of_le_of_ne hm.continues.journal.length_le fun hlen => hgrown ?_
            exact (hm.continues.journal.eq_of_length hlen).symm
          rw [hg, List.length_append, List.length_singleton, ← hes]
          exact hlt
  · refine ⟨j, m, a, u, ?_, rfl, hadm, rfl, ?_⟩ <;> simp only [Function.update_of_ne hj]
    · exact hl
    · exact hcase

omit [LawfulPlatform] in
theorem loadNode_update {nodes : ι → Database} {i j : ι} {db : Database} {m : Node}
    (h : loadNode (Function.update nodes i db j) = .ok (some m)) :
    (j = i ∧ loadNode db = .ok (some m)) ∨ (j ≠ i ∧ loadNode (nodes j) = .ok (some m)) := by
  by_cases hj : j = i
  · subst hj
    rw [Function.update_self] at h
    exact Or.inl ⟨rfl, h⟩
  · rw [Function.update_of_ne hj] at h
    exact Or.inr ⟨hj, h⟩

theorem Fleet.Inv.moves (hw : w.Inv chain) {i : ι} {db' : Database} {n n' : Node}
    {es es' : List Entry} {s s' : State} {more : Set (Id × Str × Signature)}
    (hm : Moves (w.node i) db' n n' es es' s s') (hpre : es' <+: chain n.g)
    (hmore : ∀ x ∈ more, x ∈ w.issued ∨ ∃ p : Promise,
      x = (n.key, p.body n.g.cluster n.key, p.acceptance) ∧ Keeps db' n' s' p) :
    Fleet.Inv ⟨Function.update w.node i db', w.issued ∪ more, w.lives⟩ chain := by
  have hf := hw.follows hm.before
  have hg := hm.continues.g
  have hrow : ∀ j m, loadNode (Function.update w.node i db' j) = .ok (some m) →
      ∃ m', loadNode (w.node j) = .ok (some m') ∧ m.admission = m'.admission ∧ m.key = m'.key := by
    intro j m hload
    rcases loadNode_update hload with ⟨rfl, hj⟩ | ⟨-, hj⟩
    · cases hj.symm.trans hm.after.loaded
      exact ⟨n, hm.before.loaded, hm.continues.admission, hm.key⟩
    · exact ⟨m, hj, rfl, rfl⟩
  constructor
  case nodes =>
    intro j
    by_cases hj : j = i
    · subst hj
      simp only [Function.update_self]
      refine Or.inr ⟨n', es', s', hm.after, ?_, ?_, ?_⟩
      · rw [hg, hm.continues.admission]
        exact hf.life
      · rw [hg]
        exact hpre
      · rw [hg, hm.continues.admission]
        intro p t hp hne hr ha
        exact (hf.past p t hp hne hr ha).trans_le hm.continues.journal.length_le
    · simp only [Function.update_of_ne hj]
      rcases hw.nodes j with hnone | ⟨m, a, u, hl, hfm⟩
      · exact Or.inl hnone
      · exact Or.inr ⟨m, a, u, hl, hfm.life, hfm.journal, hfm.past⟩
  case admission_inj =>
    intro j k m m' hj hk heq
    obtain ⟨a, ha, ha1, -⟩ := hrow j m hj
    obtain ⟨b, hb, hb1, -⟩ := hrow k m' hk
    exact hw.admission_inj j k a b ha hb (ha1.symm.trans (heq.trans hb1))
  case key_inj =>
    intro j k m m' hj hk heq
    obtain ⟨a, ha, -, ha1⟩ := hrow j m hj
    obtain ⟨b, hb, -, hb1⟩ := hrow k m' hk
    exact hw.key_inj j k a b ha hb (ha1.symm.trans (heq.trans hb1))
  case clusters => exact hw.clusters
  case replays => exact hw.replays
  case bounded => exact hw.bounded
  case held =>
    intro g hne
    obtain ⟨j, m, u, hl, rfl, hmember⟩ := hw.held g hne
    by_cases hj : j = i
    · subst hj
      obtain ⟨rfl, hes, rfl⟩ := hm.before.unique hl
      have hes' : es' = es := by
        have hlen := hm.continues.journal.length_le
        rw [hes] at hlen ⊢
        exact hpre.eq_of_length_le hlen
      refine ⟨j, n', s', ?_, hg, ?_⟩
      · simp only [Function.update_self]
        rw [← hes, ← hes']
        exact hm.after
      · rw [hm.continues.admission, hm.key, hm.state hes']
        exact hmember
    · refine ⟨j, m, u, ?_, rfl, hmember⟩
      simp only [Function.update_of_ne hj]
      exact hl
  case issued =>
    intro k body sig hx
    rcases hx.elim Or.inl fun hx => hmore _ hx with hold | ⟨p, heq, hk⟩
    · rcases hw.issued k body sig hold with h | ⟨l, hl, p, hb, hsig, hcase⟩
      · exact Or.inl h
      · exact Or.inr ⟨l, hl, p, hb, hsig, hcase.imp_right fun hkept => hkept.moves hm hpre⟩
    · obtain ⟨rfl, rfl, rfl⟩ := heq
      refine Or.inr ⟨_, hf.life, p, rfl, rfl, ?_⟩
      by_cases hes : es' = chain n.g
      · right
        refine ⟨i, n', s', ?_, hg, hm.key, ?_⟩ <;> simp only [Function.update_self]
        · exact hes ▸ hm.after
        · exact hk
      · -- the promise is for a head that the chain has passed
        left
        have hseq := (replay_counts _ _ _ hm.after.holds.replayed).sequence
        rw [← hk.sequence, hseq]
        exact lt_of_le_of_ne hpre.length_le fun hlen => hes (hpre.eq_of_length hlen)
  case handoff =>
    intro g before e id key sequence head acceptance hc he
    exact (hw.handoff g before e id key sequence head acceptance hc he).moves hm hpre hc

omit [DecidableEq ι] [LawfulPlatform] in
theorem Fleet.Inv.promised (hw : w.Inv chain) {g : Genesis} {a : Id} (hlife : (g, a) ∈ w.lives)
    {s u : State} (hs : replay g (chain g) = .ok s) {e : Entry} (hu : s.apply e = .ok u) {id key : Id}
    {sequence : UInt64} {head : Id} {acceptance : Signature}
    (he : e.mutation = .Transfer id key sequence head acceptance)
    (hissued : w.Issued key (acceptanceBody g.cluster e.epoch e.operation id key sequence head)
      acceptance) :
    w.Kept chain g key ⟨e.operation, e.epoch, id, acceptance, sequence, head⟩ := by
  obtain ⟨hacc, v, hv, -⟩ := (State.apply_eq_ok s u e).mp hu
  have heff := hv
  cases heff with
  | transfers id' key' acceptance' hm hprimary hmember hepoch hverified =>
    cases hm.symm.trans he
    rw [← replay_cluster g _ s hs, hacc.epoch] at hissued
    rcases hw.issued _ _ _ (hissued hverified) with ⟨l, -, b, hb, hbody, -⟩ |
      ⟨l, hl, p, hbody, hsig, hcase⟩
    · exact absurd hbody.symm (b.body_ne_acceptanceBody _ _ _ _ _ _ _)
    · obtain ⟨hcluster, hep, hop, htarget, -, hseq, hhead⟩ := acceptanceBody_inj hbody
      have hg : l.1 = g := by
        refine hw.clusters l hl (g, a) hlife ?_
        rw [← hcluster, replay_cluster g _ s hs]
      obtain ⟨operation, epoch, target, signature, sequence, hd⟩ := p
      simp only at hep hop htarget hseq hhead hsig
      subst hg hop htarget hseq hhead hsig
      rw [hacc.epoch, hep]
      rcases hcase with hlt | hkept
      · rw [(replay_counts _ _ s hs).sequence] at hlt
        exact absurd hlt (lt_irrefl _)
      · exact hkept
  | admits id' key' consent endpoint hm | removes id' hm
  | adopts grant issuer client expires clientProof issuerProof issuerKey hm | revokes grant hm =>
    simp [hm] at he

omit [DecidableEq ι] in
theorem Fleet.Inv.whole (hw : w.Inv chain) {i : ι} {n : Node} {es : List Entry} {s : State}
    (hl : Life (w.node i) n es s) (hp : s.primary = n.admission) : es = chain n.g := by
  have hf := hw.follows hl
  by_contra hne
  exact lt_irrefl _ (hf.past es s hf.journal hne hl.holds.replayed hp)

omit [LawfulPlatform] in
theorem prefix_update {n : Node} {es : List Entry} (hes : es = chain n.g) (e : Entry) (g : Genesis) :
    chain g <+: Function.update chain n.g (es ++ [e]) g := by
  by_cases hg : g = n.g
  · rw [hg, Function.update_self, ← hes]
    exact List.prefix_append es [e]
  · rw [Function.update_of_ne hg]

omit [DecidableEq ι] [LawfulPlatform] in
theorem Fleet.Kept.sequence {g : Genesis} {key : Id} {p : Promise} (h : w.Kept chain g key p) :
    p.sequence.toNat = (chain g).length := by
  obtain ⟨j, m, v, hm, rfl, -, hk⟩ := h
  rw [← hk.sequence, (replay_counts _ _ v hm.holds.replayed).sequence]

section
variable {i : ι} {n : Node} {es : List Entry} {s : State} (hl : Life (w.node i) n es s)
include hl

omit [DecidableEq ι] in
theorem Fleet.Follows.append (hw : w.Inv chain) (hprimary : s.primary = n.admission) {j : ι}
    {m : Node} {a : List Entry} {v : State} (hm : Life (w.node j) m a v) (hj : j ≠ i)
    (hf : w.Follows chain m a) (e : Entry) {w' : Fleet ι} (hlives : w'.lives = w.lives) :
    w'.Follows (Function.update chain n.g (es ++ [e])) m a := by
  have hes := hw.whole hl hprimary
  refine ⟨hlives ▸ hf.life, hf.journal.trans (prefix_update hes e m.g), ?_⟩
  by_cases hg : m.g = n.g
  · rw [hg, Function.update_self]
    intro p v' hp hne hv hadm
    rcases List.prefix_concat_iff.mp hp with heq | hp
    · exact absurd heq hne
    · by_cases hpe : p = es
      · -- the primary of the old chain is the node that appends
        subst hpe
        cases hv.symm.trans hl.holds.replayed
        exact absurd (hw.admission_inj j i m n hm.loaded hl.loaded (hadm.symm.trans hprimary)) hj
      · rw [← hg] at hv
        refine hf.past p v' ?_ ?_ hv hadm
        · rw [hg, ← hes]
          exact hp
        · rw [hg, ← hes]
          exact hpe
  · rw [Function.update_of_ne hg]
    exact hf.past

variable {g : Genesis} (hg : g ≠ n.g) {db : Database} {entries : List Entry}
  {issued : Set (Id × Str × Signature)} {key : Id} {p : Promise}
include hg

omit [DecidableEq ι] in
theorem Life.elsewhere {j : ι} {m : Node} {a : List Entry} {v : State}
    (hm : Life (w.node j) m a v) (hmg : m.g = g) : j ≠ i := by
  rintro rfl
  exact hg (hmg.symm.trans (congrArg Node.g (hm.unique hl).1))

/-- Nodes of another cluster are as before. -/
theorem Fleet.Kept.elsewhere (h : w.Kept chain g key p) :
    Fleet.Kept ⟨Function.update w.node i db, issued, w.lives⟩ (Function.update chain n.g entries) g
      key p := by
  obtain ⟨j, m, v, hm, hmg, hkey, hk⟩ := h
  have hj := hl.elsewhere hg hm hmg
  refine ⟨j, m, v, ?_, hmg, hkey, ?_⟩ <;> simp only [Function.update_of_ne hj]
  · rw [Function.update_of_ne hg]
    exact hm
  · exact hk

theorem Fleet.TakesOver.elsewhere {before : List Entry} (h : w.TakesOver chain g before key p) :
    Fleet.TakesOver ⟨Function.update w.node i db, issued, w.lives⟩
      (Function.update chain n.g entries) g before key p := by
  obtain ⟨j, m, a, v, hm, hmg, hadm, hkey, hcase⟩ := h
  have hj := hl.elsewhere hg hm hmg
  refine ⟨j, m, a, v, ?_, hmg, hadm, hkey, ?_⟩ <;> simp only [Function.update_of_ne hj]
  · exact hm
  · rw [Function.update_of_ne hg]
    exact hcase

end

theorem Fleet.Inv.append (hw : w.Inv chain) {i : ι} {n : Node} {es : List Entry} {s : State}
    (hl : Life (w.node i) n es s) (hmember : n.phase = .member) {epoch : UInt64} {operation : Id}
    {mutation : Mutation} {e : Entry} {t : Tables}
    (ha : Appended (w.node i).tables n.g n.key n.pair epoch operation mutation es s e t)
    (hissued : ∀ id key sequence head acceptance,
      e.mutation = .Transfer id key sequence head acceptance →
        w.Issued key (acceptanceBody n.g.cluster e.epoch e.operation id key sequence head) acceptance)
    {more : Set (Id × Str × Signature)} (hmore : ∀ x ∈ more, x = (n.key, e.body, e.signature)) :
    Fleet.Inv ⟨Function.update w.node i { w.node i with tables := t }, w.issued ∪ more, w.lives⟩
      (Function.update chain n.g (es ++ [e])) ∧
      ∀ g, chain g <+: Function.update chain n.g (es ++ [e]) g := by
  have hwf := replay_wellFormed n.g es s hl.holds.replayed
  have hf := hw.follows hl
  have hprimary : s.primary = n.admission := hwf.keys_inj _ _ _ ha.primary (hl.member hmember)
  have hes : es = chain n.g := hw.whole hl hprimary
  obtain ⟨u, hl'⟩ := hl.append ha
  obtain ⟨u', hu, hr⟩ := hl.holds.of_append ha
  obtain ⟨-, rfl⟩ := hl'.holds.unique hr
  have hrow : ∀ j m, loadNode (Function.update w.node i { w.node i with tables := t } j) =
      .ok (some m) → loadNode (w.node j) = .ok (some m) := by
    intro j m hload
    rcases loadNode_update hload with ⟨rfl, hj⟩ | ⟨-, hj⟩
    · exact hj
    · exact hj
  refine ⟨?_, prefix_update hes e⟩
  constructor
  case nodes =>
    intro j
    by_cases hj : j = i
    · subst hj
      simp only [Function.update_self]
      refine Or.inr ⟨n, es ++ [e], u, hl', hf.life, ?_, ?_⟩
      · simp only [Function.update_self]
        exact List.prefix_rfl
      · simp only [Function.update_self]
        intro p v hp hne hv hadm
        exact lt_of_le_of_ne hp.length_le fun hlen => hne (hp.eq_of_length hlen)
    · simp only [Function.update_of_ne hj]
      rcases hw.nodes j with hnone | ⟨m, a, v, hm, hfm⟩
      · exact Or.inl hnone
      · exact Or.inr ⟨m, a, v, hm, hfm.append hl hw hprimary hm hj e rfl⟩
  case admission_inj =>
    intro j k m m' hj hk
    exact hw.admission_inj j k m m' (hrow j m hj) (hrow k m' hk)
  case key_inj =>
    intro j k m m' hj hk
    exact hw.key_inj j k m m' (hrow j m hj) (hrow k m' hk)
  case clusters => exact hw.clusters
  case replays =>
    intro g
    by_cases hg : g = n.g
    · subst hg
      rw [Function.update_self]
      exact ⟨u, hr.replayed⟩
    · rw [Function.update_of_ne hg]
      exact hw.replays g
  case bounded =>
    intro g
    by_cases hg : g = n.g
    · subst hg
      rw [Function.update_self]
      exact ⟨hr.bounded, ha.size_le⟩
    · rw [Function.update_of_ne hg]
      exact hw.bounded g
  case held =>
    intro g hne
    by_cases hg : g = n.g
    · subst hg
      refine ⟨i, n, u, ?_, rfl, ?_⟩
      · simp only [Function.update_self]
        exact hl'
      · rw [← hprimary]
        exact State.primary_apply hwf ha.primary hu
    · rw [Function.update_of_ne hg] at hne ⊢
      obtain ⟨j, m, v, hm, hmg, hlookup⟩ := hw.held g hne
      refine ⟨j, m, v, ?_, hmg, hlookup⟩
      simp only [Function.update_of_ne (hl.elsewhere hg hm hmg)]
      exact hm
  case issued =>
    intro k body sig hx
    rcases hx with hx | hx
    · rcases hw.issued k body sig hx with ⟨l, hl1, b, hb, hbody⟩ | ⟨l, hl1, p, hbody, hsig, hcase⟩
      · exact Or.inl ⟨l, hl1, b, (prefix_update hes e l.1).subset hb, hbody⟩
      · refine Or.inr ⟨l, hl1, p, hbody, hsig, ?_⟩
        by_cases hg : l.1 = n.g
        · left
          have hle : p.sequence.toNat ≤ (chain l.1).length := hcase.elim le_of_lt fun h => h.sequence.le
          rw [hg, ← hes] at hle
          rw [hg, Function.update_self, List.length_append, List.length_singleton]
          omega
        · rw [Function.update_of_ne hg]
          exact hcase.imp_right fun h => h.elsewhere hl hg
    · cases hmore _ hx
      refine Or.inl ⟨_, hf.life, e, ?_, rfl, rfl⟩
      rw [Function.update_self]
      exact List.mem_append_right _ (List.mem_singleton_self e)
  case handoff =>
    intro g before b id key sequence head acceptance hc hb
    by_cases hg : g = n.g
    · subst hg
      rw [Function.update_self] at hc
      obtain ⟨rfl, hbe⟩ := List.append_inj' hc rfl
      cases hbe
      have hs : replay n.g (chain n.g) = .ok s := hes ▸ hl.holds.replayed
      obtain ⟨j, m, v, hm, hmg, hkey, hk⟩ :=
        hw.promised hf.life hs hu hb (hissued id key sequence head acceptance hb)
      have hj : j ≠ i := by
        rintro rfl
        obtain ⟨rfl, -, rfl⟩ := hm.unique hl
        exact hk.replica hprimary
      refine ⟨j, m, chain n.g, v, ?_, hmg, hk.admission, hkey, Or.inr ⟨hes.symm, ?_⟩⟩
      · simp only [Function.update_of_ne hj]
        exact hm
      · simp only [Function.update_of_ne hj]
        exact hk
    · rw [Function.update_of_ne hg] at hc
      exact (hw.handoff g before b id key sequence head acceptance hc hb).elsewhere hl hg

omit [DecidableEq ι] [LawfulPlatform] in
theorem removed_is_free {db : Database} {m : Node} {es : List Entry} {s : State}
    (hl : Life db m es s) (hp : m.phase = .removed) :
    m.admission ∉ s.members ∧ s.primary ≠ m.admission ∧ ∀ p, ¬ Keeps db m s p := by
  obtain ⟨-, hmember⟩ := hl.removed hp
  refine ⟨hmember, ?_, ?_⟩
  · intro heq
    exact hmember (heq ▸ (replay_wellFormed _ _ _ hl.holds.replayed).primary_member)
  · intro p hk
    have hm := hk.member
    rw [hp] at hm
    contradiction

omit [DecidableEq ι] [LawfulPlatform] in
theorem Fleet.Inv.never_primary (hw : w.Inv chain) {g : Genesis} {a : Id}
    (hseen : ∀ j n es s, loadNode (w.node j) = .ok (some n) → (w.node j).tables.Holds n.g es s →
      a ∉ s.seen) {p : List Entry} {t : State} (hp : p <+: chain g) (hne : p ≠ chain g)
    (ht : replay g p = .ok t) : t.primary ≠ a := by
  rintro rfl
  have hchain : chain g ≠ [] := by
    intro hnil
    rw [hnil, List.prefix_nil] at hp
    exact hne (hp.trans hnil.symm)
  obtain ⟨j, m, u, hm, rfl, -⟩ := hw.held g hchain
  have hwf := replay_wellFormed _ p t ht
  have hmem := hwf.members_seen _ hwf.primary_member
  exact hseen j m _ u hm.loaded hm.holds
    (seen_replay _ p _ t u hp ht hm.holds.replayed hmem)

omit [LawfulPlatform] in
theorem Fleet.Inv.start (hw : w.Inv chain) {i : ι} {target : Option Genesis} {random : Randomness}
    {n : Node} {db : Database} {s : State} (hl : Life db n [] s)
    (hadm : n.admission = random.admission) (hfresh : w.Fresh i target n.g random)
    (hkey : ∀ j m, j ≠ i → loadNode (w.node j) = .ok (some m) → m.key ≠ n.key)
    (hfree : ∀ m a v, Life (w.node i) m a v → m.phase = .removed) :
    Fleet.Inv ⟨Function.update w.node i db, w.issued, w.lives ∪ {(n.g, n.admission)}⟩ chain := by
  have hlife : ∀ j m, loadNode (w.node j) = .ok (some m) → (m.g, m.admission) ∈ w.lives := by
    intro j m hj
    rcases hw.nodes j with ⟨hnone, -⟩ | ⟨m', a, v, hm, hf⟩
    · simp [loadNode, hnone] at hj
    · cases hj.symm.trans hm.loaded
      exact hf.life
  have hnew : ∀ j m, loadNode (w.node j) = .ok (some m) → m.admission ≠ n.admission := by
    intro j m hj
    rw [hadm]
    exact (hfresh.lives _ (hlife j m hj)).1
  constructor
  case nodes =>
    intro j
    by_cases hj : j = i
    · subst hj
      simp only [Function.update_self]
      refine Or.inr ⟨n, [], s, hl, Or.inr rfl, List.nil_prefix, ?_⟩
      intro p t hp hne ht hprimary
      exact absurd (hprimary.trans hadm) (hw.never_primary hfresh.seen hp hne ht)
    · simp only [Function.update_of_ne hj]
      rcases hw.nodes j with hnone | ⟨m, a, v, hm, hf⟩
      · exact Or.inl hnone
      · exact Or.inr ⟨m, a, v, hm, Or.inl hf.life, hf.journal, hf.past⟩
  case admission_inj =>
    intro j k m m' hj hk heq
    rcases loadNode_update hj with ⟨hji, hj⟩ | ⟨hji, hj⟩ <;>
      rcases loadNode_update hk with ⟨hki, hk⟩ | ⟨hki, hk⟩
    · rw [hji, hki]
    · cases hj.symm.trans hl.loaded
      exact absurd heq.symm (hnew k m' hk)
    · cases hk.symm.trans hl.loaded
      exact absurd heq (hnew j m hj)
    · exact hw.admission_inj j k m m' hj hk heq
  case key_inj =>
    intro j k m m' hj hk heq
    rcases loadNode_update hj with ⟨hji, hj⟩ | ⟨hji, hj⟩ <;>
      rcases loadNode_update hk with ⟨hki, hk⟩ | ⟨hki, hk⟩
    · rw [hji, hki]
    · cases hj.symm.trans hl.loaded
      exact absurd heq.symm (hkey k m' hki hk)
    · cases hk.symm.trans hl.loaded
      exact absurd heq (hkey j m hji hj)
    · exact hw.key_inj j k m m' hj hk heq
  case clusters =>
    intro l hl1 l' hl2 heq
    rcases hl1 with hl1 | rfl <;> rcases hl2 with hl2 | rfl
    · exact hw.clusters l hl1 l' hl2 heq
    · exact (hfresh.lives l hl1).2.2 heq
    · exact ((hfresh.lives l' hl2).2.2 heq.symm).symm
    · rfl
  case replays => exact hw.replays
  case bounded => exact hw.bounded
  case held =>
    intro g hne
    obtain ⟨j, m, v, hm, hg, hlookup⟩ := hw.held g hne
    have hj : j ≠ i := by
      rintro rfl
      exact (removed_is_free hm (hfree _ _ _ hm)).1 ((IdMap.mem_iff _ _).mpr ⟨_, hlookup⟩)
    refine ⟨j, m, v, ?_, hg, hlookup⟩
    simp only [Function.update_of_ne hj]
    exact hm
  case issued =>
    intro k body sig hx
    rcases hw.issued k body sig hx with ⟨l, hl1, b, hb, hbody⟩ | ⟨l, hl1, p, hbody, hsig, hcase⟩
    · exact Or.inl ⟨l, Or.inl hl1, b, hb, hbody⟩
    · refine Or.inr ⟨l, Or.inl hl1, p, hbody, hsig, ?_⟩
      rcases hcase with hlt | ⟨j, m, v, hm, hg, hk, hkeeps⟩
      · exact Or.inl hlt
      · have hj : j ≠ i := by
          rintro rfl
          exact (removed_is_free hm (hfree _ _ _ hm)).2.2 p hkeeps
        refine Or.inr ⟨j, m, v, ?_, hg, hk, ?_⟩ <;> simp only [Function.update_of_ne hj]
        · exact hm
        · exact hkeeps
  case handoff =>
    intro g before e id key sequence head acceptance hc he
    obtain ⟨j, m, a, v, hm, rfl, ha, hk, hcase⟩ :=
      hw.handoff g before e id key sequence head acceptance hc he
    have hj : j ≠ i := by
      rintro rfl
      obtain ⟨-, hprimary, hkeeps⟩ := removed_is_free hm (hfree _ _ _ hm)
      rcases hcase with rfl | ⟨-, hkept⟩
      · have hr := hm.holds.replayed
        rw [hc] at hr
        exact hprimary ((primary_of_transfer _ before e v hr he).trans ha.symm)
      · exact hkeeps _ hkept
    refine ⟨j, m, a, v, ?_, rfl, ha, hk, ?_⟩ <;> simp only [Function.update_of_ne hj]
    · exact hm
    · exact hcase

inductive Wrote (inputs : Inputs) (n : Node) (es : List Entry) (s : State) (db db' : Database) :
    Prop where
  | appended (epoch : UInt64) (operation : Id) (mutation : Mutation) (e : Entry) (t : Tables)
      (hmember : n.phase = .member)
      (htransfer : mutation.isTransfer = true → inputs.transfer epoch operation mutation)
      (h : Appended db.tables n.g n.key n.pair epoch operation mutation es s e t)
      (hdb : db' = { db with tables := t })
  | accepted (operation : Id) (cur : Node) (mutation : Mutation) (t : Tables)
      (h : Accepted n db operation cur mutation t) (hdb : db' = { db with tables := t })
  | installed (h : ClusterHistory) (entries : List Entry) (hinput : inputs.history h)
      (hdecoded : decodedHistory h n.g = .ok entries)
      (hholds : ∃ next, db'.tables.Holds n.g entries next)
      (hprepared : db'.tables.prepared = db.tables.prepared)
  | same (hlog : db'.tables.log = db.tables.log)
      (hprepared : db'.tables.prepared = db.tables.prepared)

theorem Ran.wrote {inputs : Inputs} {db db' : Database} {n : Node} {es : List Entry} {s : State}
    {now : Int64} (hl : Life db n es s) (hr : Ran inputs n s db now db') :
    Wrote inputs n es s db db' := by
  cases hr with
  | committed epoch operation mutation e tables hmember htransfer happ =>
    obtain ⟨-, -, hcase⟩ := (append_eq_ok _ _ _ _ _ _ _ _ es s e hl.holds).mp happ
    rcases hcase with ⟨-, -, rfl⟩ | h
    · exact .same rfl rfl
    · exact .appended epoch operation mutation e tables hmember htransfer h rfl
  | left | unchanged => exact .same rfl rfl
  | cancelled cur s' h rows =>
    split
    · exact .same rfl rfl
    · exact .same rfl rfl
  | imported finish activation cur entries next tables h =>
    obtain ⟨wire, hinput, hdecoded⟩ := h.decoded
    obtain ⟨-, hlen, -, -, -, -, rfl⟩ := (install_eq_ok db.tables tables n.g n.key es entries s
      hl.holds).mp h.installed
    exact .installed wire entries hinput hdecoded ⟨next, rfl, hlen, h.replayed⟩ rfl
  | configured cur entries next tables h rows scope hscope =>
    obtain ⟨wire, hinput, hdecoded⟩ := h.decoded
    have hinst := h.installed
    rw [h.genesis] at hinst
    obtain ⟨-, hlen, -, -, -, -, rfl⟩ := (install_eq_ok db.tables tables n.g cur.key es entries s
      hl.holds).mp hinst
    split
    · exact .installed wire entries hinput hdecoded ⟨next, rfl, hlen, h.replayed⟩ rfl
    · exact .installed wire entries hinput hdecoded ⟨next, rfl, hlen, h.replayed⟩ rfl
  | accepted operation cur mutation tables h =>
    exact .accepted operation cur mutation tables h rfl

omit [DecidableEq ι] in
theorem Fleet.Inv.prefix_chain (hw : w.Inv chain) {g : Genesis} {a : Id} (hlife : (g, a) ∈ w.lives)
    {entries : List Entry} {s : State} (hr : replay g entries = .ok s)
    (hissued : ∀ e ∈ entries, ∀ key, w.Issued key e.body e.signature) : entries <+: chain g := by
  obtain ⟨u, hu⟩ := hw.replays g
  refine replay_prefix_of_subset g entries (chain g) s u hr hu ?_
  intro e he
  obtain ⟨as, bs, t, v, -, ht, hv⟩ := replay_mem g entries e s hr he
  obtain ⟨k, -, hk⟩ := (State.Accepts.of_apply hv).signed
  rcases hw.issued _ _ _ (hissued e he _ hk) with ⟨l, hl, b, hb, hbody, hsig⟩ |
    ⟨l, -, p, hbody, -⟩
  · obtain ⟨z, hz⟩ := hw.replays l.1
    have heq : e = b := Entry.eq_of_body (replay_storable g entries e s hr he).encodable
      (replay_storable l.1 _ b z hz hb).encodable hbody hsig
    subst heq
    have hcluster : l.1.cluster = g.cluster :=
      (replay_entry_cluster l.1 _ e z hz hb).symm.trans (replay_entry_cluster g _ e s hr he)
    have hlg : l.1 = g := hw.clusters l hl (g, a) hlife hcluster
    exact hlg ▸ hb
  · exact absurd hbody (e.body_ne_acceptanceBody _ _ _ _ _ _ _)

theorem Fleet.Inv.ran (hw : w.Inv chain) {i : ι} {n : Node} {es : List Entry} {s : State}
    {inputs : Inputs} {now : Int64} {db : Database} (hl : Life (w.node i) n es s)
    (hg : w.Genuine n.g inputs) (hr : Ran inputs n s (w.node i) now db) :
    ∃ chain', Fleet.Inv ⟨Function.update w.node i db,
      w.issued ∪ signed n (w.node i).tables db.tables, w.lives⟩ chain' ∧
      ∀ g, chain g <+: chain' g := by
  have hf := hw.follows hl
  have hself : Snapshot n es (n, s) :=
    ⟨rfl, hl.member, fun _ => ⟨id, es, List.prefix_rfl, hl.holds.replayed⟩⟩
  obtain ⟨n', es', s', hl', hc⟩ := hl.ran hself (fun _ => rfl) hr
  have hm : Moves (w.node i) db n n' es es' s s' := by
    refine ⟨hl, hl', hc, ?_⟩
    rintro rfl p hk
    have hs : s' = s := by
      have hr' := hl'.holds.replayed
      rw [hc.g] at hr'
      exact Except.ok.inj (hr'.symm.trans hl.holds.replayed)
    subst hs
    exact hk.ran hl hr hl'
  have hload : load db.tables n.g.cluster = .ok es' := hc.g ▸ hl'.holds.load
  have hnosign : db.tables.prepared = (w.node i).tables.prepared →
      (∀ e ∈ es', e ∉ es → e.signature = Platform.sign n.pair e.body → (n.key, e.body, e.signature) ∈
        w.issued) → ∀ x ∈ signed n (w.node i).tables db.tables, x ∈ w.issued ∨ ∃ p : Promise,
          x = (n.key, p.body n.g.cluster n.key, p.acceptance) ∧ Keeps db n' s' p := by
    rintro hp hent x (⟨as, bs, e, has, hbs, hnew, hold, hsig, rfl⟩ | ⟨p, hp1, hp2, -⟩)
    · cases has.symm.trans hl.holds.load
      cases hbs.symm.trans hload
      exact Or.inl (hent e hnew hold hsig)
    · exact absurd (hp ▸ hp1) hp2
  cases Ran.wrote hl hr with
  | appended epoch operation mutation e t hmember htransfer h hdb =>
    subst hdb
    refine ⟨_, hw.append hl hmember h ?_ ?_⟩
    · intro id key sequence head acceptance he
      have hmut : e.mutation = mutation ∧ e.epoch = epoch ∧ e.operation = operation := by
        rw [h.signed]
        exact ⟨rfl, rfl, rfl⟩
      obtain ⟨hmut, rfl, rfl⟩ := hmut
      have hm := hmut.symm.trans he
      subst hm
      exact hg.transfer _ _ _ _ _ _ _ (htransfer rfl)
    · obtain ⟨u, -, hholds⟩ := hl.holds.of_append h
      rintro x (⟨as, bs, b, has, hbs, hnew, hold, -, rfl⟩ | ⟨p, hp1, hp2, -⟩)
      · cases has.symm.trans hl.holds.load
        cases hbs.symm.trans hholds.load
        rcases List.mem_append.mp hnew with hb | hb
        · exact absurd hb hold
        · rw [List.mem_singleton.mp hb]
      · have hprepared : t.prepared = (w.node i).tables.prepared := by
          rw [h.tables]
          split <;> rfl
        exact absurd (hprepared ▸ hp1) hp2
  | accepted operation cur mutation t h hdb =>
    subst hdb
    obtain ⟨p, ht, hk⟩ := h.keeps hl
    have hlog : es' = es := by
      have hsame : load t n.g.cluster = load (w.node i).tables n.g.cluster := by rw [ht]; rfl
      exact Except.ok.inj (hload.symm.trans (hsame.trans hl.holds.load))
    have hn : n' = n := loadNode_unique hl.loaded hl'.loaded
    have hs : s' = s := hm.state hlog
    refine ⟨chain, hw.moves hm ?_ ?_, fun g => List.prefix_rfl⟩
    · rw [hlog]
      exact hf.journal
    · rintro x (⟨as, bs, e, has, hbs, hnew, hold, -, -⟩ | ⟨q, hq1, hq2, rfl⟩)
      · cases has.symm.trans hl.holds.load
        cases hbs.symm.trans hload
        exact absurd (hlog ▸ hnew) hold
      · rw [ht] at hq1
        rcases List.mem_append.mp hq1 with hq1 | hq1
        · exact absurd hq1 hq2
        · rw [Promise.row_inj (List.mem_singleton.mp hq1)]
          rw [hn, hs]
          exact Or.inr ⟨p, rfl, hk⟩
  | installed h entries hinput hdecoded hholds hprepared =>
    obtain ⟨next, hnext⟩ := hholds
    have hentries : es' = entries := Except.ok.inj (hload.symm.trans hnext.load)
    have hissued := hg.history h entries hinput hdecoded
    refine ⟨chain, hw.moves hm ?_ (hnosign hprepared ?_), fun g => List.prefix_rfl⟩
    · rw [hentries]
      exact hw.prefix_chain hf.life hnext.replayed hissued
    · intro e he _ hsig
      have hverify : Platform.verify n.key e.body e.signature = true := by
        rw [hsig]
        exact LawfulPlatform.verify_sign n.pair e.body
      exact hissued e (hentries ▸ he) _ hverify
  | same hlog hprepared =>
    have hes : es' = es := by
      have hsame : load db.tables n.g.cluster = load (w.node i).tables n.g.cluster := by
        simp only [load, hlog]
      exact Except.ok.inj (hload.symm.trans (hsame.trans hl.holds.load))
    refine ⟨chain, hw.moves hm ?_ (hnosign hprepared ?_), fun g => List.prefix_rfl⟩
    · rw [hes]
      exact hf.journal
    · intro e he hold
      exact absurd (hes ▸ he) hold

theorem Fleet.Inv.opens (hw : w.Inv chain) (i : ι) :
    Fleet.Inv ⟨Function.update w.node i (openDatabase (w.node i)), w.issued, w.lives⟩ chain := by
  rcases hw.nodes i with ⟨hnone, -⟩ | ⟨n, es, s, hl, hf⟩
  · have hopen : openDatabase (w.node i) = w.node i := by simp [openDatabase, loadNode, hnone]
    rw [hopen, Function.update_eq_self]
    exact hw
  · have hm : Moves (w.node i) (openDatabase (w.node i)) n n es es s s := by
      refine ⟨hl, hl.opens, Continues.refl n es, ?_⟩
      intro _ p hk
      rw [hk.opens hl.loaded]
      exact hk
    have hopen : Fleet.Inv ⟨Function.update w.node i (openDatabase (w.node i)), w.issued ∪ ∅,
        w.lives⟩ chain := hw.moves hm hf.journal (by simp)
    rwa [Set.union_empty] at hopen

theorem Fleet.Inv.step {w' : Fleet ι} (hw : w.Inv chain) (h : w.Step w') :
    ∃ chain', w'.Inv chain' ∧ ∀ g, chain g <+: chain' g := by
  cases h with
  | start i operation wire target endpoint now random old db n htarget hold hop hinit hn hfresh =>
    have hroot : ∀ g, target = some g → validateEndpoint g.rootEndpoint = .ok () := by
      rintro g rfl
      exact readTarget_root htarget
    obtain ⟨pair, hnew, hcase⟩ :=
      initializeNode_begins _ db old operation target endpoint now random hold hop hroot hinit
    cases hn.symm.trans hnew
    rcases hcase with ⟨rfl, rfl, htables⟩ | ⟨o, rfl, hp, rfl, htables⟩
    · have hnone : (w.node i).node = none ∧ (w.node i).tables = Tables.empty := by
        rcases hw.nodes i with hnone | ⟨m, a, v, hm, -⟩
        · exact hnone
        · cases hold.symm.trans hm.loaded
      refine ⟨chain, hw.start (Life.begins hnew (htables.trans hnone.2)) rfl hfresh ?_ ?_,
        fun g => List.prefix_rfl⟩
      · intro j m _ hm
        exact hfresh.key hnone.1 j m hm
      · intro m a v hm
        cases hold.symm.trans hm.loaded
    · refine ⟨chain, hw.start (Life.begins hnew htables) rfl hfresh ?_ ?_,
        fun g => List.prefix_rfl⟩
      · intro j m hj hm heq
        exact hj (hw.key_inj j i m o hm hold heq)
      · intro m a v hm
        cases hold.symm.trans hm.loaded
        exact hp
  | read i => exact ⟨chain, hw.opens i, fun g => List.prefix_rfl⟩
  | call i c now n before db hopen hg h =>
    have hw' := hw.opens i
    obtain ⟨v, hv⟩ : ∃ v : Fleet ι,
        v = ⟨Function.update w.node i (openDatabase (w.node i)), w.issued, w.lives⟩ := ⟨_, rfl⟩
    rw [← hv] at hw'
    have hnode : v.node i = openDatabase (w.node i) := by simp [hv]
    rw [← hnode] at hopen h ⊢
    rcases hw'.nodes i with ⟨hnone, -⟩ | ⟨m, es, s, hl, -⟩
    · simp [opened, loadNode, hnone, ok_bind, require] at hopen
    · cases hl.opened hopen
      have hgenuine : v.Genuine n.g c.inputs := by
        rw [hv]
        exact ⟨hg.history, hg.transfer⟩
      have hran := hw'.ran hl hgenuine (c.run_ran h)
      rw [hv] at hran ⊢
      simpa only [Function.update_self, Function.update_idem] using hran

def Fleet.Explained (w : Fleet ι) : Prop := ∃ chain, w.Inv chain

theorem Fleet.Explained.step {w' : Fleet ι} (hw : w.Explained) (h : w.Step w') : w'.Explained := by
  obtain ⟨chain, hw⟩ := hw
  obtain ⟨chain', hw', -⟩ := hw.step h
  exact ⟨chain', hw'⟩

omit [LawfulPlatform] [DecidableEq ι] in
theorem Fleet.Initial.inv (h : w.Initial) : w.Inv fun _ => [] := by
  obtain ⟨hnodes, hissued, hlives⟩ := h
  have hnone : ∀ j m, loadNode (w.node j) ≠ .ok (some m) := by
    intro j m
    rw [hnodes j]
    simp [loadNode, Database.empty]
  refine ⟨?_, ?_, ?_, ?_, ?_, ?_, ?_, ?_, ?_⟩
  · intro i
    rw [hnodes i]
    exact Or.inl ⟨rfl, rfl⟩
  · intro i j n m hi
    exact absurd hi (hnone i n)
  · intro i j n m hi
    exact absurd hi (hnone i n)
  · simp [hlives]
  · intro g
    exact ⟨State.genesis g, rfl⟩
  · intro g
    exact ⟨Nat.zero_le _, Nat.zero_le _⟩
  · intro g hne
    exact absurd rfl hne
  · simp [hissued]
  · intro g before e id key sequence head acceptance hc
    simp at hc

theorem Fleet.Reached.explained (h : w.Reached) : w.Explained := by
  refine Reachable.invariant Fleet.Explained ?_ ?_ h
  · exact fun w h0 => ⟨_, h0.inv⟩
  · intro w w' hw hstep
    exact hw.step hstep

end

end Rieul.Cluster
