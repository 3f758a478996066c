import Rieul.Cluster.Acceptance

/-!
# Where a request can be

A request that was begun waits in the outbox, or has expired, or is settled, or can be accepted no
more.
-/

namespace Rieul.Cluster
open Bytes Fallible System
open Rieul.Server (ClientCredentials)

section
variable [Platform] {ι : Type} [DecidableEq ι]

/-- The issuer of the request was removed when its grant had not been accepted, but for what
`recorded` says. -/
def Fleet.Ended (w : Fleet ι) (chain : Genesis → List Entry) (recorded : Set Id) (a : Adoption) :
    Prop :=
  ∃ g es s, (g, a.issuer) ∈ w.lives ∧ g.cluster = a.cluster ∧ es <+: chain g ∧
    replay g es = .ok s ∧ s.Tombstoned a.issuer ∧
      ∀ e ∈ es, e.mutation.Adopts a.grant a.issuer → a.grant ∈ recorded

def Worker.rest : Worker → List (String × ClusterPairingIntent)
  | .idle => []
  | .reading _ _ rest => rest
  | .dispatching rest => rest
  | .refusing _ rest => rest

def Calling (records : ClientCredentials) (active : List String) (purpose : Purpose) : Prop :=
  (∀ owner ∈ active, Present records owner) ∧
    ∀ client, purpose = .handler (some client) → Present records client

namespace Adopting
variable (s t : Adopting ι) (i : ι) (chain chain' : Genesis → List Entry)

def Queued (x : String × ClusterPairingIntent) : Prop :=
  x ∈ s.worker.rest ∨ s.lock = some (.dispatching x.1 x.2)

def Withheld (a : Adoption) : Prop :=
  a.grant ∉ s.past.released ∧ ∀ x, s.Queued x → x.2.challenge.grantId ≠ a.grant.data

def Safe (a : Adoption) : Prop :=
  s.fleet.Ended chain s.past.recorded a ∨ a.grant ∈ s.past.recorded ∨ s.Withheld a

def Dead (a : Adoption) : Prop :=
  ¬ s.adoptions.Waiting a ∧
    (s.fleet.Ended chain ∅ a ∨ s.Withheld a ∧ ¬ s.adoptions.Filed a)

def Running : Prop := ∃ client, s.lock = some (.running client)

def Pending (a : Adoption) : Prop :=
  s.adoptions.Waiting a ∧ a.grant ∉ s.past.recorded ∧ ¬ s.Running ∧ a ∉ s.past.reconciled

def Held (a : Adoption) : Prop :=
  s.Marked a ∨ a.grant ∈ s.past.revoked ∨ s.Dead chain a ∨
    (¬ s.adoptions.Waiting a ∧ s.Expired a) ∨ s.Pending a

structure Inv : Prop where
  fleet : s.fleet.Inv chain
  adopts : ∀ g, (s.fleet.node i).tables.Adopts g → g ∈ s.past.recorded
  revokes : ∀ g, (s.fleet.node i).tables.Revokes g → g ∈ s.past.revoked
  proved : s.Proved s.fleet
  unique : ∀ a ∈ s.past.begun, ∀ b ∈ s.past.begun, a.grant = b.grant → a = b
  waiting : ∀ a, s.adoptions.Waiting a → a ∈ s.past.begun
  filed : ∀ a, s.adoptions.Filed a →
    a ∈ s.past.begun ∧ (a.grant ∈ s.past.recorded ∨ a.grant ∈ s.past.revoked)
  queued : ∀ x, s.Queued x → ∃ a ∈ s.past.begun, x.1 = a.owner ∧ x.2.challenge = a.challenge
  exclusive : s.Dispatching → ∃ rest, s.worker = .dispatching rest
  reading : ∀ n owner rest, s.worker = .reading n owner rest → ∀ a, s.adoptions.Waiting a →
    a.Of n ∨ s.Safe chain a
  place : ∀ a ∈ s.past.begun, (∃ n, loadNode (s.fleet.node i) = .ok (some n) ∧ a.Of n) ∨
    s.fleet.Ended chain s.past.recorded a
  fate : ∀ a ∈ s.past.begun, s.adoptions.Waiting a ∨ s.Expired a ∨ a.grant ∈ s.past.revoked ∨
    a.grant ∈ s.past.recorded ∨ s.Dead chain a
  owners : ∀ active purpose, s.lock = some (.reconciling active purpose) →
    Calling s.credentials active purpose
  actor : ∀ owner, s.ActsFor owner → Present s.credentials owner
  covered : ∀ a ∈ s.past.covered, a ∈ s.past.begun ∧ ¬ Present s.credentials a.owner ∧
    s.Held chain a ∧ (s.adoptions.Filed a → a.grant ∈ s.past.revoked)
  reconciled : ∀ a ∈ s.past.reconciled, a ∈ s.past.covered

structure Goes : Prop where
  begun : s.past.begun ⊆ t.past.begun
  dead : ∀ a ∈ s.past.begun, s.Dead chain a → t.Dead chain' a
  marked : ∀ a, s.Marked a → t.Marked a ∨ a.grant ∈ t.past.revoked ∨ t.Expired a
  revoked : s.past.revoked ⊆ t.past.revoked
  times : s.past.times ⊆ t.past.times

variable {s t i chain chain'}

section
omit [DecidableEq ι]

theorem Expired.mono (h : s.past.times ⊆ t.past.times) (a : Adoption) (ha : s.Expired a) :
    t.Expired a := by
  obtain ⟨now, hnow, hle⟩ := ha
  exact ⟨now, h hnow, hle⟩

theorem Ended.mono {w w' : Fleet ι} {recorded recorded' : Set Id}
    (hlives : w.lives ⊆ w'.lives) (hchain : ∀ g, chain g <+: chain' g)
    (hrecorded : recorded ⊆ recorded') (a : Adoption) (h : w.Ended chain recorded a) :
    w'.Ended chain' recorded' a := by
  obtain ⟨g, es, u, hlife, hcluster, hp, hu, ht, ha⟩ := h
  exact ⟨g, es, u, hlives hlife, hcluster, hp.trans (hchain g), hu, ht,
    fun e he hadopts => hrecorded (ha e he hadopts)⟩

theorem Ended.clean {w : Fleet ι} {recorded : Set Id} (a : Adoption)
    (h : w.Ended chain recorded a) (ha : a.grant ∉ recorded) : w.Ended chain ∅ a := by
  obtain ⟨g, es, u, hlife, hcluster, hp, hu, ht, hadopts⟩ := h
  exact ⟨g, es, u, hlife, hcluster, hp, hu, ht,
    fun e he hadopts' => absurd (hadopts e he hadopts') ha⟩

theorem Inv.dead_not_accepted [LawfulPlatform] (h : s.Inv i chain) (a : Adoption)
    (hb : a ∈ s.past.begun) (hd : s.Dead chain a) : ¬ s.fleet.Accepts a := by
  intro haccepts
  rcases hd.2 with hended | ⟨⟨hreleased, _⟩, _⟩
  · obtain ⟨g, es, u, hlife, hcluster, hp, hu, ht, hclean⟩ := hended
    obtain ⟨j, n, es', hn, hcluster', hload, e, he, hadopts⟩ := haccepts
    rcases h.fleet.nodes j with ⟨hnone, _⟩ | ⟨m, es'', v, hl, hf⟩
    · simp [loadNode, hnone] at hn
    · cases hn.symm.trans hl.loaded
      cases hload.symm.trans hl.holds.load
      have hg : n.g = g :=
        h.fleet.clusters _ hf.life _ hlife (hcluster'.trans hcluster.symm)
      have hjournal := hf.journal
      have hv := hl.holds.replayed
      rw [hg] at hjournal hv
      rcases List.prefix_or_prefix_of_prefix hp hjournal with hle | hle
      · exact hclean e (adopts_before g es es' u v a.issuer a.grant hu hv hle ht e he hadopts)
          hadopts
      · exact hclean e (hle.subset he) hadopts
  · exact hreleased (h.proved a hb haccepts)

theorem Goes.trans {u : Adopting ι} {chain'' : Genesis → List Entry} (h : s.Goes t chain chain')
    (h' : t.Goes u chain' chain'') : s.Goes u chain chain'' where
  begun := fun _ ha => h'.begun (h.begun ha)
  dead := fun a ha hd => h'.dead a (h.begun ha) (h.dead a ha hd)
  marked := by
    intro a ha
    rcases h.marked a ha with hm | hr | he
    · exact h'.marked a hm
    · exact .inr (.inl (h'.revoked hr))
    · exact .inr (.inr (he.mono h'.times a))
  revoked := fun _ hr => h'.revoked (h.revoked hr)
  times := fun _ ht => h'.times (h.times ht)

end

structure Frame (i : ι) (chain chain' : Genesis → List Entry) (s t : Adopting ι) : Prop where
  waiting : ∀ a, t.adoptions.Waiting a ↔ s.adoptions.Waiting a
  filed : ∀ a, t.adoptions.Filed a ↔ s.adoptions.Filed a
  cancelled : t.adoptions.cancelled = s.adoptions.cancelled
  credentials : t.credentials = s.credentials
  begun : t.past.begun = s.past.begun
  covered : t.past.covered = s.past.covered
  fleet : t.fleet.Inv chain'
  chain : ∀ g, chain g <+: chain' g
  lives : s.fleet.lives ⊆ t.fleet.lives
  adopts : ∀ g, (t.fleet.node i).tables.Adopts g → g ∈ t.past.recorded
  revokes : ∀ g, (t.fleet.node i).tables.Revokes g → g ∈ t.past.revoked
  proved : t.Proved t.fleet
  recorded : s.past.recorded ⊆ t.past.recorded
  revoked : s.past.revoked ⊆ t.past.revoked
  times : s.past.times ⊆ t.past.times
  released : ∀ g ∈ t.past.released, g ∈ s.past.released ∨
    (∃ x, s.Queued x ∧ x.2.challenge.grantId = g.data) ∨
      ∃ a, (s.adoptions.Waiting a ∨ s.adoptions.Filed a) ∧ a.grant = g
  queued : ∀ x, t.Queued x → s.Queued x ∨
    ∃ a, s.adoptions.Waiting a ∧ x.1 = a.owner ∧ x.2.challenge = a.challenge
  exclusive : t.Dispatching → ∃ rest, t.worker = .dispatching rest
  reading : ∀ n owner rest, t.worker = .reading n owner rest → ∀ a, s.adoptions.Waiting a →
    a.Of n ∨ t.Safe chain' a
  place : ∀ a ∈ s.past.begun, (∃ n, loadNode (t.fleet.node i) = .ok (some n) ∧ a.Of n) ∨
    t.fleet.Ended chain' t.past.recorded a
  owners : ∀ active purpose, t.lock = some (.reconciling active purpose) →
    Calling s.credentials active purpose
  actor : ∀ owner, t.ActsFor owner → Present s.credentials owner
  reconciled : ∀ a ∈ t.past.reconciled, a ∈ s.past.covered
  pending : ∀ a ∈ s.past.covered, a.grant ∉ s.adoptions.cancelled → s.Pending a →
    a.grant ∉ t.past.recorded ∧ ¬ t.Running ∧ a ∉ t.past.reconciled

section
omit [DecidableEq ι]

theorem Frame.withheld (h : s.Inv i chain) (f : Frame i chain chain' s t) (a : Adoption)
    (ha : a ∈ s.past.begun) (hw : ¬ s.adoptions.Waiting a) (hf : ¬ s.adoptions.Filed a)
    (hs : s.Withheld a) : t.Withheld a := by
  have hsame : ∀ b : Adoption, b ∈ s.past.begun → b.grant.data = a.grant.data → b = a := by
    intro b hb hdata
    exact h.unique b hb a ha (Fixed.ext' hdata)
  constructor
  · intro hr
    rcases f.released a.grant hr with hr | ⟨x, hx, hdata⟩ | ⟨b, hb, hgrant⟩
    · exact hs.1 hr
    · exact hs.2 x hx hdata
    · rcases hb with hb | hb
      · exact hw (h.unique b (h.waiting b hb) a ha hgrant ▸ hb)
      · exact hf (h.unique b (h.filed b hb).1 a ha hgrant ▸ hb)
  · intro x hx hdata
    rcases f.queued x hx with hx | ⟨b, hb, _, hc⟩
    · exact hs.2 x hx hdata
    · rw [hc] at hdata
      exact hw (hsame b (h.waiting b hb) hdata ▸ hb)

theorem Frame.dead (h : s.Inv i chain) (f : Frame i chain chain' s t) (a : Adoption)
    (ha : a ∈ s.past.begun) (hd : s.Dead chain a) : t.Dead chain' a := by
  obtain ⟨hw, hd⟩ := hd
  refine ⟨fun hw' => hw ((f.waiting a).mp hw'), ?_⟩
  rcases hd with hended | ⟨hwithheld, hfiled⟩
  · exact .inl (Ended.mono f.lives f.chain (fun _ h => h) a hended)
  · right
    exact ⟨f.withheld h a ha hw hfiled hwithheld, fun hf => hfiled ((f.filed a).mp hf)⟩

theorem Frame.marked (f : Frame i chain chain' s t) (a : Adoption) (hm : s.Marked a) :
    t.Marked a := by
  obtain ⟨hw, hg⟩ := hm
  refine ⟨(f.waiting a).mpr hw, ?_⟩
  rw [f.cancelled]
  exact hg

theorem Inv.frame (h : s.Inv i chain) (f : Frame i chain chain' s t) :
    t.Inv i chain' ∧ s.Goes t chain chain' := by
  refine ⟨?_, ?_⟩
  · constructor
    case fleet => exact f.fleet
    case adopts => exact f.adopts
    case revokes => exact f.revokes
    case proved => exact f.proved
    case unique =>
      rw [f.begun]
      exact h.unique
    case waiting =>
      intro a ha
      rw [f.begun]
      exact h.waiting a ((f.waiting a).mp ha)
    case filed =>
      intro a ha
      rw [f.begun]
      obtain ⟨hb, hcase⟩ := h.filed a ((f.filed a).mp ha)
      refine ⟨hb, ?_⟩
      rcases hcase with hr | hr
      · exact .inl (f.recorded hr)
      · exact .inr (f.revoked hr)
    case queued =>
      intro x hx
      rw [f.begun]
      rcases f.queued x hx with hx | ⟨a, ha, howner, hc⟩
      · exact h.queued x hx
      · exact ⟨a, h.waiting a ha, howner, hc⟩
    case exclusive => exact f.exclusive
    case reading =>
      intro n owner rest hworker a ha
      exact f.reading n owner rest hworker a ((f.waiting a).mp ha)
    case place =>
      rw [f.begun]
      exact f.place
    case fate =>
      intro a ha
      rw [f.begun] at ha
      rcases h.fate a ha with hw | he | hr | hr | hd
      · exact .inl ((f.waiting a).mpr hw)
      · exact .inr (.inl (he.mono f.times a))
      · exact .inr (.inr (.inl (f.revoked hr)))
      · exact .inr (.inr (.inr (.inl (f.recorded hr))))
      · exact .inr (.inr (.inr (.inr (f.dead h a ha hd))))
    case owners =>
      rw [f.credentials]
      exact f.owners
    case actor =>
      rw [f.credentials]
      exact f.actor
    case covered =>
      intro a ha
      rw [f.covered] at ha
      obtain ⟨hb, hpresent, hheld, hfiled⟩ := h.covered a ha
      rw [f.begun, f.credentials]
      refine ⟨hb, hpresent, ?_, fun hf => f.revoked (hfiled ((f.filed a).mp hf))⟩
      by_cases hg : a.grant ∈ s.adoptions.cancelled ∧ s.adoptions.Waiting a
      · exact .inl (f.marked a ⟨hg.2, hg.1⟩)
      · rcases hheld with hm | hr | hd | ⟨hw, he⟩ | hp
        · exact .inl (f.marked a hm)
        · exact .inr (.inl (f.revoked hr))
        · exact .inr (.inr (.inl (f.dead h a hb hd)))
        · exact .inr (.inr (.inr (.inl ⟨fun hw' => hw ((f.waiting a).mp hw'), he.mono f.times a⟩)))
        · have hno : a.grant ∉ s.adoptions.cancelled := fun hc => hg ⟨hc, hp.1⟩
          obtain ⟨hrec, hrun, hreconciled⟩ := f.pending a ha hno hp
          exact .inr (.inr (.inr (.inr ⟨(f.waiting a).mpr hp.1, hrec, hrun, hreconciled⟩)))
    case reconciled =>
      intro a ha
      rw [f.covered]
      exact f.reconciled a ha
  · constructor
    case begun => rw [f.begun]
    case dead => exact f.dead h
    case marked => exact fun a ha => .inl (f.marked a ha)
    case revoked => exact f.revoked
    case times => exact f.times

end

/-- What is asked of a `maintain`: the node that it is given may be an old one, but then what it
drops for that may go; `u` is what the step leaves, with more marks perhaps. -/
structure Tidies (chain : Genesis → List Entry) (s : Adopting ι) (n : Node) (state : State)
    (now : Int64) (u v : Adoptions) : Prop where
  maintained : Adoptions.Maintained n state now s.adoptions v
  waiting : ∀ a, u.Waiting a ↔ v.Waiting a
  filed : ∀ a, u.Filed a ↔ v.Filed a
  marks : ∀ g ∈ v.cancelled, g ∈ u.cancelled
  grants : ∀ g ∈ state.grants, g ∈ s.past.recorded
  revoked : ∀ g ∈ state.revoked, g ∈ s.past.revoked
  foreign : ∀ a, s.adoptions.Waiting a → a.Of n ∨ s.Safe chain a

variable {n : Node} {state : State} {now : Int64} {u v : Adoptions}

section
omit [DecidableEq ι]

theorem Tidies.old (d : Tidies chain s n state now u v) (a : Adoption) (ha : u.Waiting a) :
    s.adoptions.Waiting a :=
  d.maintained.waiting a ((d.waiting a).mp ha)

theorem Tidies.filed_cases (d : Tidies chain s n state now u v) (a : Adoption) (ha : u.Filed a) :
    s.adoptions.Filed a ∨ s.adoptions.Waiting a ∧ (a.grant ∈ s.past.revoked ∨
      a.grant ∈ s.past.recorded ∧ a.grant ∉ s.adoptions.cancelled) := by
  rcases d.maintained.filed a ((d.filed a).mp ha) with hf | ⟨hw, hs⟩
  · exact .inl hf
  · right
    refine ⟨hw, ?_⟩
    rcases hs with hs | ⟨hs, hno⟩
    · exact .inl (d.revoked _ hs)
    · exact .inr ⟨d.grants _ hs, hno⟩

theorem Tidies.kept (h : s.Inv i chain) (d : Tidies chain s n state now u v) (a : Adoption)
    (ha : s.adoptions.Waiting a) : u.Waiting a ∨ ¬ u.Waiting a ∧ (a.expires ≤ now ∨
      a.grant ∈ s.past.revoked ∨ a.grant ∉ s.adoptions.cancelled ∧
        (a.grant ∈ s.past.recorded ∨ Dead { s.reads now with adoptions := u } chain a)) := by
  by_cases hw : u.Waiting a
  · exact .inl hw
  right
  refine ⟨hw, ?_⟩
  rcases d.maintained.kept a ha with hv | he | ⟨hforeign, hno⟩ | hs | ⟨hs, hno⟩
  · exact absurd ((d.waiting a).mpr hv) hw
  · exact .inl he
  · rcases d.foreign a ha with hof | hended | hr | hwithheld
    · exact absurd hof hforeign
    · by_cases hr : a.grant ∈ s.past.recorded
      · exact .inr (.inr ⟨hno, .inl hr⟩)
      · exact .inr (.inr ⟨hno, .inr ⟨hw, .inl (Ended.clean a hended hr)⟩⟩)
    · exact .inr (.inr ⟨hno, .inl hr⟩)
    · by_cases hf : u.Filed a
      · rcases d.filed_cases a hf with hf | ⟨_, hr | ⟨hr, _⟩⟩
        · rcases (h.filed a hf).2 with hr | hr
          · exact .inr (.inr ⟨hno, .inl hr⟩)
          · exact .inr (.inl hr)
        · exact .inr (.inl hr)
        · exact .inr (.inr ⟨hno, .inl hr⟩)
      · exact .inr (.inr ⟨hno, .inr ⟨hw, .inr ⟨hwithheld, hf⟩⟩⟩)
  · exact .inr (.inl (d.revoked _ hs))
  · exact .inr (.inr ⟨hno, .inl (d.grants _ hs)⟩)

theorem Tidies.dead (d : Tidies chain s n state now u v) (a : Adoption) (ha : s.Dead chain a) :
    Dead { s.reads now with adoptions := u } chain a := by
  obtain ⟨hw, hd⟩ := ha
  refine ⟨fun hw' => hw (d.old a hw'), ?_⟩
  rcases hd with hended | ⟨hwithheld, hf⟩
  · exact .inl hended
  · right
    refine ⟨hwithheld, ?_⟩
    intro hf'
    rcases d.filed_cases a hf' with hf' | ⟨hw', _⟩
    · exact hf hf'
    · exact hw hw'

theorem Tidies.marked (h : s.Inv i chain) (d : Tidies chain s n state now u v) (a : Adoption)
    (ha : s.Marked a) : u.Marked a ∨ ¬ u.Waiting a ∧ (a.expires ≤ now ∨
      a.grant ∈ s.past.revoked) := by
  rcases d.kept h a ha.1 with hw | ⟨hw, he | hr | ⟨hno, _⟩⟩
  · left
    refine ⟨hw, d.marks _ ?_⟩
    exact (d.maintained.marked a ((d.waiting a).mp hw)).mpr ha.2
  · exact .inr ⟨hw, .inl he⟩
  · exact .inr ⟨hw, .inr hr⟩
  · exact absurd ha.2 hno

theorem Inv.maintain (h : s.Inv i chain) (d : Tidies chain s n state now u v) :
    Inv { s.reads now with adoptions := u } i chain ∧
      s.Goes { s.reads now with adoptions := u } chain chain := by
  have htimes : s.past.times ⊆ (s.reads now).past.times := Set.subset_insert now s.past.times
  have hexpired : ∀ a : Adoption, a.expires ≤ now →
      Expired { s.reads now with adoptions := u } a := by
    intro a ha
    exact ⟨now, Set.mem_insert now s.past.times, ha⟩
  refine ⟨?_, ?_⟩
  · constructor
    case fleet => exact h.fleet
    case adopts => exact h.adopts
    case revokes => exact h.revokes
    case proved => exact h.proved
    case unique => exact h.unique
    case waiting => exact fun a ha => h.waiting a (d.old a ha)
    case filed =>
      intro a ha
      rcases d.filed_cases a ha with hf | ⟨hw, hr | ⟨hr, _⟩⟩
      · exact h.filed a hf
      · exact ⟨h.waiting a hw, .inr hr⟩
      · exact ⟨h.waiting a hw, .inl hr⟩
    case queued => exact h.queued
    case exclusive => exact h.exclusive
    case reading => exact fun n owner rest hworker a ha => h.reading n owner rest hworker a (d.old a ha)
    case place => exact h.place
    case fate =>
      intro a ha
      rcases h.fate a ha with hw | he | hr | hr | hd
      · rcases d.kept h a hw with hw | ⟨_, he | hr | ⟨_, hr | hd⟩⟩
        · exact .inl hw
        · exact .inr (.inl (hexpired a he))
        · exact .inr (.inr (.inl hr))
        · exact .inr (.inr (.inr (.inl hr)))
        · exact .inr (.inr (.inr (.inr hd)))
      · exact .inr (.inl (he.mono htimes a))
      · exact .inr (.inr (.inl hr))
      · exact .inr (.inr (.inr (.inl hr)))
      · exact .inr (.inr (.inr (.inr (d.dead a hd))))
    case owners => exact h.owners
    case actor => exact h.actor
    case covered =>
      intro a ha
      obtain ⟨hb, hpresent, hheld, hfiled⟩ := h.covered a ha
      refine ⟨hb, hpresent, ?_, ?_⟩
      · rcases hheld with hm | hr | hd | ⟨hw, he⟩ | ⟨hw, hno, hrun, hreconciled⟩
        · rcases d.marked h a hm with hm | ⟨hw, he | hr⟩
          · exact .inl hm
          · exact .inr (.inr (.inr (.inl ⟨hw, hexpired a he⟩)))
          · exact .inr (.inl hr)
        · exact .inr (.inl hr)
        · exact .inr (.inr (.inl (d.dead a hd)))
        · exact .inr (.inr (.inr (.inl ⟨fun hw' => hw (d.old a hw'), he.mono htimes a⟩)))
        · rcases d.kept h a hw with hw | ⟨hw, he | hr | ⟨_, hr | hd⟩⟩
          · exact .inr (.inr (.inr (.inr ⟨hw, hno, hrun, hreconciled⟩)))
          · exact .inr (.inr (.inr (.inl ⟨hw, hexpired a he⟩)))
          · exact .inr (.inl hr)
          · exact absurd hr hno
          · exact .inr (.inr (.inl hd))
      · intro hf
        rcases d.filed_cases a hf with hf | ⟨hw, hr | ⟨hr, hmark⟩⟩
        · exact hfiled hf
        · exact hr
        · rcases hheld with hm | hr' | hd | ⟨hw', _⟩ | ⟨_, hno, _⟩
          · exact absurd hm.2 hmark
          · exact hr'
          · exact absurd hw hd.1
          · exact absurd hw hw'
          · exact absurd hr hno
    case reconciled => exact h.reconciled
  · constructor
    case begun => exact fun _ ha => ha
    case dead => exact fun a _ hd => d.dead a hd
    case marked =>
      intro a ha
      rcases d.marked h a ha with hm | ⟨_, he | hr⟩
      · exact .inl hm
      · exact .inr (.inr (hexpired a he))
      · exact .inr (.inl hr)
    case revoked => exact fun _ ha => ha
    case times => exact htimes

end

end Adopting
end
end Rieul.Cluster
