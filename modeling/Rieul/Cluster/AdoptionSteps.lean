import Rieul.Cluster.AdoptionInvariant

/-!
# The steps around the outbox

Each step keeps the invariant, what is dead and, but for a revocation or the
expiry, every mark.
-/

namespace Rieul.Cluster
open Bytes Fallible System
open Rieul.Server (ClientCredentials)

section
variable [Platform] {ι : Type} [DecidableEq ι]

omit [Platform] in
theorem active_present (records : ClientCredentials) (now : Int64) (owner : String)
    (h : owner ∈ activeClients records now) : Present records owner := by
  unfold activeClients at h
  obtain ⟨r, hr, howner⟩ := List.mem_map.mp h
  exact ⟨r, (List.mem_filter.mp hr).1, howner⟩

theorem Fleet.Step.lives_subset {w w' : Fleet ι} (h : w.Step w') : w.lives ⊆ w'.lives := by
  cases h with
  | start => exact Set.subset_union_left
  | read | call => exact fun _ h => h

namespace Adopting
variable {s t : Adopting ι} {i : ι} {chain chain' : Genesis → List Entry}

section
omit [DecidableEq ι]

theorem Inv.still (h : s.Inv i chain) (lock : Option Holder) (worker : Worker) (times : Set Int64)
    (reconciled : Set Adoption)
    (ht : t = { s with
      lock := lock
      worker := worker
      past := { s.past with times := times, reconciled := reconciled } })
    (htimes : s.past.times ⊆ times) (hreconciled : reconciled ⊆ s.past.covered)
    (hqueued : ∀ x, t.Queued x → s.Queued x ∨
      ∃ a, s.adoptions.Waiting a ∧ x.1 = a.owner ∧ x.2.challenge = a.challenge)
    (hexclusive : t.Dispatching → ∃ rest, worker = .dispatching rest)
    (hreading : ∀ n owner rest, worker = .reading n owner rest → ∀ a, s.adoptions.Waiting a →
      a.Of n ∨ t.Safe chain a)
    (howners : ∀ active purpose, lock = some (.reconciling active purpose) →
      Calling s.credentials active purpose)
    (hactor : ∀ owner, t.ActsFor owner → Present s.credentials owner)
    (hpending : ∀ a ∈ s.past.covered, a.grant ∉ s.adoptions.cancelled → s.Pending a →
      ¬ t.Running ∧ a ∉ reconciled) : t.Inv i chain ∧ s.Goes t chain chain := by
  subst ht
  refine h.frame ?_
  constructor
  case waiting => exact fun _ => Iff.rfl
  case filed => exact fun _ => Iff.rfl
  case cancelled => rfl
  case credentials => rfl
  case begun => rfl
  case covered => rfl
  case fleet => exact h.fleet
  case chain => exact fun _ => List.prefix_rfl
  case lives => exact fun _ hl => hl
  case adopts => exact h.adopts
  case revokes => exact h.revokes
  case proved => exact h.proved
  case recorded => exact fun _ hr => hr
  case revoked => exact fun _ hr => hr
  case times => exact htimes
  case released => exact fun _ hr => .inl hr
  case queued => exact hqueued
  case exclusive => exact hexclusive
  case reading => exact hreading
  case place => exact h.place
  case owners => exact howners
  case actor => exact hactor
  case reconciled => exact hreconciled
  case pending => exact fun a ha hno hp => ⟨hp.2.1, hpending a ha hno hp⟩

theorem Safe.still (a : Adoption) (hfleet : t.fleet = s.fleet) (hrecorded : t.past.recorded = s.past.recorded)
    (hreleased : t.past.released = s.past.released) (hqueued : ∀ x, t.Queued x → s.Queued x)
    (h : s.Safe chain a) : t.Safe chain a := by
  unfold Safe Withheld
  rw [hfleet, hrecorded, hreleased]
  rcases h with he | hr | ⟨hr, hq⟩
  · exact .inl he
  · exact .inr (.inl hr)
  · exact .inr (.inr ⟨hr, fun x hx => hq x (hqueued x hx)⟩)

theorem Inv.relock (h : s.Inv i chain) (lock : Option Holder) (times : Set Int64)
    (reconciled : Set Adoption)
    (ht : t = { s with
      lock := lock
      past := { s.past with times := times, reconciled := reconciled } })
    (htimes : s.past.times ⊆ times) (hreconciled : reconciled ⊆ s.past.covered)
    (hdispatch : ∀ owner intent, lock ≠ some (.dispatching owner intent))
    (howners : ∀ active purpose, lock = some (.reconciling active purpose) →
      Calling s.credentials active purpose)
    (hactor : ∀ owner, lock = some (.running (some owner)) → Present s.credentials owner)
    (hpending : ∀ a ∈ s.past.covered, a.grant ∉ s.adoptions.cancelled → s.Pending a →
      (∀ client, lock ≠ some (.running client)) ∧ a ∉ reconciled) :
    t.Inv i chain ∧ s.Goes t chain chain := by
  subst ht
  have hqueued : ∀ x, Queued { s with
      lock := lock
      past := { s.past with times := times, reconciled := reconciled } } x → s.Queued x := by
    intro x hx
    rcases hx with hx | hx
    · exact .inl hx
    · exact absurd hx (hdispatch x.1 x.2)
  refine h.still lock s.worker times reconciled rfl htimes hreconciled ?_ ?_ ?_ howners ?_ ?_
  · exact fun x hx => .inl (hqueued x hx)
  · intro hd
    obtain ⟨owner, intent, hd⟩ := hd
    exact absurd hd (hdispatch owner intent)
  · intro n owner rest hr a ha
    rcases h.reading n owner rest hr a ha with hof | hs
    · exact .inl hof
    · exact .inr (Safe.still (s := s) a rfl rfl rfl hqueued hs)
  · intro owner ha
    rcases ha with hl | ⟨intent, hl⟩
    · exact hactor owner hl
    · exact absurd hl (hdispatch owner intent)
  · intro a ha hno hp
    obtain ⟨hrun, hrec⟩ := hpending a ha hno hp
    refine ⟨?_, hrec⟩
    intro hr
    obtain ⟨client, hl⟩ := hr
    exact hrun client hl

end

theorem Inv.place_step [LawfulPlatform] (h : s.Inv i chain) {w : Fleet ι} (hstep : s.fleet.Step w)
    (hchain : ∀ g, chain g <+: chain' g) (recorded : Set Id) (hrecorded : s.past.recorded ⊆ recorded)
    (a : Adoption) (ha : a ∈ s.past.begun) :
    (∃ n, loadNode (w.node i) = .ok (some n) ∧ a.Of n) ∨ w.Ended chain' recorded a := by
  rcases h.place a ha with ⟨n, hn, hof⟩ | hended
  · rcases h.fleet.nodes i with ⟨hnone, _⟩ | ⟨m, es, u, hl, hf⟩
    · simp [loadNode, hnone] at hn
    · cases hn.symm.trans hl.loaded
      rcases hstep.life hl with ⟨n', es', u', hl', hg, hadmission⟩ | ht
      · left
        refine ⟨n', hl'.loaded, ?_, ?_⟩
        · rw [hg]
          exact hof.1
        · rw [hadmission]
          exact hof.2
      · right
        refine ⟨n.g, es, u, ?_, hof.1.symm, hf.journal.trans (hchain n.g), hl.holds.replayed, ?_, ?_⟩
        · rw [hof.2]
          exact hstep.lives_subset hf.life
        · rw [hof.2]
          exact ht
        · intro e he hadopts
          apply hrecorded
          apply h.adopts
          exact (hl.holds.adopts a.grant).mpr ⟨e, he, a.issuer, hadopts⟩
  · exact .inr (Ended.mono hstep.lives_subset hchain hrecorded a hended)

theorem Inv.saw [LawfulPlatform] (h : s.Inv i chain) {w : Fleet ι} (hstep : s.fleet.Step w)
    (released : Set Id)
    (ht : t = { s.saw i w with past := { (s.saw i w).past with released := released } })
    (hproved : ∀ a ∈ s.past.begun, w.Accepts a → a.grant ∈ released)
    (hreleased : ∀ g ∈ released, g ∈ s.past.released ∨ (w.node i).tables.Adopts g ∧
      ∃ a, (s.adoptions.Waiting a ∨ s.adoptions.Filed a) ∧ a.grant = g)
    (hpending : ∀ a ∈ s.past.covered, a.grant ∉ s.adoptions.cancelled → s.Pending a →
      ¬ (w.node i).tables.Adopts a.grant) :
    ∃ chain', t.Inv i chain' ∧ s.Goes t chain chain' := by
  obtain ⟨chain', hinv, hchain⟩ := h.fleet.step hstep
  refine ⟨chain', ?_⟩
  subst ht
  refine h.frame ?_
  constructor
  case waiting => exact fun _ => Iff.rfl
  case filed => exact fun _ => Iff.rfl
  case cancelled => rfl
  case credentials => rfl
  case begun => rfl
  case covered => rfl
  case fleet => exact hinv
  case chain => exact hchain
  case lives => exact hstep.lives_subset
  case adopts => exact fun g hg => .inr hg
  case revokes => exact fun g hg => .inr hg
  case proved => exact hproved
  case recorded => exact Set.subset_union_left
  case revoked => exact Set.subset_union_left
  case times => exact fun _ hr => hr
  case released =>
    intro g hg
    rcases hreleased g hg with hr | ⟨_, hr⟩
    · exact .inl hr
    · exact .inr (.inr hr)
  case queued => exact fun _ hx => .inl hx
  case exclusive => exact h.exclusive
  case reading =>
    intro n owner rest hworker a ha
    rcases h.reading n owner rest hworker a ha with hof | hended | hr | ⟨hr, hq⟩
    · exact .inl hof
    · exact .inr (.inl (Ended.mono hstep.lives_subset hchain Set.subset_union_left a hended))
    · exact .inr (.inr (.inl (.inl hr)))
    · by_cases hg : a.grant ∈ released
      · rcases hreleased a.grant hg with hg | ⟨hg, _⟩
        · exact absurd hg hr
        · exact .inr (.inr (.inl (.inr hg)))
      · exact .inr (.inr (.inr ⟨hg, hq⟩))
  case place => exact h.place_step hstep hchain _ Set.subset_union_left
  case owners => exact h.owners
  case actor => exact h.actor
  case reconciled => exact h.reconciled
  case pending =>
    intro a ha hno hp
    refine ⟨?_, hp.2.2.1, hp.2.2.2⟩
    intro hr
    rcases hr with hr | hr
    · exact hp.2.1 hr
    · exact hpending a ha hno hp hr

omit [DecidableEq ι] in
theorem Inv.write (h : s.Inv i chain) (records : ClientCredentials) (hlock : s.lock = none) :
    (s.write records).Inv i chain ∧ s.Goes (s.write records) chain chain := by
  refine ⟨?_, ?_⟩
  · constructor
    case fleet => exact h.fleet
    case adopts => exact h.adopts
    case revokes => exact h.revokes
    case proved => exact h.proved
    case unique => exact h.unique
    case waiting => exact h.waiting
    case filed => exact h.filed
    case queued => exact h.queued
    case exclusive => exact h.exclusive
    case reading => exact h.reading
    case place => exact h.place
    case fate => exact h.fate
    case owners =>
      intro active purpose hl
      cases hlock.symm.trans hl
    case actor =>
      intro owner hactor
      rcases hactor with hl | ⟨_, hl⟩
      · cases hlock.symm.trans hl
      · cases hlock.symm.trans hl
    case covered =>
      intro a ha
      obtain ⟨hpresent, hcase⟩ := ha
      have hrun : ¬ s.Running := by
        intro hr
        obtain ⟨client, hl⟩ := hr
        cases hlock.symm.trans hl
      rcases hcase with hc | ⟨hb, hwas, hno⟩
      · obtain ⟨hb, _, hheld, hfiled⟩ := h.covered a hc
        refine ⟨hb, hpresent, ?_, hfiled⟩
        rcases hheld with hm | hr | hd | he | ⟨hw, hrec, _, hreconciled⟩
        · exact .inl hm
        · exact .inr (.inl hr)
        · exact .inr (.inr (.inl hd))
        · exact .inr (.inr (.inr (.inl he)))
        · exact .inr (.inr (.inr (.inr ⟨hw, hrec, hrun, fun hrc => hreconciled hrc.2⟩)))
      · -- removed just now
        refine ⟨hb, hpresent, ?_, ?_⟩
        · have hnew : a ∉ s.past.reconciled := by
            intro hrc
            exact (h.covered a (h.reconciled a hrc)).2.1 hwas
          by_cases hw : s.adoptions.Waiting a
          · exact .inr (.inr (.inr (.inr ⟨hw, hno, hrun, fun hrc => hnew hrc.2⟩)))
          · rcases h.fate a hb with hw' | he | hr | hr | hd
            · exact absurd hw' hw
            · exact .inr (.inr (.inr (.inl ⟨hw, he⟩)))
            · exact .inr (.inl hr)
            · exact absurd hr hno
            · exact .inr (.inr (.inl hd))
        · intro hf
          rcases (h.filed a hf).2 with hr | hr
          · exact absurd hr hno
          · exact hr
    case reconciled =>
      intro a ha
      exact ⟨ha.1, .inl (h.reconciled a ha.2)⟩
  · constructor
    case begun => exact fun _ ha => ha
    case dead => exact fun _ _ hd => hd
    case marked => exact fun _ hm => .inl hm
    case revoked => exact fun _ hr => hr
    case times => exact fun _ ht => ht

def insert (s : Adopting ι) (a : Adoption) : Adopting ι :=
  { s with
    adoptions := { s.adoptions with outbox := s.adoptions.outbox ++ [⟨a, none, none⟩] }
    past := { s.past with begun := s.past.begun ∪ {a} } }

section
omit [DecidableEq ι]

theorem insert_waiting (s : Adopting ι) (a b : Adoption) :
    (s.insert a).adoptions.Waiting b ↔ s.adoptions.Waiting b ∨ b = a := by
  constructor
  · intro h
    obtain ⟨r, hr, rfl⟩ := h
    rcases List.mem_append.mp hr with hr | hr
    · exact .inl ⟨r, hr, rfl⟩
    · right
      rw [List.mem_singleton.mp hr]
  · intro h
    rcases h with ⟨r, hr, hb⟩ | rfl
    · exact ⟨r, List.mem_append_left _ hr, hb⟩
    · exact ⟨⟨b, none, none⟩, List.mem_append_right _ List.mem_cons_self, rfl⟩

theorem Inv.insert (h : s.Inv i chain) (a : Adoption) (n : Node)
    (hn : loadNode (s.fleet.node i) = .ok (some n)) (hof : a.Of n) (hfresh : s.Fresh a.grant) :
    (s.insert a).Inv i chain ∧ s.Goes (s.insert a) chain chain := by
  have hnew : ∀ b ∈ s.past.begun, b.grant ≠ a.grant := by
    intro b hb hgrant
    exact (hfresh b hgrant).1 hb
  have hbegun : s.past.begun ⊆ (s.insert a).past.begun := Set.subset_union_left
  have hold : ∀ b ∈ s.past.begun, ¬ s.adoptions.Waiting b → ¬ (s.insert a).adoptions.Waiting b := by
    intro b hb hw hw'
    rcases (insert_waiting s a b).mp hw' with hw' | rfl
    · exact hw hw'
    · exact hnew b hb rfl
  have hdead : ∀ b ∈ s.past.begun, s.Dead chain b → (s.insert a).Dead chain b := by
    intro b hb hd
    exact ⟨hold b hb hd.1, hd.2⟩
  refine ⟨?_, ?_⟩
  · constructor
    case fleet => exact h.fleet
    case adopts => exact h.adopts
    case revokes => exact h.revokes
    case proved =>
      intro b hb haccepts
      rcases hb with hb | rfl
      · exact h.proved b hb haccepts
      · exact absurd haccepts (hfresh b rfl).2.1
    case unique =>
      intro b hb c hc hgrant
      rcases hb with hb | rfl
      · rcases hc with hc | rfl
        · exact h.unique b hb c hc hgrant
        · exact absurd hgrant (hnew b hb)
      · rcases hc with hc | rfl
        · exact absurd hgrant.symm (hnew c hc)
        · rfl
    case waiting =>
      intro b hb
      rcases (insert_waiting s a b).mp hb with hb | rfl
      · exact hbegun (h.waiting b hb)
      · exact .inr rfl
    case filed =>
      intro b hb
      exact ⟨hbegun (h.filed b hb).1, (h.filed b hb).2⟩
    case queued =>
      intro x hx
      obtain ⟨b, hb, hx⟩ := h.queued x hx
      exact ⟨b, hbegun hb, hx⟩
    case exclusive => exact h.exclusive
    case reading =>
      intro m owner rest hworker b hb
      rcases (insert_waiting s a b).mp hb with hb | rfl
      · exact h.reading m owner rest hworker b hb
      · right
        right
        right
        refine ⟨(hfresh b rfl).2.2, ?_⟩
        intro x hx hdata
        obtain ⟨c, hc, _, hchallenge⟩ := h.queued x hx
        rw [hchallenge] at hdata
        exact hnew c hc (Fixed.ext' hdata)
    case place =>
      intro b hb
      rcases hb with hb | rfl
      · exact h.place b hb
      · exact .inl ⟨n, hn, hof⟩
    case fate =>
      intro b hb
      rcases hb with hb | rfl
      · rcases h.fate b hb with hw | he | hr | hr | hd
        · exact .inl ((insert_waiting s a b).mpr (.inl hw))
        · exact .inr (.inl he)
        · exact .inr (.inr (.inl hr))
        · exact .inr (.inr (.inr (.inl hr)))
        · exact .inr (.inr (.inr (.inr (hdead b hb hd))))
      · exact .inl ((insert_waiting s b b).mpr (.inr rfl))
    case owners => exact h.owners
    case actor => exact h.actor
    case covered =>
      intro b hb
      obtain ⟨hin, hpresent, hheld, hfiled⟩ := h.covered b hb
      refine ⟨hbegun hin, hpresent, ?_, hfiled⟩
      rcases hheld with ⟨hw, hg⟩ | hr | hd | ⟨hw, he⟩ | ⟨hw, hrec⟩
      · exact .inl ⟨(insert_waiting s a b).mpr (.inl hw), hg⟩
      · exact .inr (.inl hr)
      · exact .inr (.inr (.inl (hdead b hin hd)))
      · exact .inr (.inr (.inr (.inl ⟨hold b hin hw, he⟩)))
      · exact .inr (.inr (.inr (.inr ⟨(insert_waiting s a b).mpr (.inl hw), hrec⟩)))
    case reconciled => exact h.reconciled
  · constructor
    case begun => exact hbegun
    case dead => exact hdead
    case marked =>
      intro b hb
      exact .inl ⟨(insert_waiting s a b).mpr (.inl hb.1), hb.2⟩
    case revoked => exact fun _ hr => hr
    case times => exact fun _ ht => ht

theorem opened_origin (db : Database) (n : Node) (state : State)
    (h : opened (openDatabase db) = .ok (n, state)) :
    loadNode db = .ok (some n) ∧ ∀ grant, (grant ∈ state.grants → db.tables.Adopts grant) ∧
      (grant ∈ state.revoked → db.tables.Revokes grant) := by
  simp only [opened, loadNode_openDatabase, bind_eq_ok, require_eq_ok, liftError_eq_ok,
    pure_eq_ok] at h
  obtain ⟨o, ho, m, rfl, u, hu, heq⟩ := h
  cases heq
  refine ⟨ho, ?_⟩
  intro grant
  apply journalState_origin db n.g state
  simp only [openStore, bind_eq_ok, exists_unit_iff] at hu
  obtain ⟨_, es, hload, hreplay⟩ := hu
  simp only [journalState, bind_eq_ok, liftError_eq_ok]
  refine ⟨es, ?_, hreplay⟩
  rw [openDatabase_of db n ho] at hload
  exact hload

theorem Inv.foreign (h : s.Inv i chain) (n : Node) (hn : loadNode (s.fleet.node i) = .ok (some n))
    (a : Adoption) (ha : s.adoptions.Waiting a) : a.Of n ∨ s.fleet.Ended chain s.past.recorded a := by
  rcases h.place a (h.waiting a ha) with ⟨m, hm, hof⟩ | hended
  · cases hm.symm.trans hn
    exact .inl hof
  · exact .inr hended

/-- `maintain` on the node as it is. -/
theorem Inv.tidies (h : s.Inv i chain) (n : Node) (state : State) (now : Int64) (u v : Adoptions)
    (hopen : opened (openDatabase (s.fleet.node i)) = .ok (n, state))
    (hm : s.adoptions.maintain n state now = .ok v) (hwaiting : ∀ a, u.Waiting a ↔ v.Waiting a)
    (hfiled : ∀ a, u.Filed a ↔ v.Filed a) (hmarks : ∀ g ∈ v.cancelled, g ∈ u.cancelled) :
    Tidies chain s n state now u v := by
  obtain ⟨hn, horigin⟩ := opened_origin _ n state hopen
  refine ⟨Adoptions.maintain_spec _ v n state now hm, hwaiting, hfiled, hmarks, ?_, ?_, ?_⟩
  · exact fun g hg => h.adopts g ((horigin g).1 hg)
  · exact fun g hg => h.revokes g ((horigin g).2 hg)
  · intro a ha
    rcases h.foreign n hn a ha with hof | hended
    · exact .inl hof
    · exact .inr (.inl hended)

/-- `maintain` on the node as the worker has read it. -/
theorem Inv.tidies_read (h : s.Inv i chain) (n : Node) (owner : Option String)
    (rest : List (String × ClusterPairingIntent)) (state : State) (now : Int64) (u v : Adoptions)
    (hworker : s.worker = .reading n owner rest)
    (hstate : journalState (s.fleet.node i) n.g = .ok state)
    (hm : s.adoptions.maintain n state now = .ok v) (hwaiting : ∀ a, u.Waiting a ↔ v.Waiting a)
    (hfiled : ∀ a, u.Filed a ↔ v.Filed a) (hmarks : ∀ g ∈ v.cancelled, g ∈ u.cancelled) :
    Tidies chain s n state now u v := by
  have horigin := journalState_origin _ n.g state hstate
  refine ⟨Adoptions.maintain_spec _ v n state now hm, hwaiting, hfiled, hmarks, ?_, ?_, ?_⟩
  · exact fun g hg => h.adopts g ((horigin g).1 hg)
  · exact fun g hg => h.revokes g ((horigin g).2 hg)
  · exact h.reading n owner rest hworker

theorem Inv.reconcile (h : s.Inv i chain) (active : List String) (purpose : Purpose) (n : Node)
    (state : State) (tables : Adoptions) (now : Int64)
    (hlock : s.lock = some (.reconciling active purpose))
    (hopen : opened (openDatabase (s.fleet.node i)) = .ok (n, state))
    (hc : s.adoptions.cancelInactive n state active now = .ok tables) :
    ((s.reads now).reconciled tables purpose).Inv i chain ∧
      s.Goes ((s.reads now).reconciled tables purpose) chain chain := by
  simp only [Adoptions.cancelInactive, bind_eq_ok, pure_eq_ok] at hc
  obtain ⟨v, hv, rfl⟩ := hc
  have d : Tidies chain s n state now (v.cancel fun r => r.adoption.owner ∉ active) v := by
    refine h.tidies n state now _ v hopen hv (fun _ => Iff.rfl) (fun _ => Iff.rfl) ?_
    intro g hg
    exact (Adoptions.mem_cancel v _ g).mpr (.inl hg)
  obtain ⟨hinv, hgoes⟩ := h.maintain d
  have hmarked : ∀ a ∈ s.past.covered, v.Waiting a →
      a.grant ∈ (v.cancel fun r => r.adoption.owner ∉ active).cancelled := by
    intro a ha hw
    refine Adoptions.mem_cancel_iff v (fun a => a.owner ∉ active) a hw ?_
    refine decide_eq_true fun howner => ?_
    exact (h.covered a ha).2.1 ((h.owners active purpose hlock).1 a.owner howner)
  have hactor : ∀ client owner, purpose = .handler client →
      some (Holder.running client) = some (.running (some owner)) → Present s.credentials owner := by
    intro client owner hp hl
    cases hl
    exact (h.owners active purpose hlock).2 owner hp
  cases purpose with
  | worker =>
    obtain ⟨hinv', hgoes'⟩ := hinv.relock none _ s.past.covered rfl (fun _ h => h) (fun _ h => h)
      (by simp) (by simp) (by simp)
      fun a ha hno hp => absurd (hmarked a ha hp.1) hno
    exact ⟨hinv', hgoes.trans hgoes'⟩
  | handler client =>
    obtain ⟨hinv', hgoes'⟩ := hinv.relock (some (.running client)) _ s.past.reconciled rfl
      (fun _ h => h) h.reconciled (by simp) (by simp)
      (fun owner => hactor client owner rfl)
      fun a ha hno hp => absurd (hmarked a ha hp.1) hno
    exact ⟨hinv', hgoes.trans hgoes'⟩

end

end Adopting
end
end Rieul.Cluster
