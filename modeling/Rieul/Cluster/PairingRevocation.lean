import Rieul.Cluster.AdoptionSteps
import Rieul.Cluster.Handoff

/-!
# Revoking a pairing (daemon/host/src/cluster/primary/runtime/adoption.rs)

The invariant holds of every reachable state. A request whose owner was removed
before its acceptance was recorded is marked by the next reconcile of the worker,
and goes only when it is revoked, has expired or can be accepted no more.
-/

namespace Rieul.Cluster
open Bytes Fallible System
open Rieul.Server (ClientCredentials)

section
variable [Platform] {ι : Type} [DecidableEq ι]

theorem Fleet.Called.loaded {w w' : Fleet ι} {i : ι} {c : Call} (h : w.Called i c w') :
    ∃ n, loadNode (w.node i) = .ok (some n) := by
  obtain ⟨_, n, before, _, hopen, _⟩ := h
  exact ⟨n, (Adopting.opened_origin _ n before hopen).1⟩

namespace Adopting
variable {s t : Adopting ι} {i : ι} {chain chain' : Genesis → List Entry}

omit [DecidableEq ι] in
theorem Inv.life (h : s.Inv i chain) (n : Node) (hn : loadNode (s.fleet.node i) = .ok (some n)) :
    ∃ es u, Life (s.fleet.node i) n es u := by
  rcases h.fleet.nodes i with ⟨hnone, _⟩ | ⟨m, es, u, hl, _⟩
  · simp [loadNode, hnone] at hn
  · cases hn.symm.trans hl.loaded
    exact ⟨es, u, hl⟩

omit [DecidableEq ι] in
theorem Inv.opens_adopts (h : s.Inv i chain) (grant : Id)
    (ha : (openDatabase (s.fleet.node i)).tables.Adopts grant) :
    (s.fleet.node i).tables.Adopts grant := by
  rcases h.fleet.nodes i with ⟨hnone, _⟩ | ⟨n, es, u, hl, _⟩
  · have hsame : openDatabase (s.fleet.node i) = s.fleet.node i := by
      simp [openDatabase, loadNode, hnone]
    rw [hsame] at ha
    exact ha
  · rw [openDatabase_of _ n hl.loaded] at ha
    exact ha

theorem Inv.moves [LawfulPlatform] (h : s.Inv i chain) {w : Fleet ι} (hstep : s.fleet.Step w)
    (hproved : s.Proved w)
    (hpending : ∀ a ∈ s.past.covered, s.Pending a → ¬ (w.node i).tables.Adopts a.grant) :
    ∃ chain', (s.saw i w).Inv i chain' ∧ s.Goes (s.saw i w) chain chain' :=
  h.saw hstep s.past.released rfl hproved (fun _ hg => .inl hg)
    fun a ha _ hp => hpending a ha hp

/-- A commit of `get` accepts nothing that a removed client waits for. -/
theorem Inv.get [LawfulPlatform] (h : s.Inv i chain) (owner : String) (grant : Id) (epoch : UInt64)
    (intent : ClusterPairingIntent) (w : Fleet ι) (released : Set Id) (hactor : s.ActsFor owner)
    (hintent : s.adoptions.getIntent owner grant = .ok (some intent))
    (hcall : s.fleet.Called i (.getAdoption epoch grant intent) w)
    (hreleased : released = s.past.released ∪ {g | g = grant ∧ (w.node i).tables.Adopts g})
    (hproved : ∀ a ∈ s.past.begun, w.Accepts a → a.grant ∈ released) :
    ∃ chain', Inv { s.saw i w with past := { (s.saw i w).past with released := released } } i
      chain' ∧ s.Goes { s.saw i w with past := { (s.saw i w).past with released := released } }
        chain chain' := by
  obtain ⟨b, hb, hgrant, howner, hchallenge⟩ :=
    Adoptions.getIntent_spec s.adoptions owner grant intent hintent
  have hbegun : b ∈ s.past.begun := by
    rcases hb with hb | hb
    · exact h.waiting b hb
    · exact (h.filed b hb).1
  apply h.saw hcall.step released rfl hproved
  · intro g hg
    rw [hreleased] at hg
    rcases hg with hg | ⟨rfl, hg⟩
    · exact .inl hg
    · exact .inr ⟨hg, b, hb, hgrant⟩
  · intro a ha _ hp hadopts
    obtain ⟨n, hn⟩ := hcall.loaded
    obtain ⟨es, u, hl⟩ := h.life n hn
    rcases hcall.adopts hl a.grant hadopts with hadopts | hdata
    · exact hp.2.1 (h.adopts a.grant hadopts)
    · rw [hchallenge] at hdata
      have hsame : a = b :=
        h.unique a (h.covered a ha).1 b hbegun (Fixed.ext' hdata)
      have hpresent : Present s.credentials a.owner := by
        rw [hsame, howner]
        exact h.actor owner hactor
      exact (h.covered a ha).2.1 hpresent

section
omit [DecidableEq ι]

theorem Inv.begin (h : s.Inv i chain) (owner : String) (n : Node) (state : State)
    (expiresAtUnix : Int64) (client : Id) (now : Int64) (grant : Id)
    (challenge : ClientAdoptionChallenge) (tables : Adoptions)
    (hopen : opened (openDatabase (s.fleet.node i)) = .ok (n, state)) (hfresh : s.Fresh grant)
    (hbegin : s.adoptions.begin (openDatabase (s.fleet.node i)) n state owner expiresAtUnix client
      now grant = .ok (challenge, tables))
    (ht : t = { s.reads now with
      adoptions := tables
      past := { (s.reads now).past with begun := s.past.begun ∪ {a | tables.Waiting a} } }) :
    t.Inv i chain ∧ s.Goes t chain chain := by
  obtain ⟨v, hv, hcase⟩ := Adoptions.begin_spec _ _ _ _ _ _ _ _ _ _ _ hbegin
  obtain ⟨hinv, hgoes⟩ :=
    h.maintain (h.tidies n state now v v hopen hv (fun _ => Iff.rfl) (fun _ => Iff.rfl)
      fun _ hg => hg)
  have hold : s.past.begun ∪ {a | v.Waiting a} = s.past.begun := by
    apply Set.union_eq_self_of_subset_right
    exact fun a ha => hinv.waiting a ha
  rcases hcase with rfl | ⟨a, hgrant, _, hof, rfl⟩
  · subst ht
    rw [hold]
    exact ⟨hinv, hgoes⟩
  · have hn := (opened_origin _ n state hopen).1
    obtain ⟨hinv', hgoes'⟩ := hinv.insert a n hn hof (hgrant.symm ▸ hfresh)
    have hbegun : s.past.begun ∪
        {b | Adoptions.Waiting { v with outbox := v.outbox ++ [⟨a, none, none⟩] } b} =
        s.past.begun ∪ {a} := by
      apply Set.ext
      intro b
      have hw := insert_waiting { s.reads now with adoptions := v } a b
      constructor
      · intro hb
        rcases hb with hb | hb
        · exact .inl hb
        · rcases hw.mp hb with hb | hb
          · exact .inl (hinv.waiting b hb)
          · exact .inr hb
      · intro hb
        rcases hb with hb | hb
        · exact .inl hb
        · exact .inr (hw.mpr (.inr hb))
    subst ht
    rw [hbegun]
    exact ⟨hinv', hgoes.trans hgoes'⟩

theorem Inv.proofs (h : s.Inv i chain) (tables : Adoptions) (released : Set Id)
    (ht : t = { s with adoptions := tables, past := { s.past with released := released } })
    (hwaiting : ∀ a, tables.Waiting a ↔ s.adoptions.Waiting a)
    (hfiled : ∀ a, tables.Filed a ↔ s.adoptions.Filed a)
    (hcancelled : tables.cancelled = s.adoptions.cancelled)
    (hsub : s.past.released ⊆ released)
    (hreleased : ∀ g ∈ released, g ∈ s.past.released ∨
      ∃ x : String × ClusterPairingIntent, s.lock = some (.dispatching x.1 x.2) ∧
        x.2.challenge.grantId = g.data) :
    t.Inv i chain ∧ s.Goes t chain chain := by
  subst ht
  apply h.frame
  constructor
  case waiting => exact hwaiting
  case filed => exact hfiled
  case cancelled => exact hcancelled
  case credentials => rfl
  case begun => rfl
  case covered => rfl
  case fleet => exact h.fleet
  case chain => exact fun _ => List.prefix_rfl
  case lives => exact fun _ hl => hl
  case adopts => exact h.adopts
  case revokes => exact h.revokes
  case proved => exact fun a ha haccepts => hsub (h.proved a ha haccepts)
  case recorded => exact fun _ hr => hr
  case revoked => exact fun _ hr => hr
  case times => exact fun _ hr => hr
  case released =>
    intro g hg
    rcases hreleased g hg with hg | ⟨x, hx, hdata⟩
    · exact .inl hg
    · exact .inr (.inl ⟨x, .inr hx, hdata⟩)
  case queued => exact fun _ hx => .inl hx
  case exclusive => exact h.exclusive
  case reading =>
    intro n owner rest hworker a ha
    rcases h.reading n owner rest hworker a ha with hof | hended | hr | ⟨hr, hq⟩
    · exact .inl hof
    · exact .inr (.inl hended)
    · exact .inr (.inr (.inl hr))
    · right
      right
      right
      refine ⟨?_, hq⟩
      intro hg
      rcases hreleased a.grant hg with hg | ⟨x, hx, hdata⟩
      · exact hr hg
      · exact hq x (.inr hx) hdata
  case place => exact h.place
  case owners => exact h.owners
  case actor => exact h.actor
  case reconciled => exact h.reconciled
  case pending => exact fun a _ _ hp => ⟨hp.2.1, hp.2.2.1, hp.2.2.2⟩

theorem Inv.works (h : s.Inv i chain) (worker : Worker) (times : Set Int64)
    (ht : t = { s with worker := worker, past := { s.past with times := times } })
    (htimes : s.past.times ⊆ times)
    (hqueued : ∀ x ∈ worker.rest, s.Queued x ∨
      ∃ a, s.adoptions.Waiting a ∧ x.1 = a.owner ∧ x.2.challenge = a.challenge)
    (hexclusive : s.Dispatching → ∃ rest, worker = .dispatching rest)
    (hreading : ∀ n owner rest, worker = .reading n owner rest → ∀ a, s.adoptions.Waiting a →
      a.Of n ∨ s.fleet.Ended chain s.past.recorded a) :
    t.Inv i chain ∧ s.Goes t chain chain := by
  apply h.still s.lock worker times s.past.reconciled ht htimes h.reconciled
  · intro x hx
    subst ht
    rcases hx with hx | hx
    · exact hqueued x hx
    · exact .inl (.inr hx)
  · subst ht
    exact hexclusive
  · intro n owner rest hr a ha
    subst ht
    rcases hreading n owner rest hr a ha with hof | hended
    · exact .inl hof
    · exact .inr (.inl hended)
  · exact h.owners
  · subst ht
    exact h.actor
  · intro a _ _ hp
    subst ht
    exact ⟨hp.2.2.1, hp.2.2.2⟩

/-- The worker opens the database. -/
theorem Inv.opens (h : s.Inv i chain) (n : Node) (state : State) (owner : Option String)
    (rest : List (String × ClusterPairingIntent)) (hrest : rest ⊆ s.worker.rest)
    (hlock : ¬ s.Dispatching) (hopen : opened (openDatabase (s.fleet.node i)) = .ok (n, state)) :
    Inv { s with worker := .reading n owner rest } i chain ∧
      s.Goes { s with worker := .reading n owner rest } chain chain := by
  have hn := (opened_origin _ n state hopen).1
  refine h.works (.reading n owner rest) s.past.times rfl (fun _ ht => ht)
    (fun x hx => .inl (.inl (hrest hx))) (fun hd => absurd hd hlock) ?_
  intro m owner' rest' hr a ha
  cases hr
  exact h.foreign n hn a ha

/-- The worker lists what it dispatches, after `maintain`. -/
theorem Inv.lists (h : s.Inv i chain) {n : Node} {state : State} {now : Int64} {u v : Adoptions}
    (d : Tidies chain s n state now u v) (list : List (String × ClusterPairingIntent))
    (hlist : ∀ x ∈ list, x ∈ s.worker.rest ∨
      ∃ a, u.Waiting a ∧ x.1 = a.owner ∧ x.2.challenge = a.challenge) :
    Inv { s.reads now with adoptions := u, worker := .dispatching list } i chain ∧
      s.Goes { s.reads now with adoptions := u, worker := .dispatching list } chain chain := by
  obtain ⟨hinv, hgoes⟩ := h.maintain d
  obtain ⟨hinv', hgoes'⟩ := hinv.works (.dispatching list) _ rfl (fun _ ht => ht)
    (fun x hx => (hlist x hx).imp_left .inl) (fun _ => ⟨list, rfl⟩) (by intros; contradiction)
  exact ⟨hinv', hgoes.trans hgoes'⟩

theorem Inv.dispatch (h : s.Inv i chain) (owner : String) (intent : ClusterPairingIntent)
    (rest : List (String × ClusterPairingIntent)) (now : Int64)
    (hworker : s.worker = .dispatching ((owner, intent) :: rest))
    (hactive : owner ∈ activeClients s.credentials now) (ht : t = { s.reads now with
      lock := some (.dispatching owner intent), worker := .dispatching rest }) :
    t.Inv i chain ∧ s.Goes t chain chain := by
  subst ht
  refine h.still (some (.dispatching owner intent)) (.dispatching rest) _ s.past.reconciled rfl
    (Set.subset_insert _ _) h.reconciled ?_ (fun _ => ⟨rest, rfl⟩) (by intros; contradiction)
    nofun ?_ ?_
  · intro x hx
    left
    left
    rw [hworker]
    rcases hx with hx | hx
    · exact List.mem_cons_of_mem _ hx
    · cases hx
      exact List.mem_cons_self
  · intro owner' hactor
    rcases hactor with hl | ⟨_, hl⟩
    · cases hl
    · cases hl
      exact active_present _ now owner hactive
  · intro a _ _ hp
    refine ⟨?_, hp.2.2.2⟩
    rintro ⟨client, hl⟩
    cases hl

theorem Inv.restart (h : s.Inv i chain) :
    Inv { s with lock := none, worker := .idle } i chain ∧
      s.Goes { s with lock := none, worker := .idle } chain chain := by
  refine h.still none .idle s.past.times s.past.reconciled rfl (fun _ ht => ht) h.reconciled ?_ ?_
    (by intros; contradiction) nofun ?_ ?_
  · intro x hx
    rcases hx with hx | hx
    · cases hx
    · cases hx
  · rintro ⟨_, _, h⟩
    cases h
  · intro owner hactor
    rcases hactor with hl | ⟨_, hl⟩
    · cases hl
    · cases hl
  · intro a _ _ hp
    refine ⟨?_, hp.2.2.2⟩
    rintro ⟨client, hl⟩
    cases hl

end

theorem Inv.step [LawfulPlatform] (h : s.Inv i chain) (hstep : s.Step i t) :
    ∃ chain', t.Inv i chain' ∧ s.Goes t chain chain' := by
  cases hstep with
  | elsewhere w hw hi hproved =>
    apply h.moves hw hproved
    intro a _ hp hadopts
    rcases hi with hi | hi
    · rw [hi] at hadopts
      exact hp.2.1 (h.adopts a.grant hadopts)
    · rw [hi] at hadopts
      exact hp.2.1 (h.adopts a.grant (h.opens_adopts a.grant hadopts))
  | write records hlock => exact ⟨chain, h.write records hlock⟩
  | enter purpose now hlock hclient =>
    refine ⟨chain, h.relock _ _ s.past.reconciled rfl (Set.subset_insert _ _) h.reconciled
      (by simp) ?_
      (by simp) fun a _ _ hp => ⟨by simp, hp.2.2.2⟩⟩
    intro active purpose' hl
    cases hl
    constructor
    · exact fun owner howner => active_present _ now owner howner
    · exact fun client hp => active_present _ now client (hclient client hp)
  | reconcile active purpose n state tables now hlock hopen hc =>
    exact ⟨chain, h.reconcile active purpose n state tables now hlock hopen hc⟩
  | skip active client hlock hnone hempty =>
    refine ⟨chain, h.relock (some (.running client)) s.past.times s.past.reconciled rfl
      (fun _ ht => ht) h.reconciled (by simp) (by simp) ?_ ?_⟩
    · intro owner hl
      cases hl
      exact (h.owners active _ hlock).2 owner rfl
    · intro a _ _ hp
      obtain ⟨r, hr, _⟩ := hp.1
      rw [hempty] at hr
      exact absurd hr List.not_mem_nil
  | body w client hw hlock hproved =>
    apply h.moves hw hproved
    intro a _ hp
    exact absurd ⟨client, hlock⟩ hp.2.2.1
  | begin owner n state expiresAtUnix client now grant challenge tables hlock hopen hfresh hb =>
    exact ⟨chain, h.begin owner n state expiresAtUnix client now grant challenge tables hopen hfresh
      hb rfl⟩
  | complete owner n state grantId clientProof now tables hlock hopen hc =>
    obtain ⟨grant, proof, proof', rfl⟩ := Adoptions.complete_spec _ _ _ _ _ _ _ _ hc
    exact ⟨chain, h.proofs _ s.past.released rfl (Adoptions.waiting_prove _ grant proof proof')
      (fun _ => Iff.rfl) rfl (fun _ hg => hg) fun _ hg => .inl hg⟩
  | get owner grant epoch intent w released hactor hintent hcall hreleased hproved =>
    exact h.get owner grant epoch intent w released hactor hintent hcall hreleased hproved
  | release holder hlock =>
    exact ⟨chain, h.relock none s.past.times s.past.reconciled rfl (fun _ ht => ht) h.reconciled
      (by simp) (by simp) (by simp)
      fun a _ _ hp => ⟨by simp, hp.2.2.2⟩⟩
  | read n state hworker hopen =>
    have hdispatching : ¬ s.Dispatching := by
      intro hd
      obtain ⟨rest, hrest⟩ := h.exclusive hd
      cases hworker.symm.trans hrest
    exact ⟨chain, h.opens n state none [] (List.nil_subset _) hdispatching hopen⟩
  | intents n rest state tables intents now hworker hstate hp =>
    obtain ⟨hm, hintents⟩ := Adoptions.pendingIntents_spec _ _ _ _ _ _ hp
    have d := h.tidies_read n none rest state now tables tables hworker hstate hm
      (fun _ => Iff.rfl) (fun _ => Iff.rfl) fun _ hg => hg
    exact ⟨chain, h.lists d intents fun x hx => .inr (hintents x hx)⟩
  | dispatch owner intent rest now hworker hlock hactive =>
    exact ⟨chain, h.dispatch owner intent rest now hworker hactive rfl⟩
  | refuse owner intent rest now hworker hlock hactive =>
    refine ⟨chain, h.works (.refusing owner rest) _ rfl (Set.subset_insert _ _)
      (fun x hx => .inl (.inl ?_)) ?_ (by intros; contradiction)⟩
    · rw [hworker]
      exact List.mem_cons_of_mem _ hx
    · intro hd
      obtain ⟨_, _, hl⟩ := hd
      cases hlock.symm.trans hl
  | readOwner owner n state rest hworker hlock hopen =>
    have hrest : s.worker.rest = rest := by rw [hworker]; rfl
    exact ⟨chain, h.opens n state (some owner) rest (fun _ hx => hrest.symm ▸ hx) hlock hopen⟩
  | cancelOwner n owner rest state tables now hworker hstate hc =>
    simp only [Adoptions.cancelOwner, bind_eq_ok, pure_eq_ok] at hc
    obtain ⟨v, hv, rfl⟩ := hc
    have d := h.tidies_read n (some owner) rest state now
      (v.cancel fun r => r.adoption.owner = owner) v hworker hstate hv (fun _ => Iff.rfl)
      (fun _ => Iff.rfl) fun g hg => (Adoptions.mem_cancel v _ g).mpr (.inl hg)
    have hrest : s.worker.rest = rest := by rw [hworker]; rfl
    exact ⟨chain, h.lists d rest fun x hx => .inl (hrest.symm ▸ hx)⟩
  | send owner intent hlock =>
    refine ⟨chain, h.proofs s.adoptions _ rfl (fun _ => Iff.rfl) (fun _ => Iff.rfl) rfl
      Set.subset_union_left ?_⟩
    intro g hg
    rcases hg with hg | hg
    · exact .inl hg
    · exact .inr ⟨(owner, intent), hlock, Eq.symm hg⟩
  | revoke auth operation epoch grant w hcall hproved =>
    apply h.moves hcall.step hproved
    intro a _ hp hadopts
    obtain ⟨n, hn⟩ := hcall.loaded
    obtain ⟨es, u, hl⟩ := h.life n hn
    exact hp.2.1 (h.adopts a.grant (hcall.revokes hl a.grant hadopts))
  | tick hlock =>
    exact ⟨chain, h.works .idle s.past.times rfl (fun _ ht => ht) (by intros; contradiction)
      (fun hd => absurd hd hlock) (by intros; contradiction)⟩
  | restart => exact ⟨chain, h.restart⟩

omit [DecidableEq ι] in
theorem Initial.inv (h : s.Initial) : s.Inv i fun _ => [] := by
  obtain ⟨hfleet, hadoptions, hlock, hworker, hpast⟩ := h
  have hlog : ∀ r, r ∉ (s.fleet.node i).tables.log := by
    intro r
    rw [hfleet.1 i]
    exact List.not_mem_nil
  have hbegun : ∀ a, a ∉ s.past.begun := by
    intro a
    rw [hpast]
    exact id
  constructor
  case fleet => exact hfleet.inv
  case adopts =>
    intro g hg
    obtain ⟨r, hr, _⟩ := hg
    exact absurd hr (hlog r)
  case revokes =>
    intro g hg
    obtain ⟨r, hr, _⟩ := hg
    exact absurd hr (hlog r)
  case proved => exact fun a ha => absurd ha (hbegun a)
  case unique => exact fun a ha => absurd ha (hbegun a)
  case waiting =>
    intro a ha
    obtain ⟨r, hr, _⟩ := ha
    rw [hadoptions] at hr
    exact absurd hr List.not_mem_nil
  case filed =>
    intro a ha
    obtain ⟨r, hr, _⟩ := ha
    rw [hadoptions] at hr
    exact absurd hr List.not_mem_nil
  case queued =>
    intro x hx
    rcases hx with hx | hx
    · rw [hworker] at hx
      exact absurd hx List.not_mem_nil
    · cases hlock.symm.trans hx
  case exclusive =>
    intro hd
    obtain ⟨_, _, hl⟩ := hd
    cases hlock.symm.trans hl
  case reading =>
    intro n owner rest hr
    cases hworker.symm.trans hr
  case place => exact fun a ha => absurd ha (hbegun a)
  case fate => exact fun a ha => absurd ha (hbegun a)
  case owners =>
    intro active purpose hl
    cases hlock.symm.trans hl
  case actor =>
    intro owner ha
    rcases ha with hl | ⟨_, hl⟩
    · cases hlock.symm.trans hl
    · cases hlock.symm.trans hl
  case covered =>
    intro a ha
    rw [hpast] at ha
    exact absurd ha id
  case reconciled =>
    intro a ha
    rw [hpast] at ha
    exact absurd ha id

theorem Reached.inv [LawfulPlatform] (h : s.Reached i) : ∃ chain, s.Inv i chain := by
  refine Reachable.invariant (fun s => ∃ chain, s.Inv i chain) ?_ ?_ h
  · exact fun s h0 => ⟨_, h0.inv⟩
  · intro s t hs hstep
    obtain ⟨chain, hs⟩ := hs
    obtain ⟨chain', ht, _⟩ := hs.step hstep
    exact ⟨chain', ht⟩

theorem Later.goes [LawfulPlatform] (h : s.Inv i chain) (hl : s.Later i t) :
    ∃ chain', t.Inv i chain' ∧ s.Goes t chain chain' := by
  refine Reachable.invariant (fun t => ∃ chain', t.Inv i chain' ∧ s.Goes t chain chain') ?_ ?_ hl
  · intro t ht
    subst ht
    exact ⟨chain, h, fun _ ha => ha, fun _ _ hd => hd, fun _ hm => .inl hm, fun _ hr => hr,
      fun _ hr => hr⟩
  · intro t u ht hstep
    obtain ⟨chain', ht, hgoes⟩ := ht
    obtain ⟨chain'', hu, hgoes'⟩ := ht.step hstep
    exact ⟨chain'', hu, hgoes.trans hgoes'⟩

theorem Inv.dead_not_acceptable [LawfulPlatform] (h : s.Inv i chain) (a : Adoption)
    (hb : a ∈ s.past.begun) (hd : s.Dead chain a) : ¬ s.Acceptable i a := by
  intro ha
  obtain ⟨t, hl, haccepts⟩ := ha
  obtain ⟨chain', ht, hgoes⟩ := Later.goes h hl
  exact ht.dead_not_accepted a (hgoes.begun hb) (hgoes.dead a hb hd) haccepts

omit [DecidableEq ι] in
theorem Inv.accepts_recorded (h : s.Inv i chain) (a : Adoption)
    (ha : (s.fleet.node i).Accepts a) : a.grant ∈ s.past.recorded := by
  obtain ⟨n, es, _, _, hload, e, he, hadopts⟩ := ha
  obtain ⟨r, hr, hm⟩ := load_mem _ _ es hload e he
  exact h.adopts a.grant ⟨r, hr, e.mutation, a.issuer, hm, hadopts⟩

/-- For a request whose owner was removed before its acceptance was recorded: from the next
reconcile of the worker on it is marked, or has been revoked, or has expired, or is gone and can
be accepted no more; the same holds already when the journal has recorded its acceptance. It is
filed only with its revocation, goes only so, and is not dispatched. A mark stays. -/
theorem removal_covers [LawfulPlatform] (i : ι) (s : Adopting ι) (h : s.Reached i) :
    (∀ a ∈ s.past.covered,
      (a ∈ s.past.reconciled → s.Marked a ∨ a.grant ∈ s.past.revoked ∨ s.Expired a ∨
        ¬ s.adoptions.Waiting a ∧ ¬ s.Acceptable i a) ∧
      ((s.fleet.node i).Accepts a → s.Marked a ∨ a.grant ∈ s.past.revoked ∨ s.Expired a) ∧
      (s.adoptions.Filed a → a.grant ∈ s.past.revoked) ∧
      (¬ s.adoptions.Waiting a → a.grant ∈ s.past.revoked ∨ s.Expired a ∨ ¬ s.Acceptable i a) ∧
      ∀ owner intent, s.lock = some (.dispatching owner intent) → owner ≠ a.owner) ∧
    ∀ a, s.Marked a → ∀ t, s.Later i t →
      t.Marked a ∨ a.grant ∈ t.past.revoked ∨ t.Expired a := by
  obtain ⟨chain, h⟩ := h.inv
  constructor
  · intro a ha
    obtain ⟨hb, hpresent, hheld, hfiled⟩ := h.covered a ha
    refine ⟨?_, ?_, hfiled, ?_, ?_⟩
    · intro hrec
      rcases hheld with hm | hr | hd | ⟨_, he⟩ | hp
      · exact .inl hm
      · exact .inr (.inl hr)
      · exact .inr (.inr (.inr ⟨hd.1, h.dead_not_acceptable a hb hd⟩))
      · exact .inr (.inr (.inl he))
      · exact absurd hrec hp.2.2.2
    · intro haccepts
      rcases hheld with hm | hr | hd | ⟨_, he⟩ | hp
      · exact .inl hm
      · exact .inr (.inl hr)
      · exact absurd ⟨i, haccepts⟩ (h.dead_not_accepted a hb hd)
      · exact .inr (.inr he)
      · exact absurd (h.accepts_recorded a haccepts) hp.2.1
    · intro hw
      rcases hheld with hm | hr | hd | ⟨_, he⟩ | hp
      · exact absurd hm.1 hw
      · exact .inl hr
      · exact .inr (.inr (h.dead_not_acceptable a hb hd))
      · exact .inr (.inl he)
      · exact absurd hp.1 hw
    · intro owner intent hlock howner
      apply hpresent
      rw [← howner]
      exact h.actor owner (.inr ⟨intent, hlock⟩)
  · intro a hm t hl
    obtain ⟨_, _, hgoes⟩ := Later.goes h hl
    exact hgoes.marked a hm

end Adopting
end

section
attribute [local instance] residuePlatform residuePlatform_lawful

def sampleClients : ClientCredentials := [⟨"client", "label", "secret", 600, 9000⟩]

def sampleAdoption : Adoption :=
  ⟨Fixed.fill 32 7, "client", sampleGenesis.cluster, Fixed.fill 32 1, Fixed.fill 32 8, 9000⟩

def waitingTables : Adoptions := ⟨[⟨sampleAdoption, none, none⟩], [], []⟩

def markedTables : Adoptions := ⟨[⟨sampleAdoption, none, none⟩], [sampleAdoption.grant], []⟩

def sampleAnswers : Option (Adoptions × Adoptions × Adoptions) :=
  match opened (openDatabase rootDatabase) with
  | .ok (n, state) =>
    match Adoptions.empty.cancelInactive n state ["client"] 700,
        Adoptions.empty.begin (openDatabase rootDatabase) n state "client" 9000 (Fixed.fill 32 8) 700
          (Fixed.fill 32 7),
        waitingTables.cancelInactive n state [] 700 with
    | .ok t, .ok (_, t'), .ok t'' => some (t, t', t'')
    | _, _, _ => none
  | .error _ => none

theorem sampleAnswers_eq : sampleAnswers = some (Adoptions.empty, waitingTables, markedTables) := by
  decide +kernel

theorem rootDatabase_log : rootDatabase.tables.log = [] := by decide +kernel

theorem sampleClients_active : activeClients sampleClients 700 = ["client"] := by decide +kernel

theorem sampleAnswers_spec : ∃ n state challenge,
    opened (openDatabase rootDatabase) = .ok (n, state) ∧
    Adoptions.empty.cancelInactive n state ["client"] 700 = .ok Adoptions.empty ∧
    Adoptions.empty.begin (openDatabase rootDatabase) n state "client" 9000 (Fixed.fill 32 8) 700
      (Fixed.fill 32 7) = .ok (challenge, waitingTables) ∧
    waitingTables.cancelInactive n state [] 700 = .ok markedTables := by
  have h := sampleAnswers_eq
  unfold sampleAnswers at h
  split at h
  · rename_i n state hopen
    split at h
    · rename_i t challenge t' t'' hcancel hbegin hmark
      cases h
      exact ⟨n, state, challenge, hopen, hcancel, hbegin, hmark⟩
    · cases h
  · cases h

namespace Adopting

theorem removal_covers_sample : ∃ (s : Adopting Unit) (a : Adoption), a ∈ s.past.reconciled ∧
    (s.Marked a ∨ a.grant ∈ s.past.revoked ∨ s.Expired a ∨
      ¬ s.adoptions.Waiting a ∧ ¬ s.Acceptable () a) := by
  obtain ⟨n, state, challenge, hopen, hcancel, hbegin, hmark⟩ := sampleAnswers_spec
  have h0 : Reached () (⟨⟨fun _ => Database.empty, ∅, ∅⟩, Adoptions.empty, [], none, .idle,
      ⟨∅, ∅, ∅, ∅, ∅, ∅, ∅⟩⟩ : Adopting Unit) :=
    .start _ ⟨⟨fun _ => rfl, rfl, rfl⟩, rfl, rfl, rfl, rfl⟩
  have h1 := Reachable.next _ _ h0 (.enter (.handler none) 700 rfl (by simp))
  have h2 := Reachable.next _ _ h1 (.skip _ none rfl rfl rfl)
  have hnone : ∀ (u : Unit) n, loadNode ((fun _ => Database.empty : Unit → Database) u) ≠
      .ok (some n) := by
    intro u n
    simp [loadNode, Database.empty]
  have hstart := Fleet.Step.start (w := ⟨fun _ => Database.empty, ∅, ∅⟩) () (Fixed.fill 32 60) none
    none "root" 700 rootRandomness none rootDatabase _ rfl rfl (by simp) rootDatabase_created
    rootDatabase_loads
    ⟨by simp, by simp, fun b n es s hn => absurd hn (hnone b n), fun _ b n hn =>
      absurd hn (hnone b n)⟩
  have h3 := Reachable.next _ _ h2 (.body _ none hstart rfl fun a ha => absurd ha id)
  have h4 := Reachable.next _ _ h3 (.release _ rfl)
  have h5 := Reachable.next _ _ h4 (.write sampleClients rfl)
  have h6 := Reachable.next _ _ h5 (.enter (.handler (some "client")) 700 rfl (by
    intro client hc
    cases hc
    show "client" ∈ activeClients sampleClients 700
    rw [sampleClients_active]
    exact List.mem_cons_self))
  have h7 := Reachable.next _ _ h6 (.reconcile ["client"] (.handler (some "client")) n state
    Adoptions.empty 700 (congrArg (fun l => some (Holder.reconciling l _)) sampleClients_active)
    hopen hcancel)
  have hfresh : ∀ a : Adoption, ¬ Fleet.Accepts (ι := Unit) ⟨Function.update (fun _ => Database.empty)
      () rootDatabase, ∅, ∅ ∪ {(sampleGenesis, Fixed.fill 32 1)}⟩ a := by
    intro a ha
    obtain ⟨_, m, es, _, _, hload, e, he, _⟩ := ha
    obtain ⟨r, hr, _⟩ := load_mem _ _ es hload e he
    exact absurd (rootDatabase_log ▸ hr) List.not_mem_nil
  have h8 := Reachable.next _ _ h7 (.begin "client" n state 9000 (Fixed.fill 32 8) 700
    (Fixed.fill 32 7) challenge waitingTables rfl hopen (fun a _ => ⟨id, hfresh a, id⟩) hbegin)
  have h9 := Reachable.next _ _ h8 (.release _ rfl)
  have h10 := Reachable.next _ _ h9 (.write [] rfl)
  have h11 := Reachable.next _ _ h10 (.enter .worker 700 rfl (by simp))
  have h12 := Reachable.next _ _ h11 (.reconcile [] .worker n state markedTables 700 rfl hopen hmark)
  have hlast : ∀ s : Adopting Unit, s.Reached () → sampleAdoption ∈ s.past.covered →
      s.past.covered = s.past.reconciled → ∃ (s : Adopting Unit) (a : Adoption),
        a ∈ s.past.reconciled ∧ (s.Marked a ∨ a.grant ∈ s.past.revoked ∨ s.Expired a ∨
          ¬ s.adoptions.Waiting a ∧ ¬ s.Acceptable () a) := by
    intro s hs hc heq
    have hr : sampleAdoption ∈ s.past.reconciled := heq ▸ hc
    exact ⟨s, sampleAdoption, hr, ((removal_covers () s hs).1 sampleAdoption hc).1 hr⟩
  apply hlast _ h12 _ rfl
  refine ⟨?_, .inr ⟨?_, ?_, ?_⟩⟩
  · intro hp
    obtain ⟨_, hr, _⟩ := hp
    exact absurd hr List.not_mem_nil
  · exact .inr ⟨_, List.mem_cons_self, rfl⟩
  · exact ⟨_, List.mem_cons_self, rfl⟩
  · intro hr
    rcases hr with hr | hr
    · exact hr
    · obtain ⟨r, hr, _⟩ := hr
      exact absurd (rootDatabase_log ▸ hr) List.not_mem_nil

end Adopting
end
end Rieul.Cluster
