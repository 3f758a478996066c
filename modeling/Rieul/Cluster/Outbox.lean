import Rieul.Cluster.AdoptionSpec
import Rieul.Cluster.Handoff

/-!
# The tables of the outbox over a run of accesses

Every access is one transaction, on the node row and the journal that it finds, or the read of
`pending_intents` after its transaction.
-/

namespace Rieul.Cluster
open Bytes Fallible
section
variable [Platform]

namespace Adoptions

/-- `pending_intents` is `maintain` and the read. -/
theorem pendingIntents_intents (t u : Adoptions) (n : Node) (state : State) (now : Int64)
    (rows : List (String × ClusterPairingIntent)) (h : t.pendingIntents n state now = .ok (u, rows)) :
    t.maintain n state now = .ok u ∧ u.intents n state now = rows := by
  simp only [pendingIntents, bind_eq_ok, pure_eq_ok] at h
  obtain ⟨v, hv, h⟩ := h
  cases h
  exact ⟨hv, rfl⟩

end Adoptions

structure Visit where
  node : Node
  tx : Database
  now : Int64

inductive Access where
  | begin (visit : Visit) (owner : String) (expiresAtUnix : Int64) (client : Id) (grant : Id)
  | complete (visit : Visit) (owner : String) (grantId clientProof : Str)
  | get (owner : String) (grant : Id)
  | maintain (visit : Visit)
  | pendingIntents (visit : Visit)
  /-- The read of `pending_intents`, when others have come between. -/
  | intents (node : Node) (state : State) (now : Int64)
  | cancelInactive (visit : Visit) (active : List String)
  | cancelOwner (visit : Visit) (owner : String)

inductive Handed where
  | nothing
  | challenge (challenge : ClientAdoptionChallenge)
  | intent (intent : Option ClusterPairingIntent)
  | intents (intents : List (String × ClusterPairingIntent))

def Handed.Gives (g : Id) : Handed → Prop
  | .nothing => False
  | .challenge c => c.grantId = g.data
  | .intent i => ∃ x ∈ i, x.challenge.grantId = g.data
  | .intents l => ∃ x ∈ l, x.2.challenge.grantId = g.data

def Visit.journal (v : Visit) : Except RuntimeError State := journalState v.tx v.node.g

namespace Access

def run (t : Adoptions) : Access → Except RuntimeError (Adoptions × Handed)
  | .begin v owner expiresAtUnix client grant => do
    let state ← v.journal
    let (challenge, t) ← t.begin v.tx v.node state owner expiresAtUnix client v.now grant
    pure (t, .challenge challenge)
  | .complete v owner grantId clientProof => do
    let t ← t.complete v.tx v.node owner grantId clientProof v.now
    pure (t, .nothing)
  | .get owner grant => do
    let intent ← t.getIntent owner grant
    pure (t, .intent intent)
  | .maintain v => do
    let state ← v.journal
    let t ← t.maintain v.node state v.now
    pure (t, .nothing)
  | .pendingIntents v => do
    requireMember v.node
    let state ← v.journal
    let (t, rows) ← t.pendingIntents v.node state v.now
    pure (t, .intents rows)
  | .intents n state now => pure (t, .intents (t.intents n state now))
  | .cancelInactive v active => do
    let state ← v.journal
    let t ← t.cancelInactive v.node state active v.now
    pure (t, .nothing)
  | .cancelOwner v owner => do
    let state ← v.journal
    let t ← t.cancelOwner v.node state owner v.now
    pure (t, .nothing)

def step (t : Adoptions) (a : Access) : Adoptions :=
  match a.run t with
  | .ok (t', _) => t'
  | .error _ => t

/-- The id that `random` has for a new request. -/
def draws : Access → Option Id
  | .begin _ _ _ _ grant => some grant
  | _ => none

def visit : Access → Option Visit
  | .begin v _ _ _ _ | .complete v _ _ _ | .maintain v | .pendingIntents v | .cancelInactive v _
  | .cancelOwner v _ => some v
  | .get _ _ | .intents _ _ _ => none

def Revokes (a : Access) (g : Id) : Prop :=
  ∃ v ∈ a.visit, ∃ state, v.journal = .ok state ∧ g ∈ state.revoked

def tables (accesses : List Access) : Adoptions := accesses.foldl step Adoptions.empty

theorem tables_snoc (accesses : List Access) (a : Access) :
    tables (accesses ++ [a]) = step (tables accesses) a := by
  unfold tables
  rw [List.foldl_append]
  rfl

end Access

namespace Adoptions

structure Orderly (t : Adoptions) : Prop where
  apart : ∀ a b, t.Waiting a → t.Filed b → a.grant ≠ b.grant
  marks : ∀ g ∈ t.cancelled, ∃ a, t.Waiting a ∧ a.grant = g
  bounded : t.outbox.length ≤ maxOutbox

def Drawn (t : Adoptions) (ids : List Id) : Prop :=
  ∀ a, t.Waiting a ∨ t.Filed a → a.grant ∈ ids

def Retired (t : Adoptions) (g : Id) : Prop :=
  (∀ a, t.Waiting a → a.grant = g → g ∈ t.cancelled) ∧ ∀ a, t.Filed a → a.grant ≠ g

section
omit [Platform]

theorem Orderly.retired {t : Adoptions} (h : t.Orderly) (g : Id) (hg : g ∈ t.cancelled) :
    t.Retired g := by
  refine ⟨fun _ _ _ => hg, ?_⟩
  intro b hb
  obtain ⟨a, ha, rfl⟩ := h.marks g hg
  exact (h.apart a b ha hb).symm

theorem archive_sublist (t : Adoptions) (grant : Id) :
    (t.archive grant).outbox.Sublist t.outbox := List.filter_sublist

theorem archive_apart (t : Adoptions) (grant : Id)
    (h : ∀ a b, t.Waiting a → t.Filed b → a.grant ≠ b.grant) (a b : Adoption)
    (ha : (t.archive grant).Waiting a) (hb : (t.archive grant).Filed b) : a.grant ≠ b.grant := by
  obtain ⟨r, hr, rfl⟩ := ha
  obtain ⟨r', hr', rfl⟩ := hb
  obtain ⟨hr, hne⟩ := List.mem_filter.mp hr
  unfold archive at hr'
  split at hr'
  · exact h _ _ ⟨r, hr, rfl⟩ ⟨r', hr', rfl⟩
  · rcases List.mem_append.mp hr' with hr' | hr'
    · exact h _ _ ⟨r, hr, rfl⟩ ⟨r', hr', rfl⟩
    · rw [of_decide_eq_true (List.mem_filter.mp hr').2]
      exact of_decide_eq_true hne

theorem settle_foldl (state : State) (grants : List Id) (t : Adoptions)
    (h : ∀ a b, t.Waiting a → t.Filed b → a.grant ≠ b.grant) :
    (grants.foldl (settle state) t).outbox.Sublist t.outbox ∧
      ∀ a b, (grants.foldl (settle state) t).Waiting a → (grants.foldl (settle state) t).Filed b →
        a.grant ≠ b.grant := by
  induction grants generalizing t with
  | nil => exact ⟨List.Sublist.refl _, h⟩
  | cons grant grants ih =>
    have hstep : (settle state t grant).outbox.Sublist t.outbox ∧
        ∀ a b, (settle state t grant).Waiting a → (settle state t grant).Filed b →
          a.grant ≠ b.grant := by
      unfold settle
      split
      · exact ⟨t.archive_sublist grant, t.archive_apart grant h⟩
      · exact ⟨List.Sublist.refl _, h⟩
    obtain ⟨hsub, hapart⟩ := ih _ hstep.2
    exact ⟨hsub.trans hstep.1, hapart⟩

end

theorem Orderly.maintain {t t' : Adoptions} (h : t.Orderly) (n : Node) (state : State) (now : Int64)
    (hm : t.maintain n state now = .ok t') : t'.Orderly := by
  simp only [Adoptions.maintain, bind_eq_ok, exists_unit_iff, pure_eq_ok] at hm
  obtain ⟨_, rfl⟩ := hm
  obtain ⟨hsub, hapart⟩ := settle_foldl state
    (((t.outbox.filter fun r => t.stale n now r = false).filter fun r =>
      r.adoption.cluster = n.g.cluster).map fun r => r.adoption.grant)
    { t with
      outbox := t.outbox.filter fun r => t.stale n now r = false
      receipts := t.receipts.filter fun r =>
        ¬ (r.adoption.expires ≤ now ∨ r.adoption.cluster ≠ n.g.cluster) } (by
      intro a b ha hb
      obtain ⟨r, hr, rfl⟩ := ha
      obtain ⟨r', hr', rfl⟩ := hb
      exact h.apart _ _ ⟨r, (List.mem_filter.mp hr).1, rfl⟩ ⟨r', (List.mem_filter.mp hr').1, rfl⟩)
  generalize List.foldl (settle state) _ _ = u at hsub hapart
  refine ⟨hapart, ?_, ?_⟩
  · intro g hg
    obtain ⟨r, hr, hgrant⟩ := List.any_eq_true.mp (List.mem_filter.mp hg).2
    exact ⟨r.adoption, ⟨r, hr, rfl⟩, of_decide_eq_true hgrant⟩
  · exact (hsub.trans List.filter_sublist).length_le.trans h.bounded

theorem Drawn.maintain {t t' : Adoptions} {ids : List Id} (h : t.Drawn ids) (n : Node)
    (state : State) (now : Int64) (hm : t.maintain n state now = .ok t') : t'.Drawn ids := by
  have hs := maintain_spec t t' n state now hm
  intro a ha
  rcases ha with hw | hf
  · exact h a (.inl (hs.waiting a hw))
  · rcases hs.filed a hf with hf | ⟨hw, _⟩
    · exact h a (.inr hf)
    · exact h a (.inl hw)

theorem Retired.maintain {t t' : Adoptions} {g : Id} (h : t.Retired g) (n : Node)
    (state : State) (now : Int64) (hg : g ∉ state.revoked)
    (hm : t.maintain n state now = .ok t') : t'.Retired g := by
  have hs := maintain_spec t t' n state now hm
  constructor
  · intro a hw hgrant
    subst hgrant
    exact (hs.marked a hw).mpr (h.1 a (hs.waiting a hw) rfl)
  · intro a hf hgrant
    subst hgrant
    rcases hs.filed a hf with hf | ⟨hw, hsettles⟩
    · exact h.2 a hf rfl
    · rcases hsettles with hr | ⟨_, hno⟩
      · exact hg hr
      · exact hno (h.1 a hw rfl)

omit [Platform] in
theorem Orderly.cancel {t : Adoptions} (h : t.Orderly) (p : OutboxRow → Bool) :
    (t.cancel p).Orderly := by
  refine ⟨h.apart, ?_, h.bounded⟩
  intro g hg
  rcases (mem_cancel t p g).mp hg with hg | ⟨r, hr, _, hgrant⟩
  · exact h.marks g hg
  · exact ⟨r.adoption, ⟨r, hr, rfl⟩, hgrant⟩

omit [Platform] in
theorem Retired.cancel {t : Adoptions} {g : Id} (h : t.Retired g) (p : OutboxRow → Bool) :
    (t.cancel p).Retired g := by
  refine ⟨?_, h.2⟩
  intro a ha hgrant
  exact (mem_cancel t p g).mpr (.inl (h.1 a ha hgrant))

def enter (t : Adoptions) (a : Adoption) : Adoptions :=
  { t with outbox := t.outbox ++ [⟨a, none, none⟩] }

section
omit [Platform]

theorem waiting_enter (t : Adoptions) (a b : Adoption) :
    (t.enter a).Waiting b ↔ t.Waiting b ∨ a = b := by
  simp [enter, Waiting, or_and_right, exists_or]

theorem Orderly.enter {t : Adoptions} {ids : List Id} (h : t.Orderly) (hd : t.Drawn ids)
    (a : Adoption) (hnew : a.grant ∉ ids) (hroom : t.outbox.length < maxOutbox) :
    (t.enter a).Orderly := by
  constructor
  · intro b c hb hc
    rcases (waiting_enter t a b).mp hb with hb | rfl
    · exact h.apart b c hb hc
    · intro hgrant
      exact hnew (hgrant ▸ hd c (.inr hc))
  · intro g hg
    obtain ⟨b, hb, hgrant⟩ := h.marks g hg
    exact ⟨b, (waiting_enter t a b).mpr (.inl hb), hgrant⟩
  · simp only [Adoptions.enter, List.length_append, List.length_singleton]
    omega

theorem Retired.enter {t : Adoptions} {g : Id} (h : t.Retired g) (a : Adoption)
    (hnew : a.grant ≠ g) : (t.enter a).Retired g := by
  refine ⟨?_, h.2⟩
  intro b hb hgrant
  rcases (waiting_enter t a b).mp hb with hb | rfl
  · exact h.1 b hb hgrant
  · exact absurd hgrant hnew

theorem Orderly.prove {t : Adoptions} (h : t.Orderly) (grant : Id) (p p' : Signature) :
    (t.prove grant p p').Orderly := by
  constructor
  · intro a b ha hb
    exact h.apart a b ((waiting_prove t grant p p' a).mp ha) hb
  · intro g hg
    obtain ⟨a, ha, hgrant⟩ := h.marks g hg
    exact ⟨a, (waiting_prove t grant p p' a).mpr ha, hgrant⟩
  · unfold Adoptions.prove
    rw [List.length_map]
    exact h.bounded

theorem Retired.prove {t : Adoptions} {g : Id} (h : t.Retired g) (grant : Id) (p p' : Signature) :
    (t.prove grant p p').Retired g :=
  ⟨fun a ha => h.1 a ((waiting_prove t grant p p' a).mp ha), h.2⟩

end

def Unmarked (t : Adoptions) (g : Id) : Prop :=
  ∃ r ∈ t.outbox ++ t.receipts, r.adoption.grant = g ∧ g ∉ t.cancelled

omit [Platform] in
theorem Retired.not_unmarked {t : Adoptions} {g : Id} (h : t.Retired g) : ¬ t.Unmarked g := by
  intro hu
  obtain ⟨r, hr, hgrant, hno⟩ := hu
  rcases List.mem_append.mp hr with hr | hr
  · exact hno (h.1 _ ⟨r, hr, rfl⟩ hgrant)
  · exact h.2 _ ⟨r, hr, rfl⟩ hgrant

/-- What `begin` answers with: a row it has found, or the one it has entered. -/
theorem begin_cases (t t' : Adoptions) (tx : Database) (n : Node) (state : State) (owner : String)
    (expiresAtUnix : Int64) (client : Id) (now : Int64) (grant : Id)
    (challenge : ClientAdoptionChallenge)
    (h : t.begin tx n state owner expiresAtUnix client now grant = .ok (challenge, t')) :
    ∃ u, t.maintain n state now = .ok u ∧
      ((t' = u ∧ ∃ r ∈ u.outbox ++ u.receipts, challenge = r.adoption.challenge ∧
        r.adoption.grant ∉ state.revoked ∧ r.adoption.grant ∉ u.cancelled) ∨
      ∃ a : Adoption, a.grant = grant ∧ challenge = a.challenge ∧ u.outbox.length < maxOutbox ∧
        t' = u.enter a) := by
  simp only [Adoptions.begin, bind_eq_ok, exists_unit_iff] at h
  obtain ⟨current, _, _, _, _, u, hu, h⟩ := h
  refine ⟨u, hu, ?_⟩
  split at h
  · rename_i r hfound
    cases h
    have hp := List.find?_some hfound
    have hr := List.mem_mergeSort.mp (List.mem_of_find?_eq_some hfound)
    exact .inl ⟨rfl, r, (List.mem_filter.mp hr).1, rfl, of_decide_eq_true hp⟩
  · simp only [Adoptions.insert, bind_eq_ok, exists_unit_iff, ensure_eq_ok, pure_eq_ok] at h
    obtain ⟨hroom, v, ⟨_, rfl⟩, h⟩ := h
    cases h
    exact .inr ⟨_, rfl, rfl, hroom, rfl⟩

/-- A request that `complete` takes is there and not marked. -/
theorem complete_unmarked (t t' : Adoptions) (tx : Database) (n : Node) (owner : String)
    (grantId clientProof : Str) (now : Int64) (g : Id) (hg : readId grantId = .ok g)
    (h : t.complete tx n owner grantId clientProof now = .ok t') : t.Unmarked g := by
  simp only [Adoptions.complete, bind_eq_ok, exists_unit_iff, ensure_eq_ok, require_eq_ok, hg,
    Except.ok.injEq, exists_eq_left'] at h
  obtain ⟨_, _, _, _, r, hr, hno, _⟩ := h
  obtain ⟨_, hgrant, _⟩ := pending_some t owner g r hr
  exact ⟨r, List.mem_of_find?_eq_some hr, hgrant, hno⟩

theorem intents_unmarked (t : Adoptions) (n : Node) (state : State) (now : Int64) (g : Id)
    (x : String × ClusterPairingIntent) (hx : x ∈ t.intents n state now)
    (hg : x.2.challenge.grantId = g.data) : t.Unmarked g ∧ g ∉ state.revoked := by
  obtain ⟨r, hr, hready⟩ := List.mem_filterMap.mp (List.mem_of_mem_take hx)
  obtain ⟨hrow, hr⟩ := List.mem_filter.mp (List.mem_of_mem_take hr)
  unfold ready at hready
  split at hready
  · cases hready
  · rename_i hno
    obtain ⟨intent, hintent, rfl⟩ := Option.map_eq_some_iff.mp hready
    rw [intent_challenge r intent hintent] at hg
    have hgrant : r.adoption.grant = g := Fixed.ext' hg
    subst hgrant
    exact ⟨⟨r, List.mem_append_left _ hrow, rfl, (of_decide_eq_true hr).2.2⟩,
      fun hr => hno (.inr (.inl hr))⟩

end Adoptions

namespace Access
open Adoptions

def Tidied (a : Access) (t u : Adoptions) : Prop :=
  u = t ∨ ∃ v ∈ a.visit, ∃ state, v.journal = .ok state ∧ t.maintain v.node state v.now = .ok u

inductive Change (a : Access) (u : Adoptions) : Adoptions → Prop where
  | same : Change a u u
  | cancel (p : OutboxRow → Bool) : Change a u (u.cancel p)
  | enter (adoption : Adoption) (hdraw : a.draws = some adoption.grant)
      (hroom : u.outbox.length < maxOutbox) : Change a u (u.enter adoption)
  | prove (grant : Id) (clientProof issuerProof : Signature) :
      Change a u (u.prove grant clientProof issuerProof)

theorem run_spec (a : Access) (t t' : Adoptions) (handed : Handed)
    (h : a.run t = .ok (t', handed)) : ∃ u, a.Tidied t u ∧ a.Change u t' := by
  cases a with
  | «begin» v owner expiresAtUnix client grant =>
    simp only [run, bind_eq_ok, pure_eq_ok] at h
    obtain ⟨state, hstate, ⟨challenge, t''⟩, h, heq⟩ := h
    cases heq
    obtain ⟨u, hu, hcase⟩ := begin_cases t t'' v.tx v.node state owner expiresAtUnix client v.now
      grant challenge h
    refine ⟨u, .inr ⟨v, rfl, state, hstate, hu⟩, ?_⟩
    rcases hcase with ⟨rfl, _⟩ | ⟨b, rfl, _, hroom, rfl⟩
    · exact .same
    · exact .enter b rfl hroom
  | complete v owner grantId clientProof =>
    simp only [run, bind_eq_ok, pure_eq_ok] at h
    obtain ⟨t'', h, heq⟩ := h
    cases heq
    obtain ⟨grant, p, p', rfl⟩ := complete_spec t t' v.tx v.node owner grantId clientProof v.now h
    exact ⟨t, .inl rfl, .prove grant p p'⟩
  | get owner grant =>
    simp only [run, bind_eq_ok, pure_eq_ok] at h
    obtain ⟨_, _, heq⟩ := h
    cases heq
    exact ⟨t, .inl rfl, .same⟩
  | maintain v =>
    simp only [run, bind_eq_ok, pure_eq_ok] at h
    obtain ⟨state, hstate, u, hu, heq⟩ := h
    cases heq
    exact ⟨t', .inr ⟨v, rfl, state, hstate, hu⟩, .same⟩
  | pendingIntents v =>
    simp only [run, bind_eq_ok, exists_unit_iff, pure_eq_ok] at h
    obtain ⟨_, state, hstate, ⟨u, rows⟩, h, heq⟩ := h
    cases heq
    have hu := (pendingIntents_spec t u v.node state v.now rows h).1
    exact ⟨u, .inr ⟨v, rfl, state, hstate, hu⟩, .same⟩
  | intents n state now =>
    cases h
    exact ⟨t, .inl rfl, .same⟩
  | cancelInactive v active =>
    simp only [run, Adoptions.cancelInactive, bind_eq_ok, pure_eq_ok] at h
    obtain ⟨state, hstate, _, ⟨u, hu, rfl⟩, heq⟩ := h
    cases heq
    exact ⟨u, .inr ⟨v, rfl, state, hstate, hu⟩, .cancel _⟩
  | cancelOwner v owner =>
    simp only [run, Adoptions.cancelOwner, bind_eq_ok, pure_eq_ok] at h
    obtain ⟨state, hstate, _, ⟨u, hu, rfl⟩, heq⟩ := h
    cases heq
    exact ⟨u, .inr ⟨v, rfl, state, hstate, hu⟩, .cancel _⟩

theorem not_revokes (a : Access) (v : Visit) (state : State) {g : Id} (hs : v.journal = .ok state)
    (hg : g ∉ state.revoked) (hv : a.visit = some v) : ¬ a.Revokes g := by
  intro h
  obtain ⟨v', hv', state', hs', hg'⟩ := h
  cases Option.some.inj (hv.symm.trans hv')
  cases hs.symm.trans hs'
  exact hg hg'

theorem not_revokes_none (a : Access) {g : Id} (hv : a.visit = none) : ¬ a.Revokes g := by
  intro h
  obtain ⟨v, hv', _⟩ := h
  cases hv.symm.trans hv'

/-- A grant that is given out was drawn just now, or stood without a mark after `maintain`, in a
journal that does not have its revocation. -/
theorem run_gives (a : Access) (t t' : Adoptions) (handed : Handed) (g : Id)
    (h : a.run t = .ok (t', handed)) (hg : handed.Gives g) :
    a.draws = some g ∨ ¬ a.Revokes g ∧ ∃ u, a.Tidied t u ∧ u.Unmarked g := by
  cases a with
  | «begin» v owner expiresAtUnix client grant =>
    simp only [run, bind_eq_ok, pure_eq_ok] at h
    obtain ⟨state, hstate, ⟨challenge, t''⟩, h, heq⟩ := h
    cases heq
    obtain ⟨u, hu, hcase⟩ := begin_cases t t'' v.tx v.node state owner expiresAtUnix client v.now
      grant challenge h
    rcases hcase with ⟨rfl, r, hr, rfl, hno, hunmarked⟩ | ⟨b, rfl, rfl, _, _⟩
    · have hgrant : r.adoption.grant = g := Fixed.ext' hg
      subst hgrant
      exact .inr ⟨not_revokes _ v state hstate hno rfl, t'', .inr ⟨v, rfl, state, hstate, hu⟩, r, hr,
        rfl, hunmarked⟩
    · exact .inl (congrArg some (Fixed.ext' hg))
  | complete v owner grantId clientProof =>
    simp only [run, bind_eq_ok, pure_eq_ok] at h
    obtain ⟨_, _, heq⟩ := h
    cases heq
    exact hg.elim
  | get owner grant =>
    simp only [run, getIntent, bind_eq_ok, require_eq_ok, pure_eq_ok] at h
    obtain ⟨_, ⟨r, hr, rfl⟩, heq⟩ := h
    cases heq
    obtain ⟨intent, hintent, hdata⟩ := hg
    obtain ⟨_, hgrant, _⟩ := pending_some t owner grant r hr
    split at hintent
    · cases hintent
    · rename_i hunmarked
      rw [intent_challenge r intent hintent] at hdata
      have heq : r.adoption.grant = g := Fixed.ext' hdata
      refine .inr ⟨not_revokes_none _ rfl, t, .inl rfl, r, List.mem_of_find?_eq_some hr, heq, ?_⟩
      rw [← heq, hgrant]
      exact hunmarked
  | maintain v | cancelInactive v active | cancelOwner v owner =>
    simp only [run, bind_eq_ok, pure_eq_ok] at h
    obtain ⟨_, _, _, _, heq⟩ := h
    cases heq
    exact hg.elim
  | pendingIntents v =>
    simp only [run, bind_eq_ok, exists_unit_iff, pure_eq_ok] at h
    obtain ⟨_, state, hstate, ⟨u, rows⟩, h, heq⟩ := h
    cases heq
    obtain ⟨hm, rfl⟩ := pendingIntents_intents t u v.node state v.now rows h
    obtain ⟨x, hx, hdata⟩ := hg
    obtain ⟨hunmarked, hno⟩ := intents_unmarked u v.node state v.now g x hx hdata
    exact .inr ⟨not_revokes _ v state hstate hno rfl, u, .inr ⟨v, rfl, state, hstate, hm⟩, hunmarked⟩
  | intents n state now =>
    cases h
    obtain ⟨x, hx, hdata⟩ := hg
    exact .inr ⟨not_revokes_none _ rfl, t, .inl rfl, (intents_unmarked t n state now g x hx hdata).1⟩

theorem Tidied.orderly {a : Access} {t u : Adoptions} (h : a.Tidied t u) (ht : t.Orderly) :
    u.Orderly := by
  rcases h with rfl | ⟨v, _, state, _, hu⟩
  · exact ht
  · exact ht.maintain v.node state v.now hu

theorem Tidied.drawn {a : Access} {t u : Adoptions} {ids : List Id} (h : a.Tidied t u)
    (ht : t.Drawn ids) : u.Drawn ids := by
  rcases h with rfl | ⟨v, _, state, _, hu⟩
  · exact ht
  · exact ht.maintain v.node state v.now hu

theorem Tidied.retired {a : Access} {t u : Adoptions} {g : Id} (h : a.Tidied t u)
    (ht : t.Retired g) (hno : ¬ a.Revokes g) : u.Retired g := by
  rcases h with rfl | ⟨v, hv, state, hstate, hu⟩
  · exact ht
  · exact ht.maintain v.node state v.now (fun hr => hno ⟨v, hv, state, hstate, hr⟩) hu

def drawn (accesses : List Access) : List Id := accesses.filterMap draws

theorem step_orderly (a : Access) (t : Adoptions) (ids : List Id) (ht : t.Orderly)
    (hd : t.Drawn ids) (hnew : ∀ g ∈ a.draws, g ∉ ids) :
    (step t a).Orderly ∧ (step t a).Drawn (ids ++ a.draws.toList) := by
  have hmono : ∀ {u : Adoptions}, u.Drawn ids → u.Drawn (ids ++ a.draws.toList) :=
    fun hu b hb => List.mem_append_left _ (hu b hb)
  unfold step
  split
  · rename_i t' handed h
    obtain ⟨u, htidied, hchange⟩ := run_spec a t t' handed h
    have hu := htidied.orderly ht
    have hud := htidied.drawn hd
    cases hchange with
    | same => exact ⟨hu, hmono hud⟩
    | cancel p => exact ⟨hu.cancel p, hmono hud⟩
    | enter b hdraw hroom =>
      refine ⟨hu.enter hud b (hnew b.grant hdraw) hroom, ?_⟩
      intro c hc
      rcases hc with hc | hc
      · rcases (waiting_enter u b c).mp hc with hc | rfl
        · exact List.mem_append_left _ (hud c (.inl hc))
        · rw [hdraw]
          exact List.mem_append_right _ List.mem_cons_self
      · exact List.mem_append_left _ (hud c (.inr hc))
    | prove grant p p' =>
      refine ⟨hu.prove grant p p', ?_⟩
      intro c hc
      rcases hc with hc | hc
      · exact List.mem_append_left _ (hud c (.inl ((waiting_prove u grant p p' c).mp hc)))
      · exact List.mem_append_left _ (hud c (.inr hc))
  · exact ⟨ht, hmono hd⟩

theorem step_retired (a : Access) (t : Adoptions) (g : Id) (ht : t.Retired g)
    (hno : ¬ a.Revokes g) (hnew : a.draws ≠ some g) : (step t a).Retired g := by
  unfold step
  split
  · rename_i t' handed h
    obtain ⟨u, htidied, hchange⟩ := run_spec a t t' handed h
    have hu := htidied.retired ht hno
    cases hchange with
    | same => exact hu
    | cancel p => exact hu.cancel p
    | enter b hdraw _ => exact hu.enter b fun hgrant => hnew (hdraw.trans (congrArg some hgrant))
    | prove grant p p' => exact hu.prove grant p p'
  · exact ht

theorem tables_orderly (accesses : List Access) (hdrawn : (drawn accesses).Nodup) :
    (tables accesses).Orderly ∧ (tables accesses).Drawn (drawn accesses) := by
  induction accesses using List.reverseRecOn with
  | nil =>
    refine ⟨⟨?_, ?_, Nat.zero_le _⟩, ?_⟩
    · intro a b ha
      obtain ⟨r, hr, _⟩ := ha
      cases hr
    · intro g hg
      cases hg
    · intro a ha
      rcases ha with ⟨r, hr, _⟩ | ⟨r, hr, _⟩
      · cases hr
      · cases hr
  | append_singleton accesses a ih =>
    have hsplit : drawn (accesses ++ [a]) = drawn accesses ++ a.draws.toList := by
      simp [drawn, List.filterMap_cons, Option.toList]
      cases a.draws <;> rfl
    rw [hsplit] at hdrawn ⊢
    rw [tables_snoc]
    obtain ⟨hnodup, _, hdisjoint⟩ := List.nodup_append.mp hdrawn
    obtain ⟨ht, hd⟩ := ih hnodup
    refine step_orderly a _ _ ht hd ?_
    intro g hg hmem
    exact hdisjoint g hmem g (Option.mem_toList.mpr hg) rfl

theorem draws_ne (before after : List Access) (a : Access) (g : Id)
    (hdrawn : (drawn (before ++ after ++ [a])).Nodup) (hg : g ∈ (tables before).cancelled) :
    a.draws ≠ some g := by
  intro hdraw
  rw [List.append_assoc] at hdrawn
  unfold drawn at hdrawn
  rw [List.filterMap_append, List.filterMap_append] at hdrawn
  obtain ⟨hnodup, _, hdisjoint⟩ := List.nodup_append.mp hdrawn
  obtain ⟨ht, hd⟩ := tables_orderly before hnodup
  obtain ⟨b, hb, rfl⟩ := ht.marks g hg
  refine hdisjoint b.grant (hd b (.inl hb)) b.grant (List.mem_append_right _ ?_) rfl
  exact List.mem_filterMap.mpr ⟨a, List.mem_cons_self, hdraw⟩

theorem tables_retired (before after : List Access) (g : Id)
    (hdrawn : (drawn (before ++ after)).Nodup) (hg : g ∈ (tables before).cancelled)
    (hno : ∀ a ∈ after, ¬ a.Revokes g) : (tables (before ++ after)).Retired g := by
  induction after using List.reverseRecOn with
  | nil =>
    rw [List.append_nil] at hdrawn ⊢
    exact (tables_orderly before hdrawn).1.retired g hg
  | append_singleton after a ih =>
    rw [← List.append_assoc] at hdrawn ⊢
    rw [tables_snoc]
    have hfirst : (drawn (before ++ after)).Nodup :=
      hdrawn.sublist (List.Sublist.filterMap _ (List.sublist_append_left _ _))
    have hstill := ih hfirst fun b hb => hno b (List.mem_append_left _ hb)
    refine step_retired a _ g hstill (hno a (List.mem_append_right _ List.mem_cons_self)) ?_
    exact draws_ne before after a g hdrawn hg

/-- In every run the tables are in order; and once a grant is marked, it is filed only after an
access that found its revocation in the journal, and until then no access gives it out and nobody
completes it. -/
theorem outbox_kept (before after : List Access) (next : Access)
    (hdrawn : (drawn (before ++ after ++ [next])).Nodup) :
    (tables before).Orderly ∧ ∀ g ∈ (tables before).cancelled,
      (∀ a, (tables (before ++ after)).Filed a → a.grant = g → ∃ access ∈ after, access.Revokes g) ∧
      (∀ t handed, next.run (tables (before ++ after)) = .ok (t, handed) → handed.Gives g →
        ¬ next.Revokes g ∧ ∃ access ∈ after, access.Revokes g) ∧
      ∀ v owner grantId clientProof t handed, next = .complete v owner grantId clientProof →
        readId grantId = .ok g → next.run (tables (before ++ after)) = .ok (t, handed) →
        ∃ access ∈ after, access.Revokes g := by
  have hafter : (drawn (before ++ after)).Nodup :=
    hdrawn.sublist (List.Sublist.filterMap _ (List.sublist_append_left _ _))
  have hbefore : (drawn before).Nodup :=
    hafter.sublist (List.Sublist.filterMap _ (List.sublist_append_left _ _))
  refine ⟨(tables_orderly before hbefore).1, ?_⟩
  intro g hg
  have hretired (hno : ¬ ∃ access ∈ after, access.Revokes g) :
      (tables (before ++ after)).Retired g :=
    tables_retired before after g hafter hg fun a ha hr => hno ⟨a, ha, hr⟩
  refine ⟨?_, ?_, ?_⟩
  · intro a ha hgrant
    by_contra hno
    exact (hretired hno).2 a ha hgrant
  · intro t handed hrun hgives
    rcases run_gives next _ t handed g hrun hgives with hdraw | ⟨hrevokes, u, htidied, hu⟩
    · exact absurd hdraw (draws_ne before after next g hdrawn hg)
    · refine ⟨hrevokes, ?_⟩
      by_contra hno
      exact (htidied.retired (hretired hno) hrevokes).not_unmarked hu
  · intro v owner grantId clientProof t handed hnext hread hrun
    subst hnext
    simp only [run, bind_eq_ok, pure_eq_ok] at hrun
    obtain ⟨t', hcomplete, _⟩ := hrun
    by_contra hno
    exact (hretired hno).not_unmarked
      (complete_unmarked _ t' v.tx v.node owner grantId clientProof v.now g hread hcomplete)

end Access
end

section
attribute [local instance] residuePlatform

namespace Access

def rootVisit : Visit where
  node := ⟨sampleGenesis, (1 : UInt8), Fixed.fill 32 1, Fixed.fill 32 60, .member, "root", 0⟩
  tx := rootDatabase
  now := 700

def cancelled : List Access :=
  [.begin rootVisit "client" 9000 (Fixed.fill 32 8) (Fixed.fill 32 7), .cancelOwner rootVisit "client"]

theorem cancelled_tables : (tables cancelled).cancelled = [Fixed.fill 32 7] := by decide +kernel

theorem outbox_kept_sample : (tables cancelled).Orderly ∧
    ∀ t handed, run (tables (cancelled ++ [])) (.pendingIntents rootVisit) = .ok (t, handed) →
      ¬ handed.Gives (Fixed.fill 32 7) := by
  have h := outbox_kept cancelled [] (.pendingIntents rootVisit) (List.nodup_singleton _)
  refine ⟨h.1, ?_⟩
  intro t handed hrun hgives
  obtain ⟨_, access, hnone, _⟩ := (h.2 (Fixed.fill 32 7) (by
    rw [cancelled_tables]
    exact List.mem_cons_self)).2.1 t handed hrun hgives
  cases hnone

end Access
end
end Rieul.Cluster
