import Rieul.Cluster.Adoption

/-!
# What the outbox does with a request

A request that waits stays in the outbox unless it has expired, belongs to another
life of the node, or is settled by the journal; a mark stays with its request.
-/

namespace Rieul.Cluster
open Bytes Fallible

def Adoption.Of [Platform] (a : Adoption) (n : Node) : Prop :=
  a.cluster = n.g.cluster ∧ a.issuer = n.admission

namespace Adoptions

def Waiting (t : Adoptions) (a : Adoption) : Prop := ∃ r ∈ t.outbox, r.adoption = a

def Filed (t : Adoptions) (a : Adoption) : Prop := ∃ r ∈ t.receipts, r.adoption = a

def Marked (t : Adoptions) (a : Adoption) : Prop := t.Waiting a ∧ a.grant ∈ t.cancelled

def Settles (state : State) (t : Adoptions) (grant : Id) : Prop :=
  grant ∈ state.revoked ∨ grant ∈ state.grants ∧ grant ∉ t.cancelled

theorem mem_mark (cancelled : List Id) (r : OutboxRow) (g : Id) :
    g ∈ mark cancelled r ↔ g ∈ cancelled ∨ r.adoption.grant = g := by
  unfold mark
  split
  · rename_i h
    constructor
    · exact .inl
    · intro hg
      rcases hg with hg | hg
      · exact hg
      · exact hg ▸ h
  · rw [List.mem_append, List.mem_singleton, eq_comm (a := g)]

theorem mem_foldl_mark (rows : List OutboxRow) (cancelled : List Id) (g : Id) :
    g ∈ rows.foldl mark cancelled ↔ g ∈ cancelled ∨ ∃ r ∈ rows, r.adoption.grant = g := by
  induction rows generalizing cancelled with
  | nil => simp
  | cons r rows ih => simp only [List.foldl_cons, ih, mem_mark, List.exists_mem_cons_iff, or_assoc]

variable (state : State) (t : Adoptions)

theorem mem_cancel (p : OutboxRow → Bool) (g : Id) :
    g ∈ (t.cancel p).cancelled ↔
      g ∈ t.cancelled ∨ ∃ r ∈ t.outbox, p r ∧ r.adoption.grant = g := by
  unfold cancel
  rw [mem_foldl_mark]
  simp only [List.mem_filter, and_assoc]

/-- What the loop of `maintain` does to the tables. -/
structure Settled (state : State) (t t' : Adoptions) : Prop where
  waiting : ∀ r ∈ t'.outbox, r ∈ t.outbox
  kept : ∀ r ∈ t.outbox, r ∈ t'.outbox ∨ t.Settles state r.adoption.grant
  marks : ∀ g ∈ t'.cancelled, g ∈ t.cancelled
  marked : ∀ g ∈ t.cancelled, g ∈ t'.cancelled ∨ g ∈ state.revoked
  filed : ∀ r ∈ t'.receipts, r ∈ t.receipts ∨ r ∈ t.outbox ∧ t.Settles state r.adoption.grant
  still : ∀ r ∈ t'.outbox, r.adoption.grant ∈ t.cancelled → r.adoption.grant ∈ t'.cancelled

theorem Settled.refl : Settled state t t where
  waiting := fun _ hr => hr
  kept := fun _ hr => .inl hr
  marks := fun _ hg => hg
  marked := fun _ hg => .inl hg
  filed := fun _ hr => .inl hr
  still := fun _ _ hg => hg

theorem Settled.settles (t t' : Adoptions) (h : Settled state t t') (g : Id)
    (hg : t'.Settles state g) : t.Settles state g := by
  rcases hg with hg | ⟨hg, hno⟩
  · exact .inl hg
  · by_cases hc : g ∈ t.cancelled
    · rcases h.marked g hc with hc' | hr
      · exact absurd hc' hno
      · exact .inl hr
    · exact .inr ⟨hg, hc⟩

theorem Settled.trans (t t' t'' : Adoptions) (h : Settled state t t')
    (h' : Settled state t' t'') : Settled state t t'' where
  waiting := fun r hr => h.waiting r (h'.waiting r hr)
  kept := by
    intro r hr
    rcases h.kept r hr with hr' | hs
    · rcases h'.kept r hr' with hr'' | hs
      · exact .inl hr''
      · exact .inr (h.settles state t t' _ hs)
    · exact .inr hs
  marks := fun g hg => h.marks g (h'.marks g hg)
  marked := by
    intro g hg
    rcases h.marked g hg with hg' | hr
    · exact h'.marked g hg'
    · exact .inr hr
  filed := by
    intro r hr
    rcases h'.filed r hr with hr' | ⟨hw, hs⟩
    · exact h.filed r hr'
    · exact .inr ⟨h.waiting r hw, h.settles state t t' _ hs⟩
  still := fun r hr hg => h'.still r hr (h.still r (h'.waiting r hr) hg)

theorem settled_settle (grant : Id) :
    Settled state t (t.settle state grant) := by
  unfold settle
  split
  · rename_i hs
    constructor
    · intro r hr
      exact (List.mem_filter.mp hr).1
    · intro r hr
      by_cases hg : r.adoption.grant = grant
      · right
        rw [hg]
        exact hs
      · exact .inl (List.mem_filter.mpr ⟨hr, decide_eq_true hg⟩)
    · intro g hg
      exact (List.mem_filter.mp hg).1
    · intro g hg
      by_cases hgrant : g = grant
      · rcases hs with hs | ⟨_, hno⟩
        · exact .inr (hgrant ▸ hs)
        · exact absurd (hgrant ▸ hg) hno
      · exact .inl (List.mem_filter.mpr ⟨hg, decide_eq_true hgrant⟩)
    · intro r hr
      unfold archive at hr
      dsimp only at hr
      split at hr
      · exact .inl hr
      · rcases List.mem_append.mp hr with hr | hr
        · exact .inl hr
        · obtain ⟨hr, hg⟩ := List.mem_filter.mp hr
          rw [of_decide_eq_true hg]
          exact .inr ⟨hr, hs⟩
    · intro r hr hg
      exact List.mem_filter.mpr ⟨hg, (List.mem_filter.mp hr).2⟩
  · exact Settled.refl state t

theorem settled_foldl (grants : List Id) (t : Adoptions) :
    Settled state t (grants.foldl (settle state) t) := by
  induction grants generalizing t with
  | nil => exact Settled.refl state t
  | cons grant grants ih =>
    exact (settled_settle state t grant).trans state t _ _ (ih (t.settle state grant))

section
variable [Platform]

/-- What `maintain` does to the tables of a node whose journal is in the state. -/
structure Maintained (n : Node) (state : State) (now : Int64) (t t' : Adoptions) : Prop where
  waiting : ∀ a, t'.Waiting a → t.Waiting a
  kept : ∀ a, t.Waiting a → t'.Waiting a ∨ a.expires ≤ now ∨
    (¬ a.Of n ∧ a.grant ∉ t.cancelled) ∨ t.Settles state a.grant
  marked : ∀ a, t'.Waiting a → (a.grant ∈ t'.cancelled ↔ a.grant ∈ t.cancelled)
  filed : ∀ a, t'.Filed a → t.Filed a ∨ t.Waiting a ∧ t.Settles state a.grant

theorem maintain_spec (t t' : Adoptions) (n : Node) (state : State) (now : Int64)
    (h : t.maintain n state now = .ok t') : Maintained n state now t t' := by
  simp only [maintain, bind_eq_ok, exists_unit_iff, pure_eq_ok] at h
  obtain ⟨_, rfl⟩ := h
  have hs := settled_foldl state
    (((t.outbox.filter fun r => t.stale n now r = false).filter fun r =>
      r.adoption.cluster = n.g.cluster).map fun r => r.adoption.grant)
    { t with
      outbox := t.outbox.filter fun r => t.stale n now r = false
      receipts := t.receipts.filter fun r =>
        ¬ (r.adoption.expires ≤ now ∨ r.adoption.cluster ≠ n.g.cluster) }
  generalize List.foldl (settle state) _ _ = u at hs ⊢
  constructor
  · intro a ha
    obtain ⟨r, hr, rfl⟩ := ha
    exact ⟨r, (List.mem_filter.mp (hs.waiting r hr)).1, rfl⟩
  · intro a ha
    obtain ⟨r, hr, rfl⟩ := ha
    cases hstale : t.stale n now r with
    | true =>
      right
      rcases of_decide_eq_true hstale with hexpired | ⟨hforeign, hno⟩
      · exact .inl hexpired
      · right
        left
        refine ⟨?_, hno⟩
        intro hof
        rcases hforeign with hne | hne
        · exact hne hof.1
        · exact hne hof.2
    | false =>
      rcases hs.kept r (List.mem_filter.mpr ⟨hr, decide_eq_true hstale⟩) with hkept | hsettles
      · exact .inl ⟨r, hkept, rfl⟩
      · exact .inr (.inr (.inr hsettles))
  · intro a ha
    obtain ⟨r, hr, rfl⟩ := ha
    constructor
    · intro hg
      exact hs.marks _ (List.mem_filter.mp hg).1
    · intro hg
      refine List.mem_filter.mpr ⟨hs.still r hr hg, ?_⟩
      exact List.any_eq_true.mpr ⟨r, hr, decide_eq_true rfl⟩
  · intro a ha
    obtain ⟨r, hr, rfl⟩ := ha
    rcases hs.filed r hr with hr | ⟨hr, hsettles⟩
    · exact .inl ⟨r, (List.mem_filter.mp hr).1, rfl⟩
    · exact .inr ⟨⟨r, (List.mem_filter.mp hr).1, rfl⟩, hsettles⟩

omit [Platform] in
/-- The marks after `cancel`, when it selects by the request. -/
theorem mem_cancel_iff (t : Adoptions) (p : Adoption → Bool) (a : Adoption) (ha : t.Waiting a)
    (hp : p a) : a.grant ∈ (t.cancel fun r => p r.adoption).cancelled := by
  rw [mem_cancel]
  obtain ⟨r, hr, rfl⟩ := ha
  exact .inr ⟨r, hr, hp, rfl⟩

omit [Platform] in
theorem pending_some (t : Adoptions) (owner : String) (grant : Id) (r : OutboxRow)
    (h : t.pending owner grant = some r) :
    (t.Waiting r.adoption ∨ t.Filed r.adoption) ∧ r.adoption.grant = grant ∧
      r.adoption.owner = owner := by
  unfold pending at h
  have hp := List.find?_some h
  simp only [decide_eq_true_eq] at hp
  rcases List.mem_append.mp (List.mem_of_find?_eq_some h) with hr | hr
  · exact ⟨.inl ⟨r, hr, rfl⟩, hp⟩
  · exact ⟨.inr ⟨r, hr, rfl⟩, hp⟩

/-- A new request is of the life of the node; otherwise only `maintain` has run. -/
theorem begin_spec (t t' : Adoptions) (tx : Database) (n : Node) (state : State) (owner : String)
    (expiresAtUnix : Int64) (client : Id) (now : Int64) (grant : Id)
    (challenge : ClientAdoptionChallenge)
    (h : t.begin tx n state owner expiresAtUnix client now grant = .ok (challenge, t')) :
    ∃ u, t.maintain n state now = .ok u ∧ (t' = u ∨ ∃ a : Adoption, a.grant = grant ∧
      a.owner = owner ∧ a.Of n ∧ t' = { u with outbox := u.outbox ++ [⟨a, none, none⟩] }) := by
  simp only [begin, bind_eq_ok, exists_unit_iff] at h
  obtain ⟨current, _, _, _, _, u, hu, h⟩ := h
  refine ⟨u, hu, ?_⟩
  split at h
  · rw [pure_eq_ok] at h
    cases h
    exact .inl rfl
  · simp only [insert, bind_eq_ok, exists_unit_iff, pure_eq_ok] at h
    obtain ⟨_, v, ⟨_, rfl⟩, h⟩ := h
    cases h
    exact .inr ⟨_, rfl, rfl, ⟨rfl, rfl⟩, rfl⟩

omit [Platform] in
theorem waiting_prove (t : Adoptions) (grant : Id) (clientProof issuerProof : Signature)
    (a : Adoption) : (t.prove grant clientProof issuerProof).Waiting a ↔ t.Waiting a := by
  unfold prove Waiting
  dsimp only
  constructor
  · intro h
    obtain ⟨r, hr, ha⟩ := h
    obtain ⟨r', hr', rfl⟩ := List.mem_map.mp hr
    refine ⟨r', hr', ?_⟩
    rw [← ha]
    split
    · rfl
    · rfl
  · intro h
    obtain ⟨r, hr, rfl⟩ := h
    refine ⟨_, List.mem_map_of_mem hr, ?_⟩
    split
    · rfl
    · rfl

theorem complete_spec (t t' : Adoptions) (tx : Database) (n : Node) (owner : String)
    (grantId clientProof : Str) (now : Int64)
    (h : t.complete tx n owner grantId clientProof now = .ok t') :
    ∃ grant proof proof', t' = t.prove grant proof proof' := by
  simp only [complete, bind_eq_ok, pure_eq_ok] at h
  obtain ⟨grant, _, _, _, _, _, _, _, _, _, _, _, _, _, proof, _, _, _, _, _, rfl⟩ := h
  exact ⟨grant, proof, _, rfl⟩

omit [Platform] in
theorem intent_challenge (r : OutboxRow) (intent : ClusterPairingIntent)
    (h : r.intent = some intent) : intent.challenge = r.adoption.challenge := by
  unfold OutboxRow.intent at h
  split at h
  · cases h
    rfl
  · cases h

theorem pendingIntents_spec (t t' : Adoptions) (n : Node) (state : State) (now : Int64)
    (intents : List (String × ClusterPairingIntent))
    (h : t.pendingIntents n state now = .ok (t', intents)) :
    t.maintain n state now = .ok t' ∧ ∀ x ∈ intents, ∃ a, t'.Waiting a ∧ x.1 = a.owner ∧
      x.2.challenge = a.challenge := by
  simp only [pendingIntents, bind_eq_ok, pure_eq_ok] at h
  obtain ⟨u, hu, h⟩ := h
  cases h
  refine ⟨hu, ?_⟩
  intro x hx
  obtain ⟨r, hr, hready⟩ := List.mem_filterMap.mp (List.mem_of_mem_take hx)
  have hrow := (List.mem_filter.mp (List.mem_of_mem_take hr)).1
  unfold ready at hready
  split at hready
  · cases hready
  · obtain ⟨intent, hintent, rfl⟩ := Option.map_eq_some_iff.mp hready
    exact ⟨r.adoption, ⟨r, hrow, rfl⟩, rfl, intent_challenge r intent hintent⟩

omit [Platform] in
theorem getIntent_spec (t : Adoptions) (owner : String) (grant : Id) (intent : ClusterPairingIntent)
    (h : t.getIntent owner grant = .ok (some intent)) :
    ∃ a, (t.Waiting a ∨ t.Filed a) ∧ a.grant = grant ∧ a.owner = owner ∧
      intent.challenge = a.challenge := by
  simp only [getIntent, bind_eq_ok, require_eq_ok, pure_eq_ok] at h
  obtain ⟨r, hr, h⟩ := h
  obtain ⟨hplace, hgrant, howner⟩ := pending_some t owner grant r hr
  split at h
  · cases h
  · exact ⟨r.adoption, hplace, hgrant, howner, intent_challenge r intent h⟩

end
end Adoptions
end Rieul.Cluster
