import Rieul.Cluster.State

/-!
# Invariants of the replayed state

Every journal that replays leaves a well-formed state whose counters count the
journal, and what a journal removed or revoked stays so in every extension.
-/

namespace Rieul.Cluster
open Bytes

section
variable [Platform]

def transferCount (entries : List Entry) : ℕ :=
  entries.countP fun e => match e.mutation with
    | .Transfer .. => true
    | _ => false

namespace State

structure WellFormed (s : State) : Prop where
  primary_member : s.primary ∈ s.members
  endpoints_iff : ∀ id, id ∈ s.endpoints ↔ id ∈ s.members
  members_seen : ∀ id, id ∈ s.members → id ∈ s.seen
  keys_inj : ∀ i j k, s.members.lookup i = some k → s.members.lookup j = some k → i = j
  grants_not_revoked : ∀ grant, grant ∈ s.grants → grant ∉ s.revoked

/-- The counters after `entries`. -/
structure Counts (entries : List Entry) (s : State) : Prop where
  sequence : s.sequence.toNat = entries.length
  operations : s.operations.card = entries.length
  epoch : s.epoch.toNat = 1 + transferCount entries

def Tombstoned (s : State) (id : Id) : Prop := id ∈ s.seen ∧ id ∉ s.members

theorem genesis_wellFormed (g : Genesis) : (genesis g).WellFormed := by
  refine ⟨by simp [genesis, -AList.insert_empty],
    fun id => by simp [genesis, -AList.insert_empty], fun id h => ?_, ?_, fun grant h => ?_⟩
  · simpa [genesis, eq_comm, -AList.insert_empty] using h
  · intro i j k hi hj
    simp only [genesis, IdMap.lookup_insert] at hi hj
    split at hi <;> split at hj <;> simp_all
  · simp [genesis] at h

theorem WellFormed.advance {s : State} (h : s.WellFormed) (e : Entry) : (s.advance e).WellFormed :=
  ⟨h.primary_member, h.endpoints_iff, h.members_seen, h.keys_inj, h.grants_not_revoked⟩

section
variable {s t : State}
include s t

theorem WellFormed.effect {e : Entry} (h : s.WellFormed) (he : Effect s e t) :
    t.WellFormed := by
  cases he with
  | admits id key consent endpoint hm hend hseen hkey =>
    refine ⟨?_, fun j => ?_, fun j hj => ?_, ?_, h.grants_not_revoked⟩
    · exact (AList.mem_insert _).mpr (Or.inr h.primary_member)
    · simp only [AList.mem_insert, h.endpoints_iff]
    · rcases (AList.mem_insert _).mp hj with rfl | hj
      · exact Finset.mem_insert_self _ _
      · exact Finset.mem_insert_of_mem (h.members_seen j hj)
    · intro i j k hi hj
      simp only [IdMap.lookup_insert] at hi hj
      -- the new key is no other member's key
      split at hi <;> split at hj
      · simp_all
      · cases hi
        exact absurd hj (hkey j)
      · cases hj
        exact absurd hi (hkey i)
      · exact h.keys_inj i j k hi hj
  | removes id hm hp =>
    refine ⟨?_, fun j => ?_, fun j hj => ?_, ?_, h.grants_not_revoked⟩
    · exact AList.mem_erase.mpr ⟨fun hj => hp hj.symm, h.primary_member⟩
    · simp only [AList.mem_erase, h.endpoints_iff]
    · exact Finset.mem_insert_of_mem (h.members_seen j (AList.mem_erase.mp hj).2)
    · intro i j k hi hj
      simp only [IdMap.lookup_erase] at hi hj
      split at hi <;> split at hj <;> try contradiction
      exact h.keys_inj i j k hi hj
  | adopts grant issuer client expires clientProof issuerProof issuerKey hm hissuer hgrant hrevoked =>
    refine ⟨h.primary_member, h.endpoints_iff, h.members_seen, h.keys_inj, fun j hj => ?_⟩
    rcases (AList.mem_insert _).mp hj with rfl | hj
    · exact hrevoked
    · exact h.grants_not_revoked j hj
  | revokes grant hm =>
    refine ⟨h.primary_member, h.endpoints_iff, h.members_seen, h.keys_inj, fun j hj => ?_⟩
    obtain ⟨hne, hj⟩ := AList.mem_erase.mp hj
    rw [Finset.mem_insert, not_or]
    exact ⟨hne, h.grants_not_revoked j hj⟩
  | transfers id key acceptance hm hp hmember hepoch hacc =>
    refine ⟨?_, h.endpoints_iff, h.members_seen, h.keys_inj, h.grants_not_revoked⟩
    exact (IdMap.mem_iff _ _).mpr ⟨key, hmember⟩

theorem WellFormed.apply {e : Entry} (h : s.WellFormed) (ha : s.apply e = .ok t) :
    t.WellFormed := by
  obtain ⟨-, u, hu, rfl⟩ := (apply_eq_ok s t e).mp ha
  exact (h.effect hu).advance e

theorem Effect.frame {e : Entry} (he : Effect s e t) :
    t.cluster = s.cluster ∧ t.sequence = s.sequence ∧ t.head = s.head ∧
      t.operations = s.operations ∧ t.epoch.toNat = s.epoch.toNat + transferCount [e] := by
  cases he with
  | transfers id key acceptance hm hp hmember hepoch hacc =>
    have hlt : s.epoch.toNat < maxCounter.toNat := UInt64.lt_iff_toNat_lt.mp hepoch
    have hmax : maxCounter.toNat = 9007199254740991 := rfl
    refine ⟨rfl, rfl, rfl, rfl, ?_⟩
    simp only [transferCount, List.countP_singleton, hm, UInt64.toNat_add, UInt64.toNat_one]
    simp only [if_true]
    omega
  | admits id key consent endpoint hm | removes id hm | revokes grant hm => simp [transferCount, hm]
  | adopts grant issuer client expires clientProof issuerProof issuerKey hm =>
    simp [transferCount, hm]

theorem Counts.apply {es : List Entry} {e : Entry} (h : Counts es s)
    (ha : s.apply e = .ok t) : Counts (es ++ [e]) t := by
  obtain ⟨hacc, u, hu, rfl⟩ := (apply_eq_ok s t e).mp ha
  obtain ⟨-, -, -, hops, hepoch⟩ := hu.frame
  refine ⟨?_, ?_, ?_⟩
  · simp only [advance, hacc.sequence, h.sequence, List.length_append, List.length_singleton]
  · simp only [advance, hops, List.length_append, List.length_singleton]
    rw [Finset.card_insert_of_notMem hacc.operation, h.operations]
  · simp only [advance, hepoch, h.epoch, transferCount, List.countP_append]
    omega

theorem Tombstoned.apply {e : Entry} {id : Id} (h : s.Tombstoned id)
    (ha : s.apply e = .ok t) : t.Tombstoned id := by
  obtain ⟨-, u, hu, rfl⟩ := (apply_eq_ok s t e).mp ha
  obtain ⟨hseen, hmember⟩ := h
  cases hu with
  | admits j key consent endpoint hm hend hnew hkey =>
    refine ⟨Finset.mem_insert_of_mem hseen, fun hi => ?_⟩
    rcases (AList.mem_insert _).mp hi with rfl | hi
    · exact hnew hseen
    · exact hmember hi
  | removes j hm hp =>
    exact ⟨Finset.mem_insert_of_mem hseen, fun hi => hmember (AList.mem_erase.mp hi).2⟩
  | adopts | revokes | transfers => exact ⟨hseen, hmember⟩

theorem tombstoned_of_remove {e : Entry} {id : Id} (hm : e.mutation = .Remove id)
    (ha : s.apply e = .ok t) : t.Tombstoned id := by
  obtain ⟨-, u, hu, rfl⟩ := (apply_eq_ok s t e).mp ha
  cases hu <;> simp_all [Tombstoned, advance]

theorem revoked_of_apply {e : Entry} {grant : Id} (h : grant ∈ s.revoked)
    (ha : s.apply e = .ok t) : grant ∈ t.revoked := by
  obtain ⟨-, u, hu, rfl⟩ := (apply_eq_ok s t e).mp ha
  cases hu with
  | revokes => exact Finset.mem_insert_of_mem h
  | _ => exact h

theorem revoked_of_revoke {e : Entry} {grant : Id} (hm : e.mutation = .Revoke grant)
    (ha : s.apply e = .ok t) : grant ∈ t.revoked := by
  obtain ⟨-, u, hu, rfl⟩ := (apply_eq_ok s t e).mp ha
  cases hu <;> simp_all [advance]

end

end State

open State

theorem replay_wellFormed (g : Genesis) (es : List Entry) (s : State) (h : replay g es = .ok s) :
    s.WellFormed :=
  Replay.replay_invariant State.apply State.WellFormed (fun _ _ _ hs ha => hs.apply ha) es _ s
    (genesis_wellFormed g) h

theorem genesis_counts (g : Genesis) : Counts [] (State.genesis g) := ⟨rfl, rfl, rfl⟩

theorem replay_counts (g : Genesis) (es : List Entry) (s : State) (h : replay g es = .ok s) :
    Counts es s :=
  Replay.replay_induction State.apply _ Counts (genesis_counts g)
    (fun _ _ _ _ _ hs ha => hs.apply ha) es s h

theorem replay_cluster (g : Genesis) (es : List Entry) (s : State) (h : replay g es = .ok s) :
    s.cluster = g.cluster := by
  refine Replay.replay_invariant State.apply (fun s => s.cluster = g.cluster) ?_ es _ s rfl h
  intro t u e ht ha
  obtain ⟨-, v, hv, rfl⟩ := (apply_eq_ok t u e).mp ha
  exact hv.frame.1.trans ht

theorem tombstoned_replay (es : List Entry) (s t : State) (id : Id) (hs : s.Tombstoned id)
    (h : Replay.replay State.apply s es = .ok t) : t.Tombstoned id :=
  Replay.replay_invariant State.apply (fun s => s.Tombstoned id) (fun _ _ _ hu ha => hu.apply ha)
    es s t hs h

theorem revoked_replay (es : List Entry) (s t : State) (grant : Id) (hs : grant ∈ s.revoked)
    (h : Replay.replay State.apply s es = .ok t) : grant ∈ t.revoked :=
  Replay.replay_invariant State.apply (fun s => grant ∈ s.revoked)
    (fun _ _ _ hu ha => revoked_of_apply hu ha) es s t hs h

section
variable (g : Genesis) (es : List Entry) (s : State) (h : replay g es = .ok s) (e : Entry)
  (he : e ∈ es)
include g es s h e he

/-- Everything after a Remove of `id` keeps it out of the members. -/
theorem tombstoned_of_mem (id : Id) (hm : e.mutation = .Remove id) : s.Tombstoned id := by
  obtain ⟨as, bs, rfl⟩ := List.append_of_mem he
  obtain ⟨t, u, -, hu, hr⟩ := Replay.replay_at _ _ _ as bs e h
  exact tombstoned_replay bs u s id (tombstoned_of_remove hm hu) hr

theorem revoked_of_mem (grant : Id) (hm : e.mutation = .Revoke grant) :
    grant ∈ s.revoked := by
  obtain ⟨as, bs, rfl⟩ := List.append_of_mem he
  obtain ⟨t, u, -, hu, hr⟩ := Replay.replay_at _ _ _ as bs e h
  exact revoked_replay bs u s grant (revoked_of_revoke hm hu) hr

end

theorem replay_invariants (g : Genesis) (es : List Entry) (s : State) (h : replay g es = .ok s) :
    s.WellFormed ∧ Counts es s ∧
      ∀ (more : List Entry) (t : State), replay g (es ++ more) = .ok t →
        (∀ id, s.Tombstoned id → id ∉ t.members) ∧
        (∀ id, (∃ e ∈ es, e.mutation = .Remove id) → id ∉ t.members) ∧
        (∀ grant, grant ∈ s.revoked → grant ∉ t.grants) ∧
        (∀ grant, (∃ e ∈ es, e.mutation = .Revoke grant) → grant ∉ t.grants) := by
  refine ⟨replay_wellFormed g es s h, replay_counts g es s h, fun more t ht => ?_⟩
  have hwf := replay_wellFormed g (es ++ more) t ht
  obtain ⟨s', hs', hmore⟩ := (Replay.replay_append_eq_ok _ _ t es more).mp ht
  have hss : s' = s := Except.ok.inj (hs'.symm.trans h)
  subst hss
  have hgrants : ∀ grant, grant ∈ s'.revoked → grant ∉ t.grants := fun grant hg hi =>
    hwf.grants_not_revoked grant hi (revoked_replay more s' t grant hg hmore)
  refine ⟨fun id hid => (tombstoned_replay more s' t id hid hmore).2, ?_, hgrants, ?_⟩
  · rintro id ⟨e, he, hm⟩
    have hid := tombstoned_of_mem g es s' h e he id hm
    exact (tombstoned_replay more s' t id hid hmore).2
  · rintro grant ⟨e, he, hm⟩
    exact hgrants grant (revoked_of_mem g es s' h e he grant hm)

end

section
attribute [local instance] residuePlatform

def sampleGenesis : Genesis := ⟨Fixed.fill 32 9, Fixed.fill 32 1, Fixed.fill 32 1, "root"⟩

/-- The entry of key `n` that follows `s`. -/
def sampleEntry (n : UInt8) (s : State) (operation : Id) (mutation : Mutation) : Entry :=
  let e : Entry := {
    cluster := s.cluster
    epoch := s.epoch
    sequence := s.sequence + 1
    previous := s.head
    operation := operation
    request := requestHash s.cluster s.epoch operation mutation
    mutation := mutation
    signature := Fixed.fill 64 0 }
  { e with signature := @Platform.sign residuePlatform n e.body }

def sampleRemove : Entry :=
  sampleEntry 1 (State.genesis sampleGenesis) (Fixed.fill 32 20) (.Remove (Fixed.fill 32 2))

theorem replay_invariants_sample : ∃ s, replay sampleGenesis [sampleRemove] = .ok s ∧
    s.WellFormed ∧ State.Counts [sampleRemove] s ∧
      ∀ (more : List Entry) (t : State), replay sampleGenesis ([sampleRemove] ++ more) = .ok t →
        (∀ id, s.Tombstoned id → id ∉ t.members) ∧
        (∀ id, (∃ e ∈ [sampleRemove], e.mutation = .Remove id) → id ∉ t.members) ∧
        (∀ grant, grant ∈ s.revoked → grant ∉ t.grants) ∧
        (∀ grant, (∃ e ∈ [sampleRemove], e.mutation = .Revoke grant) → grant ∉ t.grants) := by
  obtain ⟨s, hs⟩ := Fallible.exists_of_toBool (replay sampleGenesis [sampleRemove])
    (by decide +kernel)
  exact ⟨s, hs, replay_invariants sampleGenesis [sampleRemove] s hs⟩

end

end Rieul.Cluster
