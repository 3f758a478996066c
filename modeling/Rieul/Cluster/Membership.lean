import Rieul.Cluster.StoreSpec

/-!
# Who is primary, and with which key

The key of a member never changes, the primary stays a member, and it became
primary by the last transfer of the journal or is the root.
-/

namespace Rieul.Cluster
open Bytes Fallible

section
variable [Platform]

namespace State

theorem member_apply {s t : State} {e : Entry} {a k : Id} (hs : s.WellFormed)
    (hm : s.members.lookup a = some k) (h : s.apply e = .ok t) :
    t.members.lookup a = some k ∨ (e.mutation = .Remove a ∧ a ≠ s.primary) := by
  obtain ⟨-, u, hu, rfl⟩ := (apply_eq_ok s t e).mp h
  cases hu with
  | admits id key consent endpoint hmut hend hseen hkey =>
    have hne : a ≠ id := by
      rintro rfl
      exact hseen (hs.members_seen a ((IdMap.mem_iff _ _).mpr ⟨k, hm⟩))
    left
    simp only [advance, IdMap.lookup_insert, if_neg hne, hm]
  | removes id hmut hp =>
    by_cases ha : a = id
    · subst ha
      exact Or.inr ⟨hmut, hp⟩
    · left
      simp only [advance, IdMap.lookup_erase, if_neg ha, hm]
  | adopts | revokes | transfers => exact Or.inl hm

theorem seen_apply {s t : State} {e : Entry} {a : Id} (ha : a ∈ s.seen) (h : s.apply e = .ok t) :
    a ∈ t.seen := by
  obtain ⟨-, u, hu, rfl⟩ := (apply_eq_ok s t e).mp h
  cases hu with
  | admits | removes => exact Finset.mem_insert_of_mem ha
  | adopts | revokes | transfers => exact ha

section
variable {s t : State} {e : Entry} {k : Id} (hs : s.WellFormed)
  (hm : s.members.lookup s.primary = some k) (h : s.apply e = .ok t)
include s t e k hs hm h

theorem primary_apply :
    t.members.lookup s.primary = some k := by
  rcases member_apply hs hm h with h' | ⟨-, hne⟩
  · exact h'
  · exact absurd rfl hne

theorem not_activates : e.activates k = false := by
  obtain ⟨-, u, hu, -⟩ := (apply_eq_ok s t e).mp h
  cases hu with
  | transfers id key acceptance hmut hp hmember hepoch hacc =>
    have hne : key ≠ k := by
      rintro rfl
      exact hp (hs.keys_inj id s.primary key hmember hm)
    simp [Entry.activates, hmut, hne]
  | admits id key consent endpoint hmut | removes id hmut | revokes grant hmut =>
    simp [Entry.activates, hmut]
  | adopts grant issuer client expires clientProof issuerProof issuerKey hmut =>
    simp [Entry.activates, hmut]

end

end State

theorem member_replay (g : Genesis) (es more : List Entry) (s t : State) (a k : Id)
    (hs : replay g es = .ok s) (ht : replay g (es ++ more) = .ok t)
    (hm : s.members.lookup a = some k) : t.members.lookup a = some k ∨ t.Tombstoned a := by
  obtain ⟨s', hs', hmore⟩ := (Replay.replay_append_eq_ok _ _ t es more).mp ht
  have hss : s' = s := Except.ok.inj (hs'.symm.trans hs)
  subst hss
  have hstep := Replay.replay_invariant State.apply
    (fun s => s.WellFormed ∧ (s.members.lookup a = some k ∨ s.Tombstoned a)) ?_ more s' t
    ⟨replay_wellFormed g es s' hs, Or.inl hm⟩ hmore
  · exact hstep.2
  · rintro u v e ⟨hw, hu⟩ hv
    refine ⟨hw.apply hv, ?_⟩
    rcases hu with hu | hu
    · rcases State.member_apply hw hu hv with h | ⟨hrem, -⟩
      · exact Or.inl h
      · exact Or.inr (State.tombstoned_of_remove hrem hv)
    · exact Or.inr (hu.apply hv)

theorem seen_replay (g : Genesis) (es es' : List Entry) (s t : State) (hp : es <+: es')
    (hs : replay g es = .ok s) (ht : replay g es' = .ok t) : s.seen ⊆ t.seen := by
  obtain ⟨more, rfl⟩ := hp
  obtain ⟨s', hs', hmore⟩ := (Replay.replay_append_eq_ok _ _ t es more).mp ht
  have hss : s' = s := Except.ok.inj (hs'.symm.trans hs)
  subst hss
  intro a ha
  exact Replay.replay_invariant State.apply (fun u => a ∈ u.seen)
    (fun _ _ _ hu hv => State.seen_apply hu hv) more s' t ha hmore

theorem primary_of_transfer (g : Genesis) (es : List Entry) (e : Entry) (s : State)
    (h : replay g (es ++ [e]) = .ok s) {id key : Id} {sequence : UInt64} {head : Id}
    {acceptance : Signature} (he : e.mutation = .Transfer id key sequence head acceptance) :
    s.primary = id := by
  obtain ⟨t, -, ht⟩ := (Replay.replay_snoc_eq_ok _ _ _ es e).mp h
  obtain ⟨-, u, hu, rfl⟩ := (State.apply_eq_ok t s e).mp ht
  cases hu with
  | transfers id' key' acceptance' hm =>
    cases hm.symm.trans he
    rfl
  | admits id' key' consent endpoint hm | removes id' hm
  | adopts grant issuer client expires clientProof issuerProof issuerKey hm | revokes grant hm =>
    simp [hm] at he

theorem primary_origin (g : Genesis) (es : List Entry) (s : State) (h : replay g es = .ok s) :
    ((∀ e ∈ es, e.mutation.isTransfer = false) ∧ s.primary = g.root ∧
        s.members.lookup g.root = some g.rootKey) ∨
      ∃ e ∈ es, ∃ key sequence head acceptance,
        e.mutation = .Transfer s.primary key sequence head acceptance ∧
          s.members.lookup s.primary = some key := by
  refine Replay.replay_induction State.apply _ (fun es (s : State) =>
    ((∀ e ∈ es, e.mutation.isTransfer = false) ∧ s.primary = g.root ∧
        s.members.lookup g.root = some g.rootKey) ∨
      ∃ e ∈ es, ∃ key sequence head acceptance,
        e.mutation = .Transfer s.primary key sequence head acceptance ∧
          s.members.lookup s.primary = some key) ?_ ?_ es s h
  · left
    refine ⟨by simp, rfl, ?_⟩
    rw [State.genesis, IdMap.lookup_insert, if_pos rfl]
  · intro as t u e hr ih ha
    have hw := replay_wellFormed g as t hr
    obtain ⟨-, v, hv, hu⟩ := (State.apply_eq_ok t u e).mp ha
    by_cases htr : ∃ id key acceptance, e.mutation = .Transfer id key t.sequence t.head acceptance
    · right
      obtain ⟨id, key, acceptance, hm⟩ := htr
      cases hv with
      | transfers id' key' acceptance' hm' hp hmember =>
        subst hu
        exact ⟨e, by simp, key', _, _, acceptance', hm', hmember⟩
      | admits id' key' consent endpoint hm' | removes id' hm'
      | adopts grant issuer client expires clientProof issuerProof issuerKey hm'
      | revokes grant hm' => simp [hm'] at hm
    · have hprimary : u.primary = t.primary ∧ e.mutation.isTransfer = false := by
        subst hu
        cases hv with
        | transfers id key acceptance hm => exact absurd ⟨id, key, acceptance, hm⟩ htr
        | admits id' key' consent endpoint hm' | removes id' hm' | revokes grant hm' =>
          exact ⟨rfl, by rw [hm']; rfl⟩
        | adopts grant issuer client expires clientProof issuerProof issuerKey hm' =>
          exact ⟨rfl, by rw [hm']; rfl⟩
      rcases ih with ⟨hnone, hroot, hkey⟩ | ⟨a, hmem, key, n, hd, acc, hm, hkey⟩
      · left
        refine ⟨?_, hprimary.1.trans hroot, ?_⟩
        · intro a hmem
          rcases List.mem_append.mp hmem with hmem | hmem
          · exact hnone a hmem
          · rw [List.mem_singleton.mp hmem]
            exact hprimary.2
        · rw [← hroot] at hkey ⊢
          exact State.primary_apply hw hkey ha
      · right
        refine ⟨a, List.mem_append_left _ hmem, key, n, hd, acc, ?_, ?_⟩
        · rw [hprimary.1]
          exact hm
        · rw [hprimary.1]
          exact State.primary_apply hw hkey ha

end

end Rieul.Cluster
