import Mathlib.Data.List.Sort

/-!
# The first members of a set in a window

A decidable set of naturals, and the first `n` of its members between two bounds.
-/

namespace Window

/-- The members of `p` from `lo` to `hi`, both included. -/
def members (p : ℕ → Bool) (lo hi : ℕ) : List ℕ := (List.range' lo (hi + 1 - lo)).filter p

def first (p : ℕ → Bool) (lo hi n : ℕ) : List ℕ := (members p lo hi).take n

variable (p : ℕ → Bool) (lo hi n x y : ℕ)

theorem mem_members : x ∈ members p lo hi ↔ p x = true ∧ lo ≤ x ∧ x ≤ hi := by
  unfold members
  rw [List.mem_filter, List.mem_range'_1]
  constructor
  · intro h
    obtain ⟨⟨hlo, hhi⟩, hp⟩ := h
    exact ⟨hp, hlo, by omega⟩
  · intro h
    obtain ⟨hp, hlo, hhi⟩ := h
    exact ⟨⟨hlo, by omega⟩, hp⟩

theorem members_sorted : (members p lo hi).Pairwise (· < ·) :=
  List.Pairwise.filter p (List.pairwise_lt_range' _)

theorem first_sorted : (first p lo hi n).Pairwise (· < ·) :=
  (members_sorted p lo hi).sublist (List.take_sublist n _)

theorem mem_first (h : x ∈ first p lo hi n) : p x = true ∧ lo ≤ x ∧ x ≤ hi :=
  (mem_members p lo hi x).mp (List.mem_of_mem_take h)

theorem first_length : (first p lo hi n).length ≤ n := by
  unfold first
  rw [List.length_take]
  omega

theorem mem_take_of_le (xs : List ℕ) (hs : xs.Pairwise (· < ·)) (hx : x ∈ xs) (hy : y ∈ xs.take n)
    (hle : x ≤ y) : x ∈ xs.take n := by
  induction xs generalizing n with
  | nil => exact absurd hx List.not_mem_nil
  | cons z zs ih =>
    cases n with
    | zero => exact absurd hy List.not_mem_nil
    | succ n =>
      rw [List.take_succ_cons] at hy ⊢
      obtain ⟨hz, hzs⟩ := List.pairwise_cons.mp hs
      rcases List.mem_cons.mp hx with rfl | hx'
      · exact List.mem_cons_self
      · rcases List.mem_cons.mp hy with rfl | hy'
        · have hlt := hz x hx'
          omega
        · exact List.mem_cons_of_mem z (ih n hzs hx' hy')

theorem first_initial (hp : p x = true) (hlo : lo ≤ x) (hy : y ∈ first p lo hi n) (hle : x ≤ y) :
    x ∈ first p lo hi n := by
  have hhi := (mem_first p lo hi n y hy).2.2
  exact mem_take_of_le n x y _ (members_sorted p lo hi)
    ((mem_members p lo hi x).mpr ⟨hp, hlo, by omega⟩) hy hle

/-- Fewer than `n` are all. -/
theorem first_complete (hlt : (first p lo hi n).length < n) (hp : p x = true) (hlo : lo ≤ x)
    (hhi : x ≤ hi) : x ∈ first p lo hi n := by
  unfold first at hlt ⊢
  rw [List.length_take] at hlt
  rw [List.take_of_length_le (by omega)]
  exact (mem_members p lo hi x).mpr ⟨hp, hlo, hhi⟩

theorem length_filter_of_sorted (xs : List ℕ) (hs : xs.Pairwise (· < ·)) (h : ∀ z ∈ xs, lo ≤ z) :
    xs.length ≤ (xs.filter fun z => lo < z).length + 1 := by
  cases xs with
  | nil => exact Nat.zero_le _
  | cons z zs =>
    obtain ⟨hz, _⟩ := List.pairwise_cons.mp hs
    have hzs : zs.filter (fun z => lo < z) = zs := by
      apply List.filter_eq_self.mpr
      intro w hw
      have hlo := h z List.mem_cons_self
      have hlt := hz w hw
      exact decide_eq_true (by omega)
    have hle : zs.length ≤ ((z :: zs).filter fun z => lo < z).length := by
      rw [List.filter_cons]
      split
      · rw [hzs, List.length_cons]
        omega
      · rw [hzs]
    rw [List.length_cons]
    omega

theorem members_length : (members p lo hi).length ≤ hi + 1 - lo := by
  unfold members
  have h := List.length_filter_le p (List.range' lo (hi + 1 - lo))
  rw [List.length_range'] at h
  exact h

end Window
