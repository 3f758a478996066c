import Rieul.Cluster.Platform
import Mathlib.Data.List.Perm.Subperm
import Mathlib.Data.List.Rotate

/-!
# Fallback window (daemon/host/src/cluster/primary/runtime/worker.rs)

Next to the cached primary a tick tries at most three of the other peers. The
window goes on where the last one ended, around the list.
-/

namespace Rieul.Cluster

def fallbackWindow (peers : List (Id × String)) (cursor : ℕ) : List (Id × String) × ℕ :=
  if h : 0 < peers.length then
    let start := cursor % peers.length
    let count := min peers.length 3
    ((List.range count).map fun i => peers.get ⟨(start + i) % peers.length, Nat.mod_lt _ h⟩,
      (start + count) % peers.length)
  else ([], cursor)

def fallbackWindows (peers : List (Id × String)) : ℕ → ℕ → List (List (Id × String))
  | _, 0 => []
  | cursor, calls + 1 =>
    let (batch, next) := fallbackWindow peers cursor
    batch :: fallbackWindows peers next calls

section
variable (peers : List (Id × String)) (cursor : ℕ)

theorem fallbackWindow_batch : (fallbackWindow peers cursor).1 = (peers.rotate cursor).take 3 := by
  unfold fallbackWindow
  split
  case isFalse h =>
    rw [List.length_eq_zero_iff.mp (Nat.eq_zero_of_not_pos h), List.rotate_nil, List.take_nil]
  case isTrue h =>
    apply List.ext_getElem
    · simp only [List.length_map, List.length_range, List.length_take, List.length_rotate]
      omega
    · intro i hi hi'
      simp only [List.getElem_map, List.getElem_range, List.getElem_take, List.getElem_rotate,
        List.get_eq_getElem]
      congr 1
      rw [Nat.mod_add_mod, Nat.add_comm]

theorem fallbackWindow_next (hlength : 3 ≤ peers.length) :
    peers.rotate (fallbackWindow peers cursor).2 = (peers.rotate cursor).rotate 3 := by
  unfold fallbackWindow
  rw [dif_pos (by omega), List.rotate_rotate]
  dsimp only
  rw [List.rotate_mod, Nat.min_eq_right hlength, ← List.rotate_mod, Nat.mod_add_mod,
    List.rotate_mod]

theorem fallbackWindows_take (calls : ℕ) (peer : Id × String)
    (hmem : peer ∈ (peers.rotate cursor).take (3 * calls)) :
    ∃ batch ∈ fallbackWindows peers cursor calls, peer ∈ batch := by
  induction calls generalizing cursor with
  | zero => simp at hmem
  | succ calls ih =>
    have hbatch := fallbackWindow_batch peers cursor
    by_cases hfirst : peer ∈ (peers.rotate cursor).take 3
    · exact ⟨_, List.mem_cons_self, hbatch ▸ hfirst⟩
    · have hlength : 3 ≤ peers.length := by
        by_contra hshort
        rw [List.take_of_length_le (by rw [List.length_rotate]; omega)] at hfirst
        exact hfirst (List.mem_of_mem_take hmem)
      -- what follows the first three is where the next call's rotation starts
      have hrest : peer ∈ ((peers.rotate cursor).drop 3).take (3 * calls) := by
        rw [Nat.mul_add, Nat.add_comm, List.take_add, List.mem_append] at hmem
        exact hmem.resolve_left hfirst
      have hnext : peer ∈ (peers.rotate (fallbackWindow peers cursor).2).take (3 * calls) := by
        rw [fallbackWindow_next peers cursor hlength,
          List.rotate_eq_drop_append_take (by rw [List.length_rotate]; exact hlength),
          List.take_append]
        exact List.mem_append_left _ hrest
      obtain ⟨batch, hin, hpeer⟩ := ih _ hnext
      exact ⟨batch, List.mem_cons_of_mem _ hin, hpeer⟩

theorem fallbackWindows_drop (calls first : ℕ) :
    ∃ next, (fallbackWindows peers cursor calls).drop first =
      fallbackWindows peers next (calls - first) := by
  induction first generalizing cursor calls with
  | zero => exact ⟨cursor, rfl⟩
  | succ first ih =>
    cases calls with
    | zero => exact ⟨cursor, by simp [fallbackWindows]⟩
    | succ calls =>
      obtain ⟨next, hnext⟩ := ih (fallbackWindow peers cursor).2 calls
      exact ⟨next, by rw [Nat.add_sub_add_right, ← hnext]; rfl⟩

theorem fallbackWindows_first (calls count : ℕ) (hle : count ≤ calls) :
    (fallbackWindows peers cursor calls).take count = fallbackWindows peers cursor count := by
  induction count generalizing cursor calls with
  | zero => rfl
  | succ count ih =>
    obtain ⟨rest, rfl⟩ := Nat.exists_eq_add_of_le' hle
    exact congrArg _ (ih (fallbackWindow peers cursor).2 (rest + count) (by omega))

/-- No call returns more than three peers or one peer twice, and any third of as
many calls in a row as there are peers, rounded up, return each of them. -/
theorem fallbackWindows_cover :
    (fallbackWindow peers cursor).1.length ≤ 3 ∧ (fallbackWindow peers cursor).1.Subperm peers ∧
    (peers.Nodup → (fallbackWindow peers cursor).1.Nodup) ∧
    ∀ calls first, first + (peers.length + 2) / 3 ≤ calls → ∀ peer ∈ peers,
      ∃ batch ∈ ((fallbackWindows peers cursor calls).drop first).take ((peers.length + 2) / 3),
        peer ∈ batch := by
  rw [fallbackWindow_batch]
  have htake := List.take_sublist 3 (peers.rotate cursor)
  refine ⟨List.length_take_le _ _, htake.subperm.trans (List.rotate_perm _ _).subperm, ?_, ?_⟩
  · intro hnodup
    exact (List.nodup_rotate.mpr hnodup).sublist htake
  · intro calls first hcalls peer hpeer
    obtain ⟨next, hnext⟩ := fallbackWindows_drop peers cursor calls first
    rw [hnext, fallbackWindows_first peers next _ _ (by omega)]
    apply fallbackWindows_take
    rw [List.take_of_length_le (by rw [List.length_rotate]; omega)]
    exact List.mem_rotate.mpr hpeer

end

end Rieul.Cluster
