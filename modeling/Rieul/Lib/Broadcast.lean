import Mathlib.Data.List.Infix

/-!
# A broadcast channel

A channel keeps the last values that were sent, at most its capacity.
-/

namespace Broadcast
variable {α : Type} (capacity : ℕ)

inductive Received (α : Type) where
  | value (a : α)
  | lagged
  deriving DecidableEq

/-- What a receiver at `next` reads, if anything, and where it stands then. -/
def recv (sent : List α) (next : ℕ) : Option (Received α × ℕ) :=
  if next + capacity < sent.length then some (.lagged, sent.length - capacity)
  else (sent.drop next).head?.map fun a => (.value a, next + 1)

theorem recv_value (sent : List α) (next : ℕ) (a : α) (next' : ℕ)
    (h : recv capacity sent next = some (.value a, next')) :
    next' = next + 1 ∧ sent.drop next = a :: sent.drop (next + 1) := by
  unfold recv at h
  split at h
  · cases h
  · cases hdrop : sent.drop next with
    | nil =>
      rw [hdrop] at h
      cases h
    | cons b rest =>
      rw [hdrop] at h
      cases h
      refine ⟨rfl, ?_⟩
      rw [← List.drop_drop, hdrop]
      rfl

theorem recv_lagged (sent : List α) (next next' : ℕ)
    (h : recv capacity sent next = some (.lagged, next')) :
    next' = sent.length - capacity ∧ next < next' := by
  unfold recv at h
  split at h
  · cases h
    omega
  · cases hdrop : (sent.drop next).head? with
    | none | some b =>
      rw [hdrop] at h
      cases h

theorem recv_of_le (sent : List α) (next : ℕ) (h : sent.length ≤ next + capacity) :
    recv capacity sent next = (sent.drop next).head?.map fun a => (.value a, next + 1) := by
  unfold recv
  rw [if_neg (by omega)]

theorem drop_suffix (sent : List α) (next next' : ℕ) (h : next ≤ next') :
    sent.drop next' <:+ sent.drop next := by
  rw [show next' = next + (next' - next) by omega, ← List.drop_drop]
  exact List.drop_suffix _ _

end Broadcast
