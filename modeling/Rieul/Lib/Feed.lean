import Rieul.Lib.Retention

/-!
# Feeds

A state whose changes are told by events with consecutive numbers.
-/

namespace Feed
variable {σ ε : Type} (apply : σ → ε → σ) (seq : ε → ℕ)

/-- The events bear the numbers that follow `start`. -/
def Follows (start : ℕ) (events : List ε) : Prop :=
  events.map seq = List.range' (start + 1) events.length

/-- The state of a reader who took `state` when its number was `latest`. -/
def view (state : σ) (latest : ℕ) (events : List ε) : σ :=
  (events.filter fun event => latest < seq event).foldl apply state

theorem follows_nil (start : ℕ) : Follows seq start [] := rfl

variable {seq}

theorem Follows.append {start : ℕ} {events rest : List ε} (h : Follows seq start events)
    (hrest : Follows seq (start + events.length) rest) : Follows seq start (events ++ rest) := by
  unfold Follows at h hrest ⊢
  rw [List.map_append, h, hrest, List.length_append,
    show start + events.length + 1 = start + 1 + events.length by omega]
  exact List.range'_append_1

theorem Follows.of_append {start : ℕ} {events rest : List ε} (h : Follows seq start (events ++ rest)) :
    Follows seq start events := by
  have htake := congrArg (List.take events.length) h
  rw [List.map_append, List.take_left' (List.length_map seq), List.take_range'_of_length_ge] at htake
  · exact htake
  · simp

section
variable {start : ℕ} {events : List ε} (h : Follows seq start events)
include start events h

theorem Follows.increasing :
    (events.map seq).Pairwise (· < ·) := by
  rw [h]
  exact List.pairwise_lt_range'

theorem Follows.numbered :
    Retention.Numbered (fun event => seq event - start) events := by
  have hmap := congrArg (List.map (· - start)) h
  rw [List.map_map] at hmap
  refine Eq.trans hmap ?_
  apply List.ext_getElem
  · simp
  · intro i hi hlen
    simp only [List.getElem_map, List.getElem_range']
    omega

theorem Follows.filter_drop (m n : ℕ) (hmn : m ≤ n) :
    (events.drop m).filter (fun event => start + n < seq event) = events.drop n := by
  have hdrop := Retention.filter_drop _ h.numbered m n
  rw [Nat.max_eq_right hmn] at hdrop
  rw [← hdrop]
  apply List.filter_congr
  intro event _
  rw [decide_eq_decide]
  omega

/-- A reader of a state taken after the first `n` events ends with the state of all of them, however
early the events it gets begin. -/
theorem Follows.view_take (init : σ) (m n : ℕ) (hmn : m ≤ n) :
    view apply seq ((events.take n).foldl apply init) (start + n) (events.drop m) =
      events.foldl apply init := by
  unfold view
  rw [h.filter_drop m n hmn, ← List.foldl_append, List.take_append_drop]

end

end Feed
