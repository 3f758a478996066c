/-!
# Transition systems

A system is an initial predicate and a step relation.
-/

namespace System
variable {σ : Type}

inductive Reachable (init : σ → Prop) (step : σ → σ → Prop) : σ → Prop where
  | start (s : σ) (h : init s) : Reachable init step s
  | next (s t : σ) (hs : Reachable init step s) (h : step s t) : Reachable init step t

theorem Reachable.invariant {init : σ → Prop} {step : σ → σ → Prop} (P : σ → Prop)
    (h0 : ∀ s, init s → P s) (hstep : ∀ s t, P s → step s t → P t) {s : σ}
    (h : Reachable init step s) : P s := by
  induction h with
  | start s h => exact h0 s h
  | next s t hs h ih => exact hstep s t ih h

theorem Reachable.foldlM {α : Type} {init : σ → Prop} (step : σ → α → Option σ) (as : List α)
    {s t : σ} (hs : Reachable init (fun s t => ∃ a, step s a = some t) s)
    (h : as.foldlM step s = some t) : Reachable init (fun s t => ∃ a, step s a = some t) t := by
  induction as generalizing s with
  | nil =>
    cases h
    exact hs
  | cons a as ih =>
    rw [List.foldlM_cons] at h
    obtain ⟨u, hu, h⟩ := Option.bind_eq_some_iff.mp h
    exact ih (hs.next s u ⟨a, hu⟩) h

theorem run_invariant {α : Type} (step : σ → α → Option σ) (P : σ → Prop)
    (hstep : ∀ s a t, P s → step s a = some t → P t) (as : List α) {s t : σ} (hs : P s)
    (h : as.foldlM step s = some t) : P t := by
  induction as generalizing s with
  | nil =>
    cases h
    exact hs
  | cons a as ih =>
    rw [List.foldlM_cons] at h
    obtain ⟨u, hu, h⟩ := Option.bind_eq_some_iff.mp h
    exact ih (hstep s a u hs hu) h

end System
