/-!
# Monitors

A list of events, the oldest first, is orderly if each event is allowed by what those before it leave.
-/

namespace Monitor
variable {σ ε : Type} {next : σ → ε → σ} {allows : σ → ε → Prop}

def Orderly (next : σ → ε → σ) (allows : σ → ε → Prop) : σ → List ε → Prop
  | _, [] => True
  | s, e :: rest => allows s e ∧ Orderly next allows (next s e) rest

theorem orderly_append (s : σ) (before after : List ε) :
    Orderly next allows s (before ++ after) ↔
      Orderly next allows s before ∧ Orderly next allows (before.foldl next s) after := by
  induction before generalizing s with
  | nil => simp [Orderly]
  | cons e before ih => simp [Orderly, ih, and_assoc]

theorem Orderly.snoc {s : σ} {events : List ε} {e : ε} (h : Orderly next allows s events)
    (he : allows (events.foldl next s) e) : Orderly next allows s (events ++ [e]) :=
  (orderly_append s events [e]).2 ⟨h, he, trivial⟩

end Monitor
