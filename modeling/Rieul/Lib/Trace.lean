/-!
# Traces

What happened is a list of events, the newest first.
-/

namespace Trace
variable {ε : Type}

def Sound (justified : ε → List ε → Prop) : List ε → Prop
  | [] => True
  | event :: before => justified event before ∧ Sound justified before

variable {justified : ε → List ε → Prop}

theorem Sound.justifies {after before : List ε} {event : ε}
    (h : Sound justified (after ++ event :: before)) : justified event before := by
  induction after with
  | nil => exact h.1
  | cons other after ih => exact ih h.2

end Trace
