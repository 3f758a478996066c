import Mathlib.Data.Nat.Notation
import Mathlib.Data.List.Basic
import Mathlib.Data.Int.Notation

/-!
# The decode budget of a screen track (web/src/protocol/desktop-media.ts)

So many frames may be queued. A frame that finds no room abandons its group: the budget is reset, and
only a keyframe starts again. Every admitted frame has a callback of its own that releases it, which
may be called late or more than once.
-/

namespace Rieul.Screen.DecodeBudget

abbrev Maximum := { n : ℕ // 1 ≤ n ∧ n ≤ 8 }

structure Release where
  generation : ℕ
  released : Bool
  keyframe : Bool

/-- `releases` are the callbacks that have been handed out, in the order of their frames; `requests`
counts the keyframes that were asked for. -/
structure DesktopDecodeBudget where
  maximum : Maximum
  queued : ℤ
  generation : ℕ
  recovering : Bool
  releases : List Release
  requests : ℕ

def DesktopDecodeBudget.new (maximum : Maximum) : DesktopDecodeBudget where
  maximum := maximum
  queued := 0
  generation := 0
  recovering := true
  releases := []
  requests := 0

def reset (b : DesktopDecodeBudget) : DesktopDecodeBudget :=
  { b with
    generation := b.generation + 1
    queued := 0
    recovering := true
    requests := b.requests + 1 }

def offer (b : DesktopDecodeBudget) (keyframe : Bool) : Bool × DesktopDecodeBudget :=
  if b.recovering ∧ ¬ keyframe then (false, b)
  else if b.maximum.1 ≤ b.queued then (false, reset b)
  else (true, { b with
    recovering := false
    queued := b.queued + 1
    releases := b.releases ++ [⟨b.generation, false, keyframe⟩] })

/-- The callback of the frame `i` is called. -/
def release (b : DesktopDecodeBudget) (i : ℕ) : DesktopDecodeBudget :=
  match b.releases[i]? with
  | none => b
  | some r =>
    { b with
      queued := if ¬ r.released ∧ r.generation = b.generation then b.queued - 1 else b.queued
      releases := b.releases.set i { r with released := true } }

inductive Call where
  | offer (keyframe : Bool)
  | release (i : ℕ)
  | reset

def Call.run (b : DesktopDecodeBudget) : Call → DesktopDecodeBudget
  | .offer keyframe => (DecodeBudget.offer b keyframe).2
  | .release i => DecodeBudget.release b i
  | .reset => DecodeBudget.reset b

def run (maximum : Maximum) (calls : List Call) : DesktopDecodeBudget :=
  calls.foldl Call.run (.new maximum)

def Release.queued (generation : ℕ) (r : Release) : Bool :=
  r.generation = generation && !r.released

def Release.frame (r : Release) : ℕ × Bool := (r.generation, r.keyframe)

def DesktopDecodeBudget.admitted (b : DesktopDecodeBudget) (generation : ℕ) : List (ℕ × Bool) :=
  (b.releases.map Release.frame).filter fun f => f.1 = generation

/-- The count is exact and bounded; a generation begins with a keyframe, and the budget recovers as
long as the present one has no frame. -/
structure Exact (b : DesktopDecodeBudget) : Prop where
  count : b.queued = b.releases.countP (Release.queued b.generation)
  bound : b.queued ≤ b.maximum.1
  old (r : Release) : r ∈ b.releases → r.generation ≤ b.generation
  recovering : b.recovering = true ↔ b.admitted b.generation = []
  keyframe (generation : ℕ) (f : ℕ × Bool) :
    (b.admitted generation).head? = some f → f.2 = true

variable {b : DesktopDecodeBudget} (releases : List Release)

theorem countP_old (generation : ℕ)
    (h : ∀ r ∈ releases, r.generation < generation) :
    releases.countP (Release.queued generation) = 0 := by
  refine List.countP_eq_zero.2 fun r hr hqueued => ?_
  have hlt := h r hr
  simp only [Release.queued, Bool.and_eq_true, decide_eq_true_eq] at hqueued
  omega

theorem countP_set (i generation : ℕ) (r : Release)
    (h : releases[i]? = some r) :
    (releases.set i { r with released := true }).countP (Release.queued generation) +
      (if r.queued generation = true then 1 else 0) =
        releases.countP (Release.queued generation) := by
  induction releases generalizing i with
  | nil => simp at h
  | cons s rest ih =>
    cases i with
    | zero =>
      cases h
      simp [List.countP_cons, Release.queued]
    | succ i =>
      have hrest := ih i (by simpa using h)
      simp only [List.set_cons_succ, List.countP_cons]
      omega

theorem map_set (i : ℕ) (r : Release) (h : releases[i]? = some r) :
    (releases.set i { r with released := true }).map Release.frame =
      releases.map Release.frame := by
  induction releases generalizing i with
  | nil => simp at h
  | cons s rest ih =>
    cases i with
    | zero =>
      cases h
      rfl
    | succ i => simp [ih i (by simpa using h)]

theorem admitted_append (r : Release) (generation : ℕ) :
    ((releases ++ [r]).map Release.frame).filter (fun f => f.1 = generation) =
      (releases.map Release.frame).filter (fun f => f.1 = generation) ++
        if r.generation = generation then [r.frame] else [] := by
  rw [List.map_append, List.filter_append, List.map_cons, List.map_nil]
  by_cases h : r.generation = generation
  · simp [Release.frame, h]
  · simp [Release.frame, h]

theorem Exact.reset (h : Exact b) : Exact (reset b) where
  count := by
    have hnone := countP_old b.releases (b.generation + 1) fun r hr => Nat.lt_succ_of_le (h.old r hr)
    show (0 : ℤ) = _
    exact_mod_cast hnone.symm
  bound := by
    show (0 : ℤ) ≤ _
    exact Int.natCast_nonneg _
  old r hr := Nat.le_succ_of_le (h.old r hr)
  recovering := by
    refine ⟨fun _ => ?_, fun _ => rfl⟩
    refine List.filter_eq_nil_iff.2 fun f hf hgeneration => ?_
    obtain ⟨r, hr, rfl⟩ := List.mem_map.1 hf
    have hle := h.old r hr
    have hnext : r.generation = b.generation + 1 := of_decide_eq_true hgeneration
    omega
  keyframe := h.keyframe

theorem Exact.offer (h : Exact b) (keyframe : Bool) :
    Exact (offer b keyframe).2 := by
  unfold DecodeBudget.offer
  by_cases hrefused : b.recovering ∧ ¬ keyframe
  · rw [if_pos hrefused]
    exact h
  rw [if_neg hrefused]
  by_cases hfull : b.maximum.1 ≤ b.queued
  · rw [if_pos hfull]
    exact h.reset
  rw [if_neg hfull]
  have happend := admitted_append b.releases ⟨b.generation, false, keyframe⟩
  refine ⟨?_, ?_, fun r hr => ?_, ⟨fun hfalse => ?_, fun hnone => ?_⟩, fun g f hf => ?_⟩
  · have hcount := h.count
    simp only [List.countP_append, List.countP_singleton, Release.queued]
    simp only [decide_true, Bool.not_false, Bool.and_self, if_true]
    push_cast
    omega
  · have hroom : b.queued + 1 ≤ b.maximum.1 := by omega
    exact hroom
  · rcases List.mem_append.1 hr with hr | hr
    · exact h.old r hr
    · cases List.mem_singleton.1 hr
      exact Nat.le_refl _
  · cases hfalse
  · have hlast := (happend b.generation).symm.trans hnone
    simp at hlast
  · have hf' : ((b.admitted g) ++ if b.generation = g then [(b.generation, keyframe)] else []).head? =
        some f := (congrArg List.head? (happend g)).symm.trans hf
    cases hfirst : b.admitted g with
    | cons f' rest =>
      rw [hfirst] at hf'
      exact h.keyframe g f (by rw [hfirst]; exact hf')
    | nil =>
      rw [hfirst] at hf'
      by_cases hg : b.generation = g
      · -- nothing of this generation was admitted, so a delta frame was refused
        rw [if_pos hg] at hf'
        cases hf'
        have hrecovering := h.recovering.2 (hg ▸ hfirst)
        cases keyframe with
        | true => rfl
        | false => exact absurd ⟨hrecovering, Bool.false_ne_true⟩ hrefused
      · rw [if_neg hg] at hf'
        cases hf'

theorem Exact.release (h : Exact b) (i : ℕ) : Exact (release b i) := by
  unfold DecodeBudget.release
  cases hr : b.releases[i]? with
  | none => exact h
  | some r =>
    have hcount := countP_set b.releases i b.generation r hr
    have hframes := map_set b.releases i r hr
    have hexact := h.count
    have hbound := h.bound
    have hqueued : (r.queued b.generation = true) ↔ ¬ r.released ∧ r.generation = b.generation := by
      simp [Release.queued, and_comm]
    have hadmitted : ∀ g, ((b.releases.set i { r with released := true }).map
        Release.frame).filter (fun f => f.1 = g) = b.admitted g := fun g => by
      rw [hframes]
      rfl
    refine ⟨?_, ?_, fun s hs => ?_, ?_, fun g f hf => ?_⟩
    · dsimp only
      by_cases hlive : ¬ r.released ∧ r.generation = b.generation
      · rw [if_pos hlive]
        rw [if_pos (hqueued.2 hlive)] at hcount
        omega
      · rw [if_neg hlive]
        rw [if_neg (fun hq => hlive (hqueued.1 hq))] at hcount
        omega
    · dsimp only
      split
      · omega
      · exact hbound
    · rcases List.mem_or_eq_of_mem_set hs with hold | rfl
      · exact h.old s hold
      · exact h.old r (List.mem_of_getElem? hr)
    · rw [h.recovering, ← hadmitted b.generation]
      rfl
    · exact h.keyframe g f ((congrArg List.head? (hadmitted g)).symm.trans hf)

theorem run_exact (maximum : Maximum) (calls : List Call) : Exact (run maximum calls) := by
  have hnew : Exact (DesktopDecodeBudget.new maximum) := by
    refine ⟨rfl, Int.natCast_nonneg _, fun r hr => ?_, ⟨fun _ => rfl, fun _ => rfl⟩, fun g f hf => ?_⟩
    · cases hr
    · cases hf
  unfold run
  generalize DesktopDecodeBudget.new maximum = b at hnew
  induction calls generalizing b with
  | nil => exact hnew
  | cons c rest ih =>
    refine ih (c.run b) ?_
    cases c with
    | offer keyframe => exact hnew.offer keyframe
    | release i => exact hnew.release i
    | reset => exact hnew.reset

end Rieul.Screen.DecodeBudget
