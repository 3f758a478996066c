import Mathlib.Algebra.Group.Int.Defs
import Mathlib.Algebra.GroupWithZero.Nat
import Mathlib.Data.Nat.Notation
import Mathlib.Data.List.Basic
import Mathlib.Data.Int.Notation

/-!
# The refinement budget of a stream (daemon/host/src/desktop_paintover.rs)

A retained image may be encoded again above the base rate, from the time that the base rate has saved.
Credit is in bits times microseconds and times are in nanoseconds.
-/

namespace Rieul.Screen.RefinementBudget

/-- What a saturating operation of `i128` makes of an exact result. -/
def saturating (n : ℤ) : ℤ := max (-2 ^ 127) (min n (2 ^ 127 - 1))

def windowMicros : ℕ := 250000

def bitMicros : ℤ := 8000000

def debtFloor : ℤ := -4 * 1024 * 1024 * bitMicros

structure RefinementBudget where
  last : Option ℕ
  rate : UInt64
  credit : ℤ
  suppressed : Bool

def RefinementBudget.default : RefinementBudget := ⟨none, 0, 0, false⟩

def elapsed (last now : ℕ) : ℕ := min ((now - last) / 1000) windowMicros

def accrued (b : RefinementBudget) (now : ℕ) (rate : UInt64) : ℤ :=
  if rate = 0 ∨ b.last.any (now < ·) then 0
  else match b.last with
    | some last => saturating (b.credit + (elapsed last now * b.rate.toNat : ℕ))
    | none => b.credit

def update (b : RefinementBudget) (now : ℕ) (rate : UInt64) : RefinementBudget :=
  -- a lower rate inherits no credit of the higher one
  let credit := if rate < b.rate then min (accrued b now rate) 0 else accrued b now rate
  { b with
    rate := rate
    last := some now
    credit := min credit (rate.toNat * 250000) }

def motion (b : RefinementBudget) : RefinementBudget := { b with suppressed := false }

/-- `saturating_mul(4)` of `u64`. -/
def fourfold (base : UInt64) : UInt64 := .ofNat (min (4 * base.toNat) (2 ^ 64 - 1))

def target (b : RefinementBudget) (now : ℕ) (base ceiling fps : UInt64) :
    UInt64 × RefinementBudget :=
  let b := update b now base
  let goal := min (fourfold base) ceiling
  if ¬ b.suppressed ∧ 0 < fps ∧ base < goal ∧
      (goal.toNat : ℤ) * 1000000 / fps.toNat ≤ b.credit then (goal, b)
  else (base, b)

def cost (bytes : UInt64) : ℤ := saturating (bytes.toNat * bitMicros)

def accept (b : RefinementBudget) (now : ℕ) (base bytes : UInt64) (boosted : Bool) :
    Bool × RefinementBudget :=
  let b := update b now base
  if boosted ∧ b.credit < cost bytes then (false, { b with suppressed := true })
  else (true, { b with credit := max (saturating (b.credit - cost bytes)) debtFloor })

inductive Call where
  | target (now : ℕ) (base ceiling fps : UInt64)
  | accept (now : ℕ) (base bytes : UInt64) (boosted : Bool)
  | motion

def Call.run (b : RefinementBudget) : Call → RefinementBudget
  | .target now base ceiling fps => (RefinementBudget.target b now base ceiling fps).2
  | .accept now base bytes boosted => (RefinementBudget.accept b now base bytes boosted).2
  | .motion => RefinementBudget.motion b

def runFrom (b : RefinementBudget) (calls : List Call) : RefinementBudget := calls.foldl Call.run b

def run (calls : List Call) : RefinementBudget := runFrom .default calls

def Call.inForce : Call → Option (ℕ × UInt64)
  | .target now base _ _ => some (now, base)
  | .accept now base _ _ => some (now, base)
  | .motion => none

def Call.spent (b : RefinementBudget) : Call → ℤ
  | .accept now base bytes true =>
    if (RefinementBudget.accept b now base bytes true).1 then bytes.toNat * bitMicros else 0
  | _ => 0

def spent (b : RefinementBudget) : List Call → ℤ
  | [] => 0
  | c :: rest => c.spent b + spent (c.run b) rest

def largest : List Call → ℕ
  | [] => 0
  | c :: rest => max (c.inForce.elim 0 fun p => p.2.toNat) (largest rest)

/-- The bits and nanoseconds that a rate in force since `last` carries until `now`. -/
def carried (last : Option (ℕ × UInt64)) (now : ℕ) : ℕ :=
  last.elim 0 fun p => (now - p.1) * p.2.toNat

def integral (last : Option (ℕ × UInt64)) : List Call → ℕ
  | [] => 0
  | c :: rest =>
    match c.inForce with
    | none => integral last rest
    | some (now, base) => carried last now + integral (some (now, base)) rest

def RefinementBudget.inForce (b : RefinementBudget) : Option (ℕ × UInt64) :=
  b.last.map fun last => (last, b.rate)

structure Metered (b : RefinementBudget) : Prop where
  window : b.credit ≤ b.rate.toNat * 250000
  debt : debtFloor ≤ b.credit

theorem saturating_eq (n : ℤ) (hlow : -2 ^ 127 ≤ n) (hhigh : n < 2 ^ 127) : saturating n = n := by
  unfold saturating
  omega

theorem cost_eq (bytes : UInt64) : cost bytes = bytes.toNat * bitMicros := by
  have hbytes := bytes.toNat_lt
  unfold cost bitMicros
  exact saturating_eq _ (by omega) (by omega)

theorem earned_le (b : RefinementBudget) (last now : ℕ) :
    elapsed last now * b.rate.toNat ≤ 250000 * 2 ^ 64 ∧
    1000 * (elapsed last now * b.rate.toNat) ≤ (now - last) * b.rate.toNat := by
  have hrate := b.rate.toNat_lt
  have helapsed : elapsed last now ≤ 250000 := Nat.min_le_right _ _
  have hmicros : 1000 * elapsed last now ≤ now - last := by
    have hle := Nat.min_le_left ((now - last) / 1000) windowMicros
    unfold elapsed
    omega
  refine ⟨Nat.mul_le_mul helapsed (Nat.le_of_lt hrate), ?_⟩
  rw [← Nat.mul_assoc]
  exact Nat.mul_le_mul_right _ hmicros

section Updates

variable {b : RefinementBudget} (h : Metered b) (now : ℕ) (rate : UInt64)

include h

theorem Metered.of_accrued : debtFloor ≤ accrued b now rate ∧
    1000 * max (accrued b now rate) 0 ≤ 1000 * max b.credit 0 + carried b.inForce now := by
  have hdebt := h.debt
  have hwindow := h.window
  have hrate := b.rate.toNat_lt
  unfold accrued
  by_cases hreset : rate = 0 ∨ b.last.any (now < ·)
  · rw [if_pos hreset]
    unfold debtFloor bitMicros
    omega
  · rw [if_neg hreset]
    cases hlast : b.last with
    | none =>
      refine ⟨hdebt, ?_⟩
      simp only
      omega
    | some last =>
      obtain ⟨hearned, hcarried⟩ := earned_le b last now
      have hforce : carried b.inForce now = (now - last) * b.rate.toNat := by
        simp [RefinementBudget.inForce, carried, hlast]
      unfold debtFloor bitMicros at *
      dsimp only
      rw [saturating_eq _ (by omega) (by omega), hforce]
      omega

theorem Metered.of_update : Metered (update b now rate) ∧
    1000 * max (update b now rate).credit 0 ≤
      1000 * max b.credit 0 + carried b.inForce now ∧
    (rate < b.rate → (update b now rate).credit ≤ 0) := by
  obtain ⟨hdebt, hearned⟩ := h.of_accrued now rate
  have hnonpos : debtFloor ≤ 0 := by decide
  simp only [update]
  by_cases hlower : rate < b.rate
  · simp only [if_pos hlower]
    exact ⟨⟨by dsimp only; omega, by dsimp only; omega⟩, by omega, fun _ => by omega⟩
  · simp only [if_neg hlower]
    exact ⟨⟨by dsimp only; omega, by dsimp only; omega⟩, by omega, fun hlow => absurd hlow hlower⟩

end Updates

theorem Metered.of_accept {b : RefinementBudget} (h : Metered b) (now : ℕ) (base bytes : UInt64)
    (boosted : Bool) :
    Metered (accept b now base bytes boosted).2 ∧
    (accept b now base bytes boosted).2.credit ≤ (update b now base).credit ∧
    (Call.accept now base bytes boosted).spent b +
        max (accept b now base bytes boosted).2.credit 0 ≤
      max (update b now base).credit 0 := by
  obtain ⟨⟨hwindow, hdebt⟩, -, -⟩ := h.of_update now base
  have hcost := cost_eq bytes
  have hbytes := bytes.toNat_lt
  have hrate := (update b now base).rate.toNat_lt
  have hpaid : ∀ refused : Bool, refused = (accept b now base bytes true).1 →
      (Call.accept now base bytes true).spent b =
        if refused then bytes.toNat * bitMicros else 0 := fun refused hrefused => by
    rw [hrefused]
    rfl
  by_cases hover : boosted ∧ (update b now base).credit < cost bytes
  · obtain ⟨rfl, hlow⟩ := hover
    have hresult : accept b now base bytes true =
        (false, { update b now base with suppressed := true }) := if_pos ⟨rfl, hlow⟩
    rw [hpaid false (by rw [hresult]), hresult]
    exact ⟨⟨hwindow, hdebt⟩, Int.le_refl _, by simp⟩
  · have hresult : accept b now base bytes boosted =
        (true, { update b now base with
          credit := max (saturating ((update b now base).credit - cost bytes)) debtFloor }) :=
      if_neg hover
    have hkept : saturating ((update b now base).credit - cost bytes) =
        (update b now base).credit - cost bytes := by
      unfold debtFloor bitMicros at *
      exact saturating_eq _ (by omega) (by omega)
    have hnonpos : debtFloor ≤ 0 := by decide
    have hcost_nonneg : 0 ≤ cost bytes := by
      rw [hcost]
      unfold bitMicros
      omega
    rw [hresult, hkept]
    refine ⟨⟨by dsimp only; omega, by dsimp only; omega⟩, by dsimp only; omega, ?_⟩
    cases boosted with
    | false =>
      have hnothing : (Call.accept now base bytes false).spent b = 0 := rfl
      rw [hnothing]
      dsimp only
      omega
    | true =>
      have hcovered : cost bytes ≤ (update b now base).credit := by
        by_contra hless
        exact hover ⟨rfl, by omega⟩
      rw [hpaid true (by rw [hresult]), if_pos rfl, ← hcost]
      dsimp only
      omega

theorem target_state (b : RefinementBudget) (now : ℕ) (base ceiling fps : UInt64) :
    (target b now base ceiling fps).2 = update b now base := by
  simp only [target]
  split
  · rfl
  · rfl

theorem Metered.of_call {b : RefinementBudget} (h : Metered b) (c : Call) :
    Metered (c.run b) ∧
    1000 * (c.spent b + max (c.run b).credit 0) ≤
      1000 * max b.credit 0 + (c.inForce.elim 0 fun p => carried b.inForce p.1 : ℕ) := by
  cases c with
  | target now base ceiling fps =>
    obtain ⟨hmetered, hearned, -⟩ := h.of_update now base
    have hstate := target_state b now base ceiling fps
    have hnothing : (Call.target now base ceiling fps).spent b = 0 := rfl
    simp only [Call.run, Call.inForce, Option.elim_some, hstate, hnothing]
    exact ⟨hmetered, by omega⟩
  | accept now base bytes boosted =>
    obtain ⟨-, hearned, -⟩ := h.of_update now base
    obtain ⟨hmetered, -, hpaid⟩ := h.of_accept now base bytes boosted
    simp only [Call.run, Call.inForce, Option.elim_some]
    exact ⟨hmetered, by omega⟩
  | motion =>
    have hnothing : Call.motion.spent b = 0 := rfl
    simp only [Call.run, Call.inForce, Option.elim_none, motion, hnothing]
    exact ⟨⟨h.window, h.debt⟩, by omega⟩

theorem Metered.of_calls {b : RefinementBudget} (h : Metered b) (calls : List Call) :
    Metered (runFrom b calls) := by
  induction calls generalizing b with
  | nil => exact h
  | cons c rest ih => exact ih (h.of_call c).1

theorem run_metered (calls : List Call) : Metered (run calls) :=
  Metered.of_calls ⟨by decide, by decide⟩ calls

theorem inForce_run (b : RefinementBudget) (c : Call) :
    (c.run b).inForce = c.inForce.elim b.inForce some := by
  cases c with
  | target now base ceiling fps =>
    rw [Call.run, target_state]
    rfl
  | accept now base bytes boosted =>
    simp only [Call.run, accept]
    split
    · rfl
    · rfl
  | motion => rfl

theorem spent_le_credit {b : RefinementBudget} (h : Metered b) (calls : List Call) :
    1000 * spent b calls ≤ 1000 * max b.credit 0 + integral b.inForce calls := by
  induction calls generalizing b with
  | nil =>
    simp only [spent]
    omega
  | cons c rest ih =>
    obtain ⟨hnext, hpaid⟩ := h.of_call c
    have hrest := ih hnext
    have hforce := inForce_run b c
    simp only [spent, integral]
    cases hc : c.inForce with
    | none =>
      rw [hc] at hforce hpaid
      rw [hforce] at hrest
      simp only [Option.elim_none] at hpaid hrest ⊢
      omega
    | some p =>
      obtain ⟨now, base⟩ := p
      rw [hc] at hforce hpaid
      rw [hforce] at hrest
      simp only [Option.elim_some] at hpaid hrest ⊢
      omega

theorem spent_le {b : RefinementBudget} (h : Metered b) (calls : List Call) :
    1000 * spent b calls ≤ 1000 * (250000 * largest calls : ℕ) + integral none calls := by
  induction calls generalizing b with
  | nil =>
    simp only [spent]
    omega
  | cons c rest ih =>
    cases hc : c.inForce with
    | none =>
      have hrest := ih (h.of_call c).1
      cases c with
      | target now base ceiling fps | accept now base bytes boosted => cases hc
      | motion =>
        have hnothing : Call.motion.spent b = 0 := rfl
        simp only [spent, integral, largest, hc, Option.elim_none, hnothing]
        omega
    | some p =>
      obtain ⟨now, base⟩ := p
      have hmetered := (h.of_call c).1
      have hrest := spent_le_credit hmetered rest
      have hwindow := (h.of_update now base).1.window
      have hrate : (update b now base).rate = base := rfl
      rw [hrate] at hwindow
      have hfirst : c.spent b + max (c.run b).credit 0 ≤ max (update b now base).credit 0 := by
        cases c with
        | target now' base' ceiling fps =>
          cases hc
          have hnothing : (Call.target now base ceiling fps).spent b = 0 := rfl
          rw [hnothing, Call.run, target_state]
          omega
        | accept now' base' bytes boosted =>
          cases hc
          exact (h.of_accept now base bytes boosted).2.2
        | motion => cases hc
      rw [inForce_run, hc] at hrest
      simp only [Option.elim_some] at hrest
      simp only [spent, integral, largest, hc, Option.elim_some, carried, Option.elim_none]
      omega

section
variable {b : RefinementBudget} (h : b.suppressed = true)
include b h

theorem suppressed_run (c : Call)
    (hc : c ≠ .motion) : (c.run b).suppressed = true := by
  cases c with
  | target now base ceiling fps =>
    rw [Call.run, target_state]
    exact h
  | accept now base bytes boosted =>
    simp only [Call.run, accept]
    split
    · rfl
    · exact h
  | motion => exact absurd rfl hc

theorem suppressed_runFrom (calls : List Call)
    (hcalls : .motion ∉ calls) : (runFrom b calls).suppressed = true := by
  induction calls generalizing b with
  | nil => exact h
  | cons c rest ih =>
    refine ih (suppressed_run h c fun heq => hcalls ?_) fun hrest => hcalls ?_
    · exact heq ▸ List.mem_cons_self
    · exact List.mem_cons_of_mem _ hrest

theorem target_of_suppressed (now : ℕ)
    (base ceiling fps : UInt64) : (target b now base ceiling fps).1 = base := by
  simp only [target]
  rw [if_neg fun hboost => hboost.1 h]

end

theorem target_le (b : RefinementBudget) (now : ℕ) (base ceiling fps : UInt64) :
    (target b now base ceiling fps).1 ≤ ceiling ∨
    ceiling < base ∧ (target b now base ceiling fps).1 = base := by
  have hgoal : min (fourfold base) ceiling ≤ ceiling := Std.min_le_right
  simp only [target]
  split
  · exact .inl hgoal
  · rcases UInt64.le_or_lt base ceiling with hle | hlt
    · exact .inl hle
    · exact .inr ⟨hlt, rfl⟩

/-- After any calls, the boosted objects of the calls that follow are paid for by 250 ms of the
largest base rate among them and by what the base rate carries in the meantime. -/
theorem refinement_is_metered (calls : List Call) :
    let b := run calls
    (∀ interval, 1000 * spent b interval ≤
      1000 * (250000 * largest interval : ℕ) + integral none interval) ∧
    (b.credit ≤ b.rate.toNat * 250000 ∧ debtFloor ≤ b.credit) ∧
    (∀ (c : Call) now base, c.inForce = some (now, base) → base < b.rate →
      (c.run b).credit ≤ 0) ∧
    (∀ now base bytes, (accept b now base bytes true).1 = false →
      (accept b now base bytes true).2 = { update b now base with suppressed := true } ∧
      ∀ following : List Call, .motion ∉ following → ∀ now' base' ceiling fps,
        (target (runFrom (accept b now base bytes true).2 following) now' base' ceiling fps).1 =
          base') ∧
    ∀ now base ceiling fps, (target b now base ceiling fps).1 ≤ ceiling ∨
      ceiling < base ∧ (target b now base ceiling fps).1 = base := by
  intro b
  have h : Metered b := run_metered calls
  refine ⟨fun interval => spent_le h interval, ⟨h.window, h.debt⟩, fun c now base hc hlower => ?_,
    fun now base bytes hrefused => ?_, fun now base ceiling fps => target_le b now base ceiling fps⟩
  · have hcut := (h.of_update now base).2.2 hlower
    cases c with
    | target now' base' ceiling fps =>
      cases hc
      rw [Call.run, target_state]
      exact hcut
    | accept now' base' bytes boosted =>
      cases hc
      exact Int.le_trans (h.of_accept now base bytes boosted).2.1 hcut
    | motion => cases hc
  · have hstate : (accept b now base bytes true).2 =
        { update b now base with suppressed := true } := by
      simp only [accept] at hrefused ⊢
      split at hrefused
      · next hlow => rw [if_pos hlow]
      · cases hrefused
    refine ⟨hstate, fun following hnone now' base' ceiling fps => ?_⟩
    have hsuppressed := suppressed_runFrom (b := (accept b now base bytes true).2)
      (by rw [hstate]) following hnone
    exact target_of_suppressed hsuppressed now' base' ceiling fps

end Rieul.Screen.RefinementBudget
