import Mathlib.Data.Option.Basic

/-!
# Fallible code

`ensure` and `require` are the early returns of fallible code: a failed check or a missing value
ends the computation with its error.
-/

namespace Fallible
variable {ε α β : Type}

/-- Continue when `p` holds, else stop with `e`. -/
def ensure (p : Prop) [Decidable p] (e : ε) : Except ε Unit := if p then .ok () else .error e

/-- The value of an option, or the error `e`. -/
def require (e : ε) : Option α → Except ε α
  | some a => .ok a
  | none => .error e

@[simp] theorem ensure_eq_ok (p : Prop) [Decidable p] (e : ε) (u : Unit) :
    ensure p e = .ok u ↔ p := by
  by_cases h : p <;> simp [ensure, h]

@[simp] theorem ensure_eq_error (p : Prop) [Decidable p] (e e' : ε) :
    ensure p e = .error e' ↔ ¬ p ∧ e = e' := by
  by_cases h : p <;> simp [ensure, h]

theorem ensure_of (p : Prop) [Decidable p] (e : ε) (h : p) : ensure p e = .ok () := by
  simp [h]

@[simp] theorem require_eq_ok (e : ε) (o : Option α) (a : α) : require e o = .ok a ↔ o = some a := by
  cases o <;> simp [require]

@[simp] theorem require_some (e : ε) (a : α) : require e (some a) = .ok a := rfl

@[simp] theorem bind_eq_ok (x : Except ε α) (f : α → Except ε β) (b : β) :
    (x >>= f) = .ok b ↔ ∃ a, x = .ok a ∧ f a = .ok b := by
  cases x with
  | error e => simp [bind, Except.bind]
  | ok a => simp [bind, Except.bind]

@[simp] theorem bind_unit_eq_ok (x : Except ε Unit) (f : Unit → Except ε β) (b : β) :
    (x >>= f) = .ok b ↔ x = .ok () ∧ f () = .ok b := by
  rw [bind_eq_ok]
  exact ⟨fun ⟨_, h⟩ => h, fun h => ⟨(), h⟩⟩

theorem exists_unit_iff (P : Unit → Prop) : (∃ u, P u) ↔ P () :=
  ⟨fun ⟨_, h⟩ => h, fun h => ⟨(), h⟩⟩

theorem ok_bind (a : α) (f : α → Except ε β) : ((Except.ok a : Except ε α) >>= f) = f a := rfl

@[simp] theorem pure_eq_ok (a b : α) : (pure a : Except ε α) = .ok b ↔ a = b := by
  simp [pure, Except.pure]

@[simp] theorem map_eq_ok (f : α → β) (x : Except ε α) (b : β) :
    (f <$> x) = .ok b ↔ ∃ a, x = .ok a ∧ f a = b := by
  cases x with
  | error e => simp [Functor.map, Except.map]
  | ok a => simp [Functor.map, Except.map]

/-- Errors of `x` translated by `f` (the source's `From` conversions). -/
def liftError {ε' : Type} (f : ε → ε') : Except ε α → Except ε' α
  | .ok a => .ok a
  | .error e => .error (f e)

@[simp] theorem liftError_eq_ok {ε' : Type} (f : ε → ε') (x : Except ε α) (a : α) :
    liftError f x = .ok a ↔ x = .ok a := by
  cases x <;> simp [liftError]

theorem bind_ne_error (x : Except ε α) (f : α → Except ε β) (e : ε) (hx : x ≠ .error e)
    (hf : ∀ a, x = .ok a → f a ≠ .error e) : (x >>= f) ≠ .error e := by
  cases x with
  | error e' => exact fun h => hx (congrArg _ (Except.error.inj h))
  | ok a => exact hf a rfl

theorem ensure_ne_error (p : Prop) [Decidable p] (e e' : ε) (h : ¬ p → e ≠ e') :
    ensure p e ≠ .error e' := by
  intro he
  obtain ⟨hp, heq⟩ := (ensure_eq_error p e e').mp he
  exact h hp heq

theorem exists_of_toBool (x : Except ε α) (h : x.toBool = true) : ∃ a, x = .ok a := by
  cases x with
  | error e => contradiction
  | ok a => exact ⟨a, rfl⟩

theorem eq_ok_of_toOption {x : Except ε α} {a : α} (h : x.toOption = some a) : x = .ok a := by
  cases x with
  | error e => contradiction
  | ok b => exact congrArg Except.ok (Option.some.inj h)

theorem exists_of_any (x : Option α) (p : α → Bool) (h : x.any p = true) :
    ∃ a, x = some a ∧ p a = true := by
  cases x with
  | none => contradiction
  | some a => exact ⟨a, rfl, h⟩

end Fallible
