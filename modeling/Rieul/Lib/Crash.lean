/-!
# Programs that a crash can cut

A program acts on the state step by step.
-/

namespace Crash

inductive Prog (σ ι ℓ α : Type) where
  | done (a : α)
  | act (label : ℓ) (effect : ι → σ → σ) (next : ι → σ → Prog σ ι ℓ α)

structure Entry (τ σ ι ℓ : Type) where
  who : τ
  label : ℓ
  answer : ι
  before : σ

variable {τ σ ι ℓ ε α β : Type}

def Prog.bind : Prog σ ι ℓ α → (α → Prog σ ι ℓ β) → Prog σ ι ℓ β
  | .done a, f => f a
  | .act label effect next, f => .act label effect fun i s => (next i s).bind f

instance : Monad (Prog σ ι ℓ) where
  pure := .done
  bind := .bind

abbrev Code (σ ι ℓ ε α : Type) := ExceptT ε (Prog σ ι ℓ) α

def perform (label : ℓ) (effect : ι → σ → σ) (answer : ι → σ → Except ε α) : Code σ ι ℓ ε α :=
  ExceptT.mk (.act label effect fun i s => .done (answer i s))

def ensure (p : Prop) [Decidable p] (e : ε) : Code σ ι ℓ ε Unit := if p then pure () else throw e

def require (e : ε) : Option α → Code σ ι ℓ ε α
  | some a => pure a
  | none => throw e

/-- The outcome of `x`, whichever it is. -/
def attempt (x : Code σ ι ℓ ε α) : Code σ ι ℓ ε (Except ε α) :=
  ExceptT.mk ((ExceptT.run x).bind fun r => .done (.ok r))

/-- The next action of the program of `who`, with its answer. -/
def Prog.next (who : τ) (i : ι) : Prog σ ι ℓ α → σ → List (Entry τ σ ι ℓ) →
    Prog σ ι ℓ α × σ × List (Entry τ σ ι ℓ)
  | .done a, s, t => (.done a, s, t)
  | .act label effect next, s, t => (next i s, effect i s, ⟨who, label, i, s⟩ :: t)

/-- `I` holds at every point of the program, and `Q` at its end. -/
def Prog.Safe (who : τ) (I : σ → List (Entry τ σ ι ℓ) → Prop)
    (Q : α → σ → List (Entry τ σ ι ℓ) → Prop) : Prog σ ι ℓ α → σ → List (Entry τ σ ι ℓ) → Prop
  | .done a, s, t => I s t ∧ Q a s t
  | .act label effect next, s, t =>
    I s t ∧ ∀ i, (next i s).Safe who I Q (effect i s) (⟨who, label, i, s⟩ :: t)

variable {who : τ} {I : σ → List (Entry τ σ ι ℓ) → Prop}

section
variable {Q : α → σ → List (Entry τ σ ι ℓ) → Prop} {p : Prog σ ι ℓ α} {s : σ}
  {t : List (Entry τ σ ι ℓ)} (h : p.Safe who I Q s t)
include Q p s t h

theorem Prog.Safe.invariant : I s t := by
  cases p with
  | done a | act label effect next => exact h.1

theorem Prog.Safe.next (i : ι) :
    (p.next who i s t).1.Safe who I Q (p.next who i s t).2.1 (p.next who i s t).2.2 := by
  cases p with
  | done a => exact h
  | act label effect next => exact h.2 i

end

theorem Prog.Safe.weaken {Q R : α → σ → List (Entry τ σ ι ℓ) → Prop} {p : Prog σ ι ℓ α} {s : σ}
    {t : List (Entry τ σ ι ℓ)} (h : p.Safe who I Q s t)
    (hq : ∀ a s t, I s t → Q a s t → R a s t) : p.Safe who I R s t := by
  induction p generalizing s t with
  | done a => exact ⟨h.1, hq a s t h.1 h.2⟩
  | act label effect next ih => exact ⟨h.1, fun i => ih i s (h.2 i)⟩

theorem Prog.Safe.bind {Q : α → σ → List (Entry τ σ ι ℓ) → Prop}
    {R : β → σ → List (Entry τ σ ι ℓ) → Prop} {p : Prog σ ι ℓ α} {f : α → Prog σ ι ℓ β} {s : σ}
    {t : List (Entry τ σ ι ℓ)} (h : p.Safe who I Q s t)
    (hf : ∀ a s t, I s t → Q a s t → (f a).Safe who I R s t) : (p.bind f).Safe who I R s t := by
  induction p generalizing s t with
  | done a => exact hf a s t h.1 h.2
  | act label effect next ih => exact ⟨h.1, fun i => ih i s (h.2 i)⟩

/-- From `P`, `x` keeps `I` at every point, succeeds with `Q` or fails with `E`. -/
def Spec (who : τ) (I P : σ → List (Entry τ σ ι ℓ) → Prop) (x : Code σ ι ℓ ε α)
    (Q : α → σ → List (Entry τ σ ι ℓ) → Prop) (E : ε → σ → List (Entry τ σ ι ℓ) → Prop) : Prop :=
  ∀ s t, I s t → P s t → (ExceptT.run x).Safe who I (fun r s t => match r with
    | .ok a => Q a s t
    | .error e => E e s t) s t

section
variable {P P' : σ → List (Entry τ σ ι ℓ) → Prop} {Q Q' : α → σ → List (Entry τ σ ι ℓ) → Prop}
  {R : β → σ → List (Entry τ σ ι ℓ) → Prop} {E E' : ε → σ → List (Entry τ σ ι ℓ) → Prop}
variable {x : Code σ ι ℓ ε α}

theorem Spec.pure {a : α} (h : ∀ s t, I s t → P s t → Q a s t) :
    Spec who I P (pure a : Code σ ι ℓ ε α) Q E :=
  fun s t hi hp => ⟨hi, h s t hi hp⟩

theorem Spec.throw {e : ε} (h : ∀ s t, I s t → P s t → E e s t) :
    Spec who I P (throw e : Code σ ι ℓ ε α) Q E :=
  fun s t hi hp => ⟨hi, h s t hi hp⟩

theorem Spec.strengthen (h : Spec who I P x Q E)
    (hp : ∀ s t, I s t → P' s t → P s t) : Spec who I P' x Q E :=
  fun s t hi hs => h s t hi (hp s t hi hs)

theorem Spec.weaken (h : Spec who I P x Q E)
    (hq : ∀ a s t, I s t → Q a s t → Q' a s t) (he : ∀ e s t, I s t → E e s t → E' e s t) :
    Spec who I P x Q' E' := by
  intro s t hi hs
  refine (h s t hi hs).weaken fun r s t hi hr => ?_
  cases r with
  | ok a => exact hq a s t hi hr
  | error e => exact he e s t hi hr

theorem Spec.perform {label : ℓ} {effect : ι → σ → σ} {answer : ι → σ → Except ε α}
    (h : ∀ s t i, I s t → P s t → I (effect i s) (⟨who, label, i, s⟩ :: t) ∧
      match answer i s with
      | .ok a => Q a (effect i s) (⟨who, label, i, s⟩ :: t)
      | .error e => E e (effect i s) (⟨who, label, i, s⟩ :: t)) :
    Spec who I P (Crash.perform label effect answer) Q E :=
  fun s t hi hp => ⟨hi, fun i => h s t i hi hp⟩

theorem Spec.bind {f : α → Code σ ι ℓ ε β} (hx : Spec who I P x Q E)
    (hf : ∀ a, Spec who I (Q a) (f a) R E) : Spec who I P (x >>= f) R E := by
  intro s t hi hp
  refine (hx s t hi hp).bind fun r s t hi hr => ?_
  cases r with
  | ok a => exact hf a s t hi hr
  | error e => exact ⟨hi, hr⟩

theorem Spec.ite {c : Prop} [Decidable c] {x y : Code σ ι ℓ ε α} (hx : c → Spec who I P x Q E)
    (hy : ¬ c → Spec who I P y Q E) : Spec who I P (if c then x else y) Q E := by
  by_cases h : c
  · rw [if_pos h]
    exact hx h
  · rw [if_neg h]
    exact hy h

theorem Spec.ensure_bind {c : Prop} [Decidable c] {e : ε} {f : Unit → Code σ ι ℓ ε β}
    (h : c → Spec who I P (f ()) R E) (he : ∀ s t, I s t → P s t → E e s t) :
    Spec who I P (Crash.ensure c e >>= f) R E := by
  by_cases hc : c
  · rw [Crash.ensure, if_pos hc]
    exact h hc
  · rw [Crash.ensure, if_neg hc]
    exact fun s t hi hp => ⟨hi, he s t hi hp⟩

theorem Spec.require_bind {e : ε} {o : Option α} {f : α → Code σ ι ℓ ε β}
    (h : ∀ a, o = some a → Spec who I P (f a) R E) (he : ∀ s t, I s t → P s t → E e s t) :
    Spec who I P (Crash.require e o >>= f) R E := by
  cases o with
  | none => exact fun s t hi hp => ⟨hi, he s t hi hp⟩
  | some a => exact h a rfl

theorem Spec.attempt (h : Spec who I P x Q E) :
    Spec who I P (Crash.attempt x) (fun r s t => match r with
      | .ok a => Q a s t
      | .error e => E e s t) E' :=
  fun s t hi hp => (h s t hi hp).bind fun _ _ _ hi hr => ⟨hi, hr⟩

end

end Crash
