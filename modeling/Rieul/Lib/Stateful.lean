import Mathlib.Logic.Basic

/-!
# Stateful code that can fail

A computation that fails keeps what it has changed before.
-/

namespace Stateful

abbrev Op (σ ε α : Type) := ExceptT ε (StateM σ) α

variable {σ τ ε α β : Type}

def exec (x : Op σ ε α) (s : σ) : Except ε α × σ := x.run s

/-- Continue when `p` holds, else fail with `e`. -/
def ensure (p : Prop) [Decidable p] (e : ε) : Op σ ε Unit := if p then pure () else throw e

/-- The value of an option, or the error `e`. -/
def require (e : ε) : Option α → Op σ ε α
  | some a => pure a
  | none => throw e

/-- The effect of `x`; its error is dropped. -/
def attempt (x : Op σ ε Unit) : Op σ ε Unit := fun s => (.ok (), (exec x s).2)

/-- A change that both ends of `x` make. -/
def finish (x : Op σ ε α) (f : σ → σ) : Op σ ε α := fun s =>
  let r := exec x s
  (r.1, f r.2)

def zoom (part : σ → τ) (put : σ → τ → σ) (x : Op τ ε α) : Op σ ε α := fun s =>
  let r := exec x (part s)
  (r.1, put s r.2)

/-- From a state with `P`, `x` succeeds with `Q` or fails with `E`. -/
def Triple (P : σ → Prop) (x : Op σ ε α) (Q : α → σ → Prop) (E : σ → Prop) : Prop :=
  ∀ s, P s → match exec x s with
    | (.ok a, t) => Q a t
    | (.error _, t) => E t

/-- Either end keeps `P`. -/
def Keeps (P : σ → Prop) (x : Op σ ε α) : Prop := Triple P x (fun _ => P) P

section
variable {P P' : σ → Prop} {Q : α → σ → Prop} {R : β → σ → Prop} {E : σ → Prop}
variable {x : Op σ ε α} {Q' : α → σ → Prop}

theorem Triple.of_exec (h : Triple P x (fun _ => E) E) (s : σ) (hs : P s) :
    E (exec x s).2 := by
  have hx := h s hs
  cases he : exec x s with
  | mk r t =>
    rw [he] at hx
    cases r with
    | ok a | error e => exact hx

theorem Keeps.exec (h : Keeps P x) (s : σ) (hs : P s) : P (exec x s).2 :=
  Triple.of_exec h s hs

theorem Triple.strengthen (h : Triple P x Q E) (hp : ∀ s, P' s → P s) :
    Triple P' x Q E :=
  fun s hs => h s (hp s hs)

theorem Triple.weaken {E' : σ → Prop} (h : Triple P x Q E)
    (hq : ∀ a s, Q a s → Q' a s) (he : ∀ s, E s → E' s) : Triple P x Q' E' := by
  intro s hs
  have hx := h s hs
  cases hr : exec x s with
  | mk r t =>
    rw [hr] at hx
    cases r with
    | ok a => exact hq a t hx
    | error e => exact he t hx

theorem Triple.and {E' : σ → Prop} (h : Triple P x Q E)
    (h' : Triple P' x Q' E') :
    Triple (fun s => P s ∧ P' s) x (fun a s => Q a s ∧ Q' a s) (fun s => E s ∧ E' s) := by
  intro s hs
  have hx := h s hs.1
  have hx' := h' s hs.2
  rcases hr : exec x s with ⟨r, t⟩
  rw [hr] at hx hx'
  cases r with
  | ok a | error e => exact ⟨hx, hx'⟩

theorem Triple.pure {a : α} (h : ∀ s, P s → Q a s) : Triple P (pure a : Op σ ε α) Q E := h

theorem Triple.throw {e : ε} (h : ∀ s, P s → E s) : Triple P (throw e : Op σ ε α) Q E := h

@[simp] theorem exec_pure (a : α) (s : σ) : exec (pure a : Op σ ε α) s = (.ok a, s) := rfl

@[simp] theorem exec_throw (e : ε) (s : σ) : exec (throw e : Op σ ε α) s = (.error e, s) := rfl

@[simp] theorem exec_get (s : σ) : exec (get : Op σ ε σ) s = (.ok s, s) := rfl

@[simp] theorem exec_modify (f : σ → σ) (s : σ) :
    exec (modify f : Op σ ε Unit) s = (.ok (), f s) := rfl

@[simp] theorem exec_attempt (x : Op σ ε Unit) (s : σ) :
    exec (attempt x) s = (.ok (), (exec x s).2) := rfl

theorem exec_bind (x : Op σ ε α) (f : α → Op σ ε β) (s : σ) :
    exec (x >>= f) s = match exec x s with
      | (.ok a, t) => exec (f a) t
      | (.error e, t) => (.error e, t) := by
  show ExceptT.bindCont f (exec x s).1 (exec x s).2 = _
  rcases exec x s with ⟨r, t⟩
  cases r with
  | ok a | error e => rfl

theorem Triple.bind {f : α → Op σ ε β} (hx : Triple P x Q E)
    (hf : ∀ a, Triple (Q a) (f a) R E) : Triple P (x >>= f) R E := by
  intro s hs
  have h := hx s hs
  rw [exec_bind]
  rcases hr : exec x s with ⟨r, t⟩
  rw [hr] at h
  cases r with
  | ok a => exact hf a t h
  | error e => exact h

/-- After `get` the state is known, with what held of it. -/
theorem Triple.get_bind {f : σ → Op σ ε β} (h : ∀ d, P d → Triple (fun s => s = d) (f d) R E) :
    Triple P ((get : Op σ ε σ) >>= f) R E := by
  intro s hs
  rw [exec_bind]
  exact h s hs s rfl

theorem Triple.modify_bind {g : σ → σ} {f : Unit → Op σ ε β} (h : Triple P' (f ()) R E)
    (hp : ∀ s, P s → P' (g s)) : Triple P (modify g >>= f) R E := by
  intro s hs
  rw [exec_bind]
  exact h (g s) (hp s hs)

theorem Triple.modify {f : σ → σ} {Q : Unit → σ → Prop} (h : ∀ s, P s → Q () (f s)) :
    Triple P (modify f : Op σ ε Unit) Q E := h

theorem Triple.ite {c : Prop} [Decidable c] {x y : Op σ ε α} (hx : c → Triple P x Q E)
    (hy : ¬ c → Triple P y Q E) : Triple P (if c then x else y) Q E := by
  by_cases h : c
  · rw [if_pos h]
    exact hx h
  · rw [if_neg h]
    exact hy h

theorem Triple.ensure_bind {c : Prop} [Decidable c] {e : ε} {f : Unit → Op σ ε β}
    (h : c → Triple P (f ()) R E) (he : ∀ s, P s → E s) :
    Triple P (ensure c e >>= f) R E := by
  intro s hs
  rw [exec_bind]
  unfold ensure
  by_cases hc : c
  · rw [if_pos hc]
    exact h hc s hs
  · rw [if_neg hc]
    exact he s hs

theorem Triple.ensure {c : Prop} [Decidable c] {e : ε} {Q : Unit → σ → Prop}
    (hq : ∀ s, P s → c → Q () s) (he : ∀ s, P s → ¬ c → E s) :
    Triple P (ensure c e : Op σ ε Unit) Q E :=
  .ite (fun h => .pure fun s hs => hq s hs h) fun h => .throw fun s hs => he s hs h

theorem Triple.require_bind {e : ε} {o : Option α} {f : α → Op σ ε β}
    (h : ∀ a, o = some a → Triple P (f a) R E) (he : ∀ s, P s → E s) :
    Triple P (require e o >>= f) R E := by
  intro s hs
  rw [exec_bind]
  cases o with
  | none => exact he s hs
  | some a => exact h a rfl s hs

theorem Triple.attempt {x : Op σ ε Unit} {Q : Unit → σ → Prop} (h : Triple P x Q (Q ())) :
    Triple P (attempt x) Q E := by
  intro s hs
  exact Triple.of_exec (E := Q ()) h s hs

theorem Triple.finish {f : σ → σ} {F : α → σ → Prop} {D : σ → Prop}
    (h : Triple P x F D) (hq : ∀ a s, F a s → Q a (f s)) (he : ∀ s, D s → E (f s)) :
    Triple P (finish x f) Q E := by
  intro s hs
  have hx := h s hs
  show match ((Stateful.exec x s).1, f (Stateful.exec x s).2) with
    | (.ok a, t) => Q a t
    | (.error _, t) => E t
  rcases hr : Stateful.exec x s with ⟨r, t⟩
  rw [hr] at hx
  cases r with
  | ok a => exact hq a t hx
  | error e => exact he t hx

theorem Triple.zoom {part : σ → τ} {put : σ → τ → σ} {x : Op τ ε α} {P₀ : σ → τ → Prop}
    {Q₀ : σ → α → τ → Prop} {E₀ : σ → τ → Prop} (h : ∀ s, P s → Triple (P₀ s) x (Q₀ s) (E₀ s))
    (hp : ∀ s, P s → P₀ s (part s)) (hq : ∀ s a t, P s → Q₀ s a t → Q a (put s t))
    (he : ∀ s t, P s → E₀ s t → E (put s t)) : Triple P (zoom part put x) Q E := by
  intro s hs
  have hx := h s hs (part s) (hp s hs)
  show match ((Stateful.exec x (part s)).1, put s (Stateful.exec x (part s)).2) with
    | (.ok a, t) => Q a t
    | (.error _, t) => E t
  rcases hr : Stateful.exec x (part s) with ⟨r, t⟩
  rw [hr] at hx
  cases r with
  | ok a => exact hq s a t hs hx
  | error e => exact he s t hs hx

theorem Keeps.forM {as : List α} {f : α → Op σ ε PUnit} (h : ∀ a ∈ as, Keeps P (f a)) :
    Keeps P (forM as f) := by
  induction as with
  | nil => exact .pure fun s hs => hs
  | cons a as ih =>
    have hrest := ih fun b hb => h b (List.mem_cons_of_mem a hb)
    rw [List.forM_cons]
    exact .bind (h a List.mem_cons_self) fun _ => hrest

end

end Stateful
