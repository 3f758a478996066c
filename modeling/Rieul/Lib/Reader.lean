import Mathlib.Data.List.Infix

/-!
# Readers

A reader takes a value from the front of its input or fails.
-/

def Reader (τ ε α : Type) : Type := List τ → Except ε (α × List τ)

namespace Reader
variable {τ ε α β : Type}

instance : Monad (Reader τ ε) where
  pure a := fun s => .ok (a, s)
  bind p f := fun s => match p s with
    | .ok (a, r) => f a r
    | .error e => .error e

def fail (e : ε) : Reader τ ε α := fun _ => .error e

def ensure (p : Prop) [Decidable p] (e : ε) : Reader τ ε Unit := if p then pure () else fail e

def require (e : ε) : Option α → Reader τ ε α
  | some a => pure a
  | none => fail e

/-- The next `n` elements. -/
def take (eof : ε) (n : ℕ) : Reader τ ε (List τ) := fun s =>
  if n ≤ s.length then .ok (s.take n, s.drop n) else .error eof

/-- At least `n` elements are left. -/
def need (eof : ε) (n : ℕ) : Reader τ ε Unit := fun s =>
  if n ≤ s.length then .ok ((), s) else .error eof

/-- `n` values, one after the other. -/
def times (p : Reader τ ε α) : ℕ → Reader τ ε (List α)
  | 0 => pure []
  | n + 1 => do
    let a ← p
    let as ← times p n
    pure (a :: as)

variable (p : Reader τ ε α) (f : α → Reader τ ε β) (s r t : List τ) (a : α) (b : β) (e eof : ε)

theorem pure_run : (pure a : Reader τ ε α) s = .ok (a, s) := rfl

theorem pure_eq_ok : (pure a : Reader τ ε α) s = .ok (a', r) ↔ a = a' ∧ s = r := by
  rw [pure_run]
  constructor
  · intro h
    cases h
    exact ⟨rfl, rfl⟩
  · rintro ⟨rfl, rfl⟩
    rfl

theorem bind_run (h : p s = .ok (a, r)) : (p >>= f) s = f a r := by
  show (match p s with | .ok (a, r) => f a r | .error e => .error e) = f a r
  rw [h]

theorem bind_run_error (h : p s = .error e) : (p >>= f) s = .error e := by
  show (match p s with | .ok (a, r) => f a r | .error e => .error e) = _
  rw [h]

theorem bind_eq_ok : (p >>= f) s = .ok (b, t) ↔ ∃ a r, p s = .ok (a, r) ∧ f a r = .ok (b, t) := by
  cases h : p s with
  | error e =>
    rw [bind_run_error p f s e h]
    constructor
    · intro h
      cases h
    · rintro ⟨a, r, h, _⟩
      cases h
  | ok o =>
    obtain ⟨a, r⟩ := o
    rw [bind_run p f s r a h]
    constructor
    · exact fun hf => ⟨a, r, rfl, hf⟩
    · rintro ⟨a, r, h, hf⟩
      cases h
      exact hf

theorem bind_eq_error : (p >>= f) s = .error e ↔
    p s = .error e ∨ ∃ a r, p s = .ok (a, r) ∧ f a r = .error e := by
  cases h : p s with
  | error e' =>
    rw [bind_run_error p f s e' h]
    constructor
    · intro he
      cases he
      exact .inl rfl
    · rintro (he | ⟨a, r, hok, _⟩)
      · cases he
        rfl
      · cases hok
  | ok o =>
    obtain ⟨a, r⟩ := o
    rw [bind_run p f s r a h]
    constructor
    · exact fun he => .inr ⟨a, r, rfl, he⟩
    · rintro (he | ⟨a, r, hok, he⟩)
      · cases he
      · cases hok
        exact he

theorem ensure_eq_ok (c : Prop) [Decidable c] (u : Unit) :
    ensure c e s = .ok (u, r) ↔ c ∧ s = r := by
  unfold ensure
  split
  · rename_i hc
    exact (pure_eq_ok s r ()).trans ⟨fun h => ⟨hc, h.2⟩, fun h => ⟨rfl, h.2⟩⟩
  · rename_i hc
    constructor
    · intro h
      cases h
    · exact fun h => absurd h.1 hc

theorem ensure_run (c : Prop) [Decidable c] (h : c) : ensure c e s = .ok ((), s) :=
  (ensure_eq_ok s s e c ()).mpr ⟨h, rfl⟩

theorem require_eq_ok (o : Option α) : require e o s = .ok (a, r) ↔ o = some a ∧ s = r := by
  cases o with
  | none =>
    constructor
    · intro h
      cases h
    · rintro ⟨h, _⟩
      cases h
  | some a' =>
    rw [Option.some.injEq]
    exact pure_eq_ok s r a'

theorem take_run (u : List τ) : take eof u.length (u ++ r) = .ok (u, r) := by
  unfold take
  rw [if_pos (by rw [List.length_append]; omega), List.take_left, List.drop_left]

theorem take_eq_ok (n : ℕ) (u : List τ) :
    take eof n s = .ok (u, r) ↔ u.length = n ∧ s = u ++ r := by
  constructor
  · intro h
    unfold take at h
    split at h
    · rename_i hle
      cases h
      exact ⟨List.length_take_of_le hle, (List.take_append_drop n s).symm⟩
    · cases h
  · rintro ⟨rfl, rfl⟩
    exact take_run r eof u

theorem need_eq_ok (n : ℕ) (u : Unit) : need eof n s = .ok (u, r) ↔ n ≤ s.length ∧ s = r := by
  unfold need
  split
  · rename_i hle
    constructor
    · intro h
      cases h
      exact ⟨hle, rfl⟩
    · rintro ⟨_, rfl⟩
      rfl
  · rename_i hle
    constructor
    · intro h
      cases h
    · exact fun h => absurd h.1 hle

theorem need_run (n : ℕ) (h : n ≤ s.length) : need eof n s = .ok ((), s) :=
  (need_eq_ok s s eof n ()).mpr ⟨h, rfl⟩

structure Streams (eof : ε) (p : Reader τ ε α) : Prop where
  rest : ∀ s a r, p s = .ok (a, r) → r <:+ s
  value : ∀ s a r t, p s = .ok (a, r) → p (s ++ t) = .ok (a, r ++ t)
  error : ∀ s e t, p s = .error e → e ≠ eof → p (s ++ t) = .error e

variable {p f eof}

theorem streams_pure : Streams eof (pure a : Reader τ ε α) where
  rest s a' r h := by
    obtain ⟨_, rfl⟩ := (pure_eq_ok s r a).mp h
    exact List.suffix_rfl
  value s a' r t h := by
    obtain ⟨rfl, rfl⟩ := (pure_eq_ok s r a).mp h
    rfl
  error s e t h := by cases h

theorem streams_fail : Streams eof (fail e : Reader τ ε α) where
  rest s a r h := by cases h
  value s a r t h := by cases h
  error s e' t h _ := h

theorem Streams.bind (hp : Streams eof p) (hf : ∀ a, Streams eof (f a)) :
    Streams eof (p >>= f) where
  rest s b t h := by
    obtain ⟨a, r, hok, h⟩ := (bind_eq_ok p f s t b).mp h
    exact ((hf a).rest r b t h).trans (hp.rest s a r hok)
  value s b t u h := by
    obtain ⟨a, r, hok, h⟩ := (bind_eq_ok p f s t b).mp h
    rw [bind_run p f _ _ a (hp.value s a r u hok)]
    exact (hf a).value r b t u h
  error s e u h hne := by
    rcases (bind_eq_error p f s e).mp h with h | ⟨a, r, hok, h⟩
    · exact bind_run_error p f _ e (hp.error s e u h hne)
    · rw [bind_run p f _ _ a (hp.value s a r u hok)]
      exact (hf a).error r e u h hne

theorem streams_ite (c : Prop) [Decidable c] {q : Reader τ ε α} (hp : Streams eof p)
    (hq : Streams eof q) : Streams eof (if c then p else q) := by
  split
  · exact hp
  · exact hq

theorem streams_ensure (c : Prop) [Decidable c] : Streams eof (ensure c e : Reader τ ε Unit) :=
  streams_ite c (streams_pure ()) (streams_fail e)

theorem streams_require (o : Option α) : Streams eof (require e o : Reader τ ε α) := by
  cases o with
  | none => exact streams_fail e
  | some a => exact streams_pure a

theorem streams_take (n : ℕ) : Streams eof (take eof n : Reader τ ε (List τ)) where
  rest s u r h := by
    obtain ⟨_, rfl⟩ := (take_eq_ok s r eof n u).mp h
    exact List.suffix_append u r
  value s u r t h := by
    obtain ⟨rfl, rfl⟩ := (take_eq_ok s r eof n u).mp h
    rw [List.append_assoc]
    exact take_run (r ++ t) eof u
  error s e t h hne := by
    unfold take at h
    split at h
    · cases h
    · cases h
      exact absurd rfl hne

theorem streams_need (n : ℕ) : Streams eof (need eof n : Reader τ ε Unit) where
  rest s u r h := by
    obtain ⟨_, rfl⟩ := (need_eq_ok s r eof n u).mp h
    exact List.suffix_rfl
  value s u r t h := by
    obtain ⟨hle, rfl⟩ := (need_eq_ok s r eof n u).mp h
    exact need_run (s ++ t) eof n (by rw [List.length_append]; omega)
  error s e t h hne := by
    unfold need at h
    split at h
    · cases h
    · cases h
      exact absurd rfl hne

theorem Streams.times (hp : Streams eof p) (n : ℕ) : Streams eof (times p n) := by
  induction n with
  | zero => exact streams_pure []
  | succ n ih => exact hp.bind fun a => ih.bind fun as => streams_pure (a :: as)

def mapError {ε' : Type} (g : ε → ε') (p : Reader τ ε α) : Reader τ ε' α := fun s =>
  match p s with
  | .ok o => .ok o
  | .error e => .error (g e)

section
variable {ε' : Type} (g : ε → ε') (e' : ε')

theorem mapError_eq_ok : mapError g p s = .ok (a, r) ↔ p s = .ok (a, r) := by
  unfold mapError
  cases p s with
  | ok o =>
    constructor
    · intro h
      cases h
      rfl
    · intro h
      cases h
      rfl
  | error e =>
    constructor
    · intro h
      cases h
    · intro h
      cases h

theorem mapError_eq_error : mapError g p s = .error e' ↔ ∃ e, p s = .error e ∧ g e = e' := by
  unfold mapError
  cases p s with
  | ok o =>
    constructor
    · intro h
      cases h
    · rintro ⟨e, h, _⟩
      cases h
  | error e =>
    constructor
    · intro h
      cases h
      exact ⟨e, rfl, rfl⟩
    · rintro ⟨e, h, rfl⟩
      cases h
      rfl

theorem Streams.mapError (hp : Streams eof p) (heof : g eof = e') :
    Streams e' (mapError g p) where
  rest s a r h := hp.rest s a r ((mapError_eq_ok s r a g).mp h)
  value s a r t h :=
    (mapError_eq_ok (s ++ t) (r ++ t) a g).mpr (hp.value s a r t ((mapError_eq_ok s r a g).mp h))
  error s e t h hne := by
    obtain ⟨e₀, he, rfl⟩ := (mapError_eq_error s g e).mp h
    have hhard : e₀ ≠ eof := by
      rintro rfl
      exact hne heof
    exact (mapError_eq_error (s ++ t) g _).mpr ⟨e₀, hp.error s e₀ t he hhard, rfl⟩

end

section
variable [DecidableEq ε]

/-- What `p` makes of a buffer that may still grow. -/
def sofar (eof : ε) (p : Reader τ ε α) (s : List τ) : Except ε (Option (α × List τ)) :=
  match p s with
  | .ok o => .ok (some o)
  | .error e => if e = eof then .ok none else .error e

def extended (t : List τ) : Except ε (Option (α × List τ)) → Except ε (Option (α × List τ)) :=
  Except.map (Option.map fun o => (o.1, o.2 ++ t))

theorem Streams.sofar_append (hp : Streams eof p) (h : sofar eof p s ≠ .ok none) :
    sofar eof p (s ++ t) = extended t (sofar eof p s) := by
  unfold sofar at h ⊢
  cases hs : p s with
  | ok o =>
    rw [hp.value s o.1 o.2 t hs]
    rfl
  | error e =>
    rw [hs] at h
    by_cases he : e = eof
    · exact absurd (if_pos he) h
    · rw [hp.error s e t hs he]
      simp only [if_neg he]
      rfl

/-- What is a whole value to its last element is none before that. -/
theorem Streams.sofar_front (hp : Streams eof p) (h : sofar eof p (s ++ t) = .ok (some (a, [])))
    (ht : t ≠ []) : sofar eof p s = .ok none := by
  by_contra hs
  rw [hp.sofar_append s t hs] at h
  rcases hd : sofar eof p s with e | _ | o
  · rw [hd] at h
    cases h
  · exact hs hd
  · rw [hd] at h
    injection h with h
    injection h with h
    exact ht (List.append_eq_nil_iff.mp (congrArg Prod.snd h)).2

end

def Consumes (p : Reader τ ε α) : Prop := ∀ s a r, p s = .ok (a, r) → r.length < s.length

structure Drained (τ ε α : Type) where
  values : List α
  rest : Except ε (List τ)

namespace Drained

def prepend (as : List α) (d : Drained τ ε α) : Drained τ ε α := ⟨as ++ d.values, d.rest⟩

theorem prepend_prepend (as bs : List α) (d : Drained τ ε α) :
    (d.prepend bs).prepend as = d.prepend (as ++ bs) := by
  unfold prepend
  rw [List.append_assoc]

end Drained

def drain [DecidableEq ε] (eof : ε) (p : Reader τ ε α) (hc : Consumes p) (s : List τ) :
    Drained τ ε α :=
  match _h : p s with
  | .ok (a, r) => (drain eof p hc r).prepend [a]
  | .error e => if e = eof then ⟨[], .ok s⟩ else ⟨[], .error e⟩
termination_by s.length
decreasing_by exact hc s a r _h

def feed [DecidableEq ε] (eof : ε) (p : Reader τ ε α) (hc : Consumes p) (d : Drained τ ε α)
    (piece : List τ) : Drained τ ε α :=
  match d.rest with
  | .ok buffer => (drain eof p hc (buffer ++ piece)).prepend d.values
  | .error _ => d

section
variable [DecidableEq ε] {eof : ε} {p : Reader τ ε α} (hc : Consumes p) {s r : List τ} {a : α} {e : ε}

theorem drain_ok (h : p s = .ok (a, r)) : drain eof p hc s = (drain eof p hc r).prepend [a] := by
  rw [drain]
  split
  · rename_i a' r' h'
    cases h.symm.trans h'
    rfl
  · rename_i e' h'
    cases h.symm.trans h'

theorem drain_eof (h : p s = .error eof) : drain eof p hc s = ⟨[], .ok s⟩ := by
  rw [drain]
  split
  · rename_i a' r' h'
    cases h.symm.trans h'
  · rename_i e' h'
    cases h.symm.trans h'
    exact if_pos rfl

theorem drain_error (h : p s = .error e) (hne : e ≠ eof) :
    drain eof p hc s = ⟨[], .error e⟩ := by
  rw [drain]
  split
  · rename_i a' r' h'
    cases h.symm.trans h'
  · rename_i e' h'
    cases h.symm.trans h'
    exact if_neg hne

theorem drain_rest (s u : List τ) (h : (drain eof p hc s).rest = .ok u) : p u = .error eof := by
  induction hn : s.length using Nat.strong_induction_on generalizing s with
  | _ n ih =>
    cases hp : p s with
    | ok o =>
      obtain ⟨a, r⟩ := o
      rw [drain_ok hc hp] at h
      exact ih r.length (hn ▸ hc s a r hp) r h rfl
    | error e =>
      by_cases he : e = eof
      · rw [he] at hp
        rw [drain_eof hc hp] at h
        cases h
        exact hp
      · rw [drain_error hc hp he] at h
        cases h

theorem drain_suffix (hp : Streams eof p) (s u : List τ) (h : (drain eof p hc s).rest = .ok u) :
    u <:+ s := by
  induction hn : s.length using Nat.strong_induction_on generalizing s with
  | _ n ih =>
    cases hs : p s with
    | ok o =>
      rw [drain_ok hc hs] at h
      exact (ih _ (hn ▸ hc s o.1 o.2 hs) o.2 h rfl).trans (hp.rest s o.1 o.2 hs)
    | error e =>
      by_cases he : e = eof
      · rw [he] at hs
        rw [drain_eof hc hs] at h
        cases h
        exact List.suffix_rfl
      · rw [drain_error hc hs he] at h
        cases h

theorem drain_append (hp : Streams eof p) (x y : List τ) :
    drain eof p hc (x ++ y) = feed eof p hc (drain eof p hc x) y := by
  induction hn : x.length using Nat.strong_induction_on generalizing x with
  | _ n ih =>
    cases hx : p x with
    | ok o =>
      obtain ⟨a, r⟩ := o
      rw [drain_ok hc hx, drain_ok hc (hp.value x a r y hx),
        ih r.length (hn ▸ hc x a r hx) r rfl]
      unfold feed
      show _ = (match (drain eof p hc r).rest with
        | .ok buffer => (drain eof p hc (buffer ++ y)).prepend ([a] ++ (drain eof p hc r).values)
        | .error _ => (drain eof p hc r).prepend [a])
      cases (drain eof p hc r).rest with
      | ok buffer => exact Drained.prepend_prepend _ _ _
      | error e => rfl
    | error e =>
      by_cases he : e = eof
      · rw [he] at hx
        rw [drain_eof hc hx]
        rfl
      · rw [drain_error hc hx he, drain_error hc (hp.error x e y hx he) he]
        rfl

end
end Reader
