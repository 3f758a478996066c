import Mathlib.Data.Option.Basic
import Rieul.Lib.Fallible
import Mathlib.Data.List.Nodup

/-!
# Records

A record is a function of names.
-/

namespace Record
open Fallible

/-- One succeeds exactly if the other does, and then `R` relates the results. -/
structure Both {ε ε' α β : Type} (R : α → β → Prop) (x : Except ε α) (y : Except ε' β) : Prop where
  left : ∀ a, x = .ok a → ∃ b, y = .ok b ∧ R a b
  right : ∀ b, y = .ok b → ∃ a, x = .ok a ∧ R a b

section
variable {ε ε' ε'' α β γ δ : Type} {R : α → β → Prop} {Q : γ → δ → Prop}

theorem both_ok (a : α) (b : β) (h : R a b) :
    Both R (.ok a : Except ε α) (.ok b : Except ε' β) := by
  constructor
  · intro a' ha
    cases ha
    exact ⟨b, rfl, h⟩
  · intro b' hb
    cases hb
    exact ⟨a, rfl, h⟩

theorem both_error (e : ε) (e' : ε') :
    Both R (.error e : Except ε α) (.error e' : Except ε' β) := by
  constructor
  · intro a ha
    cases ha
  · intro b hb
    cases hb

theorem both_ok_iff (a : α) (b : β) :
    Both R (.ok a : Except ε α) (.ok b : Except ε' β) ↔ R a b := by
  constructor
  · intro h
    obtain ⟨b', hb, hab⟩ := h.left a rfl
    cases hb
    exact hab
  · exact both_ok a b

theorem Both.refl (x : Except ε α) : Both (· = ·) x x := by
  constructor
  · exact fun a ha => ⟨a, ha, rfl⟩
  · exact fun a ha => ⟨a, ha, rfl⟩

theorem both_require (e : ε) (e' : ε') (o : Option α) :
    Both (· = ·) (require e o) (require e' o) := by
  cases o with
  | none => exact both_error _ _
  | some a => exact both_ok _ _ rfl

theorem both_ensure (p : Prop) [Decidable p] (e : ε) (e' : ε') :
    Both (· = ·) (ensure p e) (ensure p e') := by
  unfold ensure
  split
  · exact both_ok _ _ rfl
  · exact both_error _ _

theorem Both.imp {R' : α → β → Prop} {x : Except ε α} {y : Except ε' β} (h : Both R x y)
    (himp : ∀ a b, R a b → R' a b) : Both R' x y := by
  constructor
  · intro a ha
    obtain ⟨b, hb, hab⟩ := h.left a ha
    exact ⟨b, hb, himp a b hab⟩
  · intro b hb
    obtain ⟨a, ha, hab⟩ := h.right b hb
    exact ⟨a, ha, himp a b hab⟩

section
variable {x : Except ε α} {y : Except ε' β}
include x y

theorem Both.bind {f : α → Except ε γ} {g : β → Except ε' δ}
    (h : Both R x y) (hf : ∀ a b, x = .ok a → y = .ok b → R a b → Both Q (f a) (g b)) :
    Both Q (x >>= f) (y >>= g) := by
  constructor
  · intro c hc
    obtain ⟨a, ha, hfa⟩ := (bind_eq_ok x f c).mp hc
    obtain ⟨b, hb, hab⟩ := h.left a ha
    obtain ⟨d, hd, hq⟩ := (hf a b ha hb hab).left c hfa
    exact ⟨d, (bind_eq_ok y g d).mpr ⟨b, hb, hd⟩, hq⟩
  · intro d hd
    obtain ⟨b, hb, hgb⟩ := (bind_eq_ok y g d).mp hd
    obtain ⟨a, ha, hab⟩ := h.right b hb
    obtain ⟨c, hc, hq⟩ := (hf a b ha hb hab).right d hgb
    exact ⟨c, (bind_eq_ok x f c).mpr ⟨a, ha, hc⟩, hq⟩

theorem Both.map {f : α → γ} {g : β → δ} (h : Both R x y)
    (hf : ∀ a b, R a b → Q (f a) (g b)) : Both Q (f <$> x) (g <$> y) := by
  constructor
  · intro c hc
    obtain ⟨a, ha, hc⟩ := (map_eq_ok f x c).mp hc
    obtain ⟨b, hb, hab⟩ := h.left a ha
    exact ⟨g b, (map_eq_ok g y _).mpr ⟨b, hb, rfl⟩, hc ▸ hf a b hab⟩
  · intro d hd
    obtain ⟨b, hb, hd⟩ := (map_eq_ok g y d).mp hd
    obtain ⟨a, ha, hab⟩ := h.right b hb
    exact ⟨f a, (map_eq_ok f x _).mpr ⟨a, ha, rfl⟩, hd ▸ hf a b hab⟩

theorem Both.of_bind {f : α → γ} {g : β → δ}
    (h : Both Q (x >>= fun a => .ok (f a)) (y >>= fun b => .ok (g b))) :
    Both (fun a b => Q (f a) (g b)) x y := by
  constructor
  · intro a ha
    obtain ⟨d, hd, hq⟩ := h.left (f a) ((bind_eq_ok _ _ _).mpr ⟨a, ha, rfl⟩)
    obtain ⟨b, hb, hd⟩ := (bind_eq_ok _ _ _).mp hd
    cases hd
    exact ⟨b, hb, hq⟩
  · intro b hb
    obtain ⟨c, hc, hq⟩ := h.right (g b) ((bind_eq_ok _ _ _).mpr ⟨b, hb, rfl⟩)
    obtain ⟨a, ha, hc⟩ := (bind_eq_ok _ _ _).mp hc
    cases hc
    exact ⟨a, ha, hq⟩

theorem Both.isOk (h : Both R x y) :
    (∃ a, x = .ok a) ↔ ∃ b, y = .ok b := by
  constructor
  · rintro ⟨a, ha⟩
    obtain ⟨b, hb, _⟩ := h.left a ha
    exact ⟨b, hb⟩
  · rintro ⟨b, hb⟩
    obtain ⟨a, ha, _⟩ := h.right b hb
    exact ⟨a, ha⟩

theorem Both.of_ok (h : Both R x y) (a : α) (b : β)
    (ha : x = .ok a) (hb : y = .ok b) : R a b := by
  rw [ha, hb] at h
  exact (both_ok_iff a b).mp h

end

end

section
variable {ε κ μ φ : Type} [DecidableEq κ]

/-- The record with the value computed for `f` at the name `key f`, and `absent` elsewhere. -/
def fill (key : φ → κ) (absent : μ) (value : φ → Except ε μ) : List φ → Except ε (κ → μ)
  | [] => .ok fun _ => absent
  | f :: fs => do
    let v ← value f
    let rest ← fill key absent value fs
    .ok fun k => if k = key f then v else rest k

variable (key : φ → κ) (absent : μ) (value : φ → Except ε μ)

theorem fill_eq_ok (fs : List φ) (r : κ → μ) (hkeys : (fs.map key).Nodup) :
    fill key absent value fs = .ok r ↔
      (∀ f ∈ fs, value f = .ok (r (key f))) ∧ ∀ k, k ∉ fs.map key → r k = absent := by
  induction fs generalizing r with
  | nil =>
    constructor
    · intro h
      cases h
      exact ⟨fun f hf => absurd hf List.not_mem_nil, fun _ _ => rfl⟩
    · intro h
      exact congrArg Except.ok (funext fun k => (h.2 k List.not_mem_nil).symm)
  | cons f fs ih =>
    rw [List.map_cons, List.nodup_cons] at hkeys
    have hother : ∀ g ∈ fs, key g ≠ key f :=
      fun g hg heq => hkeys.1 (heq ▸ List.mem_map_of_mem hg)
    constructor
    · intro h
      obtain ⟨v, hv, h⟩ := (bind_eq_ok _ _ _).mp h
      obtain ⟨rest, hrest, h⟩ := (bind_eq_ok _ _ _).mp h
      cases h
      obtain ⟨hvalues, habsent⟩ := (ih rest hkeys.2).mp hrest
      constructor
      · intro g hg
        show value g = .ok (if key g = key f then v else rest (key g))
        rcases List.mem_cons.mp hg with rfl | hg
        · rw [if_pos rfl, hv]
        · rw [if_neg (hother g hg)]
          exact hvalues g hg
      · intro k hk
        rw [List.map_cons, List.mem_cons, not_or] at hk
        show (if k = key f then v else rest k) = absent
        rw [if_neg hk.1]
        exact habsent k hk.2
    · rintro ⟨hvalues, habsent⟩
      rw [List.forall_mem_cons] at hvalues
      have hrest : fill key absent value fs =
          .ok fun k => if k ∈ fs.map key then r k else absent := by
        apply (ih _ hkeys.2).mpr
        constructor
        · intro g hg
          rw [if_pos (List.mem_map_of_mem hg)]
          exact hvalues.2 g hg
        · exact fun k hk => if_neg hk
      rw [fill, hvalues.1, ok_bind, hrest, ok_bind]
      apply congrArg Except.ok
      funext k
      by_cases hk : k = key f
      · rw [if_pos hk, hk]
      · rw [if_neg hk]
        by_cases hmem : k ∈ fs.map key
        · exact if_pos hmem
        · apply (if_neg hmem).trans (habsent k _).symm
          rw [List.map_cons, List.mem_cons, not_or]
          exact ⟨hk, hmem⟩

theorem fill_isOk (fs : List φ) :
    (∃ r, fill key absent value fs = .ok r) ↔ ∀ f ∈ fs, ∃ v, value f = .ok v := by
  induction fs with
  | nil => exact ⟨fun _ f hf => absurd hf List.not_mem_nil, fun _ => ⟨_, rfl⟩⟩
  | cons f fs ih =>
    rw [List.forall_mem_cons, ← ih]
    constructor
    · rintro ⟨r, h⟩
      obtain ⟨v, hv, h⟩ := (bind_eq_ok _ _ _).mp h
      obtain ⟨rest, hrest, _⟩ := (bind_eq_ok _ _ _).mp h
      exact ⟨⟨v, hv⟩, rest, hrest⟩
    · rintro ⟨⟨v, hv⟩, rest, hrest⟩
      rw [fill, hv, ok_bind, hrest, ok_bind]
      exact ⟨_, rfl⟩

end

section
variable {ε ε' κ κ' μ μ' φ : Type} [DecidableEq κ] [DecidableEq κ']
  {key : φ → κ} {key' : φ → κ'} {value : φ → Except ε μ} {value' : φ → Except ε' μ'}
  {R : φ → μ → μ' → Prop}

/-- What `fill` leaves at the names that no field has. -/
def Elsewhere (key : φ → κ) (fs : List φ) (absent : μ) (r : κ → μ) : Prop :=
  ∀ k, k ∉ fs.map key → r k = absent

theorem both_fill (fs : List φ) (absent : μ) (absent' : μ') (hkeys : (fs.map key).Nodup)
    (hkeys' : (fs.map key').Nodup) (h : ∀ f ∈ fs, Both (R f) (value f) (value' f)) :
    Both (fun r r' => (∀ f ∈ fs, R f (r (key f)) (r' (key' f))) ∧
      Elsewhere key fs absent r ∧ Elsewhere key' fs absent' r')
      (fill key absent value fs) (fill key' absent' value' fs) := by
  have hrelated : ∀ r r', fill key absent value fs = .ok r → fill key' absent' value' fs = .ok r' →
      (∀ f ∈ fs, R f (r (key f)) (r' (key' f))) ∧
        Elsewhere key fs absent r ∧ Elsewhere key' fs absent' r' := by
    intro r r' hr hr'
    obtain ⟨hv, helse⟩ := (fill_eq_ok key absent value fs r hkeys).mp hr
    obtain ⟨hv', helse'⟩ := (fill_eq_ok key' absent' value' fs r' hkeys').mp hr'
    exact ⟨fun f hf => (h f hf).of_ok _ _ (hv f hf) (hv' f hf), helse, helse'⟩
  constructor
  · intro r hr
    have hok := (fill_isOk key absent value fs).mp ⟨r, hr⟩
    obtain ⟨r', hr'⟩ := (fill_isOk key' absent' value' fs).mpr fun f hf =>
      (h f hf).isOk.mp (hok f hf)
    exact ⟨r', hr', hrelated r r' hr hr'⟩
  · intro r' hr'
    have hok := (fill_isOk key' absent' value' fs).mp ⟨r', hr'⟩
    obtain ⟨r, hr⟩ := (fill_isOk key absent value fs).mpr fun f hf =>
      (h f hf).isOk.mpr (hok f hf)
    exact ⟨r, hr, hrelated r r' hr hr'⟩

omit [DecidableEq κ'] in
theorem fill_congr {value' : φ → Except ε μ} (fs : List φ) (absent : μ)
    (h : ∀ f ∈ fs, value f = value' f) : fill key absent value fs = fill key absent value' fs := by
  induction fs with
  | nil => rfl
  | cons f fs ih =>
    rw [List.forall_mem_cons] at h
    rw [fill, fill, h.1, ih h.2]

theorem both_fill_eq {value' : φ → Except ε' μ} (fs : List φ) (absent : μ)
    (h : ∀ f ∈ fs, Both (· = ·) (value f) (value' f)) :
    Both (· = ·) (fill key absent value fs) (fill key absent value' fs) := by
  induction fs with
  | nil => exact both_ok _ _ rfl
  | cons f fs ih =>
    rw [List.forall_mem_cons] at h
    apply h.1.bind
    rintro v _ _ _ rfl
    apply (ih h.2).bind
    rintro r _ _ _ rfl
    exact both_ok _ _ rfl

end

section
variable {ε κ ν φ : Type}

/-- The entries that `place` makes of the fields that have a value. -/
def collect (key : φ → κ) (place : κ → ν → List (κ × ν) → List (κ × ν))
    (value : φ → Except ε (Option ν)) : List φ → List (κ × ν) → Except ε (List (κ × ν))
  | [], es => .ok es
  | f :: fs, es => do
    match ← value f with
    | some v => collect key place value fs (place (key f) v es)
    | none => collect key place value fs es

/-- `place` maps one key that is not there. -/
def Places [DecidableEq κ] (place : κ → ν → List (κ × ν) → List (κ × ν)) : Prop :=
  ∀ k v es k', es.lookup k = none →
    (place k v es).lookup k' = if k' = k then some v else es.lookup k'

variable {key : φ → κ} {place : κ → ν → List (κ × ν) → List (κ × ν)}
  {value : φ → Except ε (Option ν)}

theorem collect_lookup [DecidableEq κ] (hplace : Places place) (fs : List φ) (es es' : List (κ × ν))
    (hkeys : (fs.map key).Nodup) (hfresh : ∀ f ∈ fs, es.lookup (key f) = none)
    (h : collect key place value fs es = .ok es') :
    (∀ f ∈ fs, value f = .ok (es'.lookup (key f))) ∧
      ∀ k, k ∉ fs.map key → es'.lookup k = es.lookup k := by
  induction fs generalizing es with
  | nil =>
    cases h
    exact ⟨fun f hf => absurd hf List.not_mem_nil, fun _ _ => rfl⟩
  | cons f fs ih =>
    rw [List.map_cons, List.nodup_cons] at hkeys
    rw [List.forall_mem_cons] at hfresh
    have hother : ∀ g ∈ fs, key g ≠ key f :=
      fun g hg heq => hkeys.1 (heq ▸ List.mem_map_of_mem hg)
    obtain ⟨o, ho, h⟩ := (bind_eq_ok _ _ _).mp h
    cases o with
    | none =>
      obtain ⟨hvalues, hrest⟩ := ih es hkeys.2 hfresh.2 h
      constructor
      · rw [List.forall_mem_cons]
        refine ⟨?_, hvalues⟩
        rw [hrest _ hkeys.1, hfresh.1]
        exact ho
      · intro k hk
        rw [List.map_cons, List.mem_cons, not_or] at hk
        exact hrest k hk.2
    | some v =>
      have hnext : ∀ g ∈ fs, (place (key f) v es).lookup (key g) = none := by
        intro g hg
        rw [hplace _ _ _ _ hfresh.1, if_neg (hother g hg)]
        exact hfresh.2 g hg
      obtain ⟨hvalues, hrest⟩ := ih _ hkeys.2 hnext h
      constructor
      · rw [List.forall_mem_cons]
        refine ⟨?_, hvalues⟩
        rw [hrest _ hkeys.1, hplace _ _ _ _ hfresh.1, if_pos rfl]
        exact ho
      · intro k hk
        rw [List.map_cons, List.mem_cons, not_or] at hk
        rw [hrest k hk.2, hplace _ _ _ _ hfresh.1, if_neg hk.1]

theorem collect_isOk (fs : List φ) (es : List (κ × ν)) :
    (∃ es', collect key place value fs es = .ok es') ↔ ∀ f ∈ fs, ∃ o, value f = .ok o := by
  induction fs generalizing es with
  | nil => exact ⟨fun _ f hf => absurd hf List.not_mem_nil, fun _ => ⟨es, rfl⟩⟩
  | cons f fs ih =>
    rw [List.forall_mem_cons]
    constructor
    · rintro ⟨es', h⟩
      obtain ⟨o, ho, h⟩ := (bind_eq_ok _ _ _).mp h
      cases o with
      | none => exact ⟨⟨none, ho⟩, (ih es).mp ⟨es', h⟩⟩
      | some v => exact ⟨⟨some v, ho⟩, (ih _).mp ⟨es', h⟩⟩
    · rintro ⟨⟨o, ho⟩, hrest⟩
      rw [collect, ho, ok_bind]
      cases o with
      | none => exact (ih es).mpr hrest
      | some v => exact (ih _).mpr hrest

theorem collect_keeps [DecidableEq κ] (hplace : Places place) (P : List (κ × ν) → Prop)
    (hkeep : ∀ f v es, es.lookup (key f) = none → P es → P (place (key f) v es))
    (fs : List φ) (es es' : List (κ × ν)) (hkeys : (fs.map key).Nodup)
    (hfresh : ∀ f ∈ fs, es.lookup (key f) = none) (hes : P es)
    (h : collect key place value fs es = .ok es') : P es' := by
  induction fs generalizing es with
  | nil =>
    cases h
    exact hes
  | cons f fs ih =>
    rw [List.map_cons, List.nodup_cons] at hkeys
    rw [List.forall_mem_cons] at hfresh
    obtain ⟨o, _, h⟩ := (bind_eq_ok _ _ _).mp h
    cases o with
    | none => exact ih es hkeys.2 hfresh.2 hes h
    | some v =>
      apply ih _ hkeys.2 _ (hkeep f v es hfresh.1 hes) h
      intro g hg
      have hne : key g ≠ key f := fun heq => hkeys.1 (heq ▸ List.mem_map_of_mem hg)
      rw [hplace _ _ _ _ hfresh.1, if_neg hne]
      exact hfresh.2 g hg

theorem collect_congr {value' : φ → Except ε (Option ν)} (fs : List φ) (es : List (κ × ν))
    (h : ∀ f ∈ fs, value f = value' f) :
    collect key place value fs es = collect key place value' fs es := by
  induction fs generalizing es with
  | nil => rfl
  | cons f fs ih =>
    rw [List.forall_mem_cons] at h
    rw [collect, collect, h.1]
    apply congrArg
    funext o
    cases o with
    | none => exact ih es h.2
    | some v => exact ih _ h.2

end

section
variable {κ ν : Type} [DecidableEq κ]

theorem lookup_cons (k k' : κ) (v : ν) (es : List (κ × ν)) :
    ((k, v) :: es).lookup k' = if k' = k then some v else es.lookup k' := by
  rw [List.lookup_cons]
  by_cases h : k' = k
  · rw [if_pos h, beq_iff_eq.mpr h]
  · rw [if_neg h, beq_false_of_ne h]

theorem lookup_eq_some_iff (es : List (κ × ν)) (hkeys : (es.map Prod.fst).Nodup) (k : κ) (v : ν) :
    es.lookup k = some v ↔ (k, v) ∈ es := by
  induction es with
  | nil => exact ⟨fun h => (nomatch h), fun h => absurd h List.not_mem_nil⟩
  | cons e es ih =>
    obtain ⟨k', v'⟩ := e
    rw [List.map_cons, List.nodup_cons] at hkeys
    rw [lookup_cons, List.mem_cons]
    split
    · rename_i hk
      subst hk
      constructor
      · intro h
        exact Or.inl (congrArg (Prod.mk k) (Option.some.inj h).symm)
      · rintro (h | h)
        · cases h
          rfl
        · exact absurd (List.mem_map_of_mem h) hkeys.1
    · rename_i hk
      constructor
      · exact fun h => Or.inr ((ih hkeys.2).mp h)
      · rintro (h | h)
        · cases h
          exact absurd rfl hk
        · exact (ih hkeys.2).mpr h

theorem lookup_eq_none_iff (es : List (κ × ν)) (k : κ) :
    es.lookup k = none ↔ k ∉ es.map Prod.fst := by
  induction es with
  | nil => exact ⟨fun _ => List.not_mem_nil, fun _ => rfl⟩
  | cons e es ih =>
    obtain ⟨k', v'⟩ := e
    rw [lookup_cons, List.map_cons, List.mem_cons, not_or]
    split
    · rename_i hk
      exact ⟨fun h => (nomatch h), fun h => absurd hk h.1⟩
    · rename_i hk
      rw [ih]
      exact ⟨fun h => ⟨hk, h⟩, fun h => h.2⟩

theorem lookup_map {ν' : Type} (f : ν → ν') (es : List (κ × ν)) (k : κ) :
    (es.map fun e => (e.1, f e.2)).lookup k = (es.lookup k).map f := by
  induction es with
  | nil => rfl
  | cons e es ih =>
    obtain ⟨k', v'⟩ := e
    rw [List.map_cons, lookup_cons, lookup_cons, ih]
    split
    · rfl
    · rfl

theorem lookup_perm (es es' : List (κ × ν)) (hkeys : (es.map Prod.fst).Nodup)
    (hperm : es.Perm es') (k : κ) : es.lookup k = es'.lookup k := by
  have hkeys' : (es'.map Prod.fst).Nodup := (hperm.map Prod.fst).nodup_iff.mp hkeys
  apply Option.ext
  intro v
  rw [lookup_eq_some_iff es hkeys, lookup_eq_some_iff es' hkeys', hperm.mem_iff]

end

end Record
