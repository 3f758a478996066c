import Mathlib.Data.Nat.Notation
import Mathlib.Data.List.Infix

/-!
# Reading records at an offset

A parser that keeps an offset into a buffer reads what begins the rest of the buffer.
-/

namespace Scan
variable {τ σ α : Type}

/-- `data.get(start..stop)`. -/
def range (data : List τ) (start stop : ℕ) : Option (List τ) :=
  if start ≤ stop ∧ stop ≤ data.length then some ((data.drop start).take (stop - start)) else none

/-- `n` passes of a loop body that may stop. -/
def loop (step : σ → Option σ) : ℕ → σ → Option σ
  | 0, s => some s
  | n + 1, s => (step s).bind (loop step n)

theorem append_prefix_iff (a b l : List τ) : a ++ b <+: l ↔ a <+: l ∧ b <+: l.drop a.length := by
  constructor
  · intro h
    obtain ⟨r, rfl⟩ := h
    rw [List.append_assoc, List.drop_left]
    exact ⟨List.prefix_append a (b ++ r), List.prefix_append b r⟩
  · intro h
    obtain ⟨⟨r, rfl⟩, hb⟩ := h
    rw [List.drop_left] at hb
    obtain ⟨t, rfl⟩ := hb
    exact ⟨t, List.append_assoc a b t⟩

theorem get_eq_some (data : List τ) (i : ℕ) (x : τ) : data[i]? = some x ↔ [x] <+: data.drop i := by
  constructor
  · intro h
    obtain ⟨hi, rfl⟩ := List.getElem?_eq_some_iff.mp h
    rw [List.drop_eq_getElem_cons hi]
    exact ⟨data.drop (i + 1), rfl⟩
  · intro h
    obtain ⟨r, hr⟩ := h
    have hget : (data.drop i)[0]? = some x := by
      rw [← hr]
      rfl
    rwa [List.getElem?_drop, Nat.add_zero] at hget

theorem range_eq_some (data : List τ) (start stop : ℕ) (r : List τ) :
    range data start stop = some r ↔
      r <+: data.drop start ∧ start ≤ data.length ∧ stop = start + r.length := by
  unfold range
  split
  · rename_i h
    rw [Option.some.injEq]
    constructor
    · intro hr
      subst hr
      refine ⟨List.take_prefix _ _, by omega, ?_⟩
      rw [List.length_take, List.length_drop]
      omega
    · intro hr
      obtain ⟨hr, _, rfl⟩ := hr
      rw [Nat.add_sub_cancel_left]
      exact (List.prefix_iff_eq_take.mp hr).symm
  · rename_i h
    constructor
    · intro hr
      cases hr
    · intro hr
      obtain ⟨hr, hle, rfl⟩ := hr
      have hlen := hr.length_le
      rw [List.length_drop] at hlen
      omega

def Fits (ok : List α → α → Prop) (before : List α) : List α → Prop
  | [] => True
  | a :: as => ok before a ∧ Fits ok (before ++ [a]) as

theorem Fits.all {ok : List α → α → Prop} {P : α → Prop} (h : ∀ before a, ok before a → P a)
    (before as : List α) (hfits : Fits ok before as) : ∀ a ∈ as, P a := by
  induction as generalizing before with
  | nil =>
    intro a ha
    cases ha
  | cons x as ih =>
    intro a ha
    rcases List.mem_cons.mp ha with rfl | ha
    · exact h before a hfits.1
    · exact ih _ hfits.2 a ha

structure Takes (data : List τ) (item : α → List τ) (ok : List α → α → Prop) (offset : σ → ℕ)
    (items : σ → List α) (push : σ → α → σ) (inv : σ → Prop) (step : σ → Option σ) : Prop where
  step : ∀ s, inv s → ∀ t, step s = some t ↔
    ∃ a, ok (items s) a ∧ item a <+: data.drop (offset s) ∧ t = push s a
  push_items : ∀ s a, items (push s a) = items s ++ [a]
  push_offset : ∀ s a, offset (push s a) = offset s + (item a).length
  push_inv : ∀ s a, inv s → ok (items s) a → inv (push s a)

variable {data : List τ} {item : α → List τ} {ok : List α → α → Prop} {offset : σ → ℕ}
  {items : σ → List α} {push : σ → α → σ} {inv : σ → Prop} {step : σ → Option σ}

section
variable (h : Takes data item ok offset items push inv step)
include h

theorem Takes.loop (n : ℕ) (s : σ) (hs : inv s)
    (t : σ) : Scan.loop step n s = some t ↔ ∃ as, as.length = n ∧ Fits ok (items s) as ∧
      as.flatMap item <+: data.drop (offset s) ∧ t = as.foldl push s := by
  induction n generalizing s with
  | zero =>
    rw [Scan.loop, Option.some.injEq]
    constructor
    · intro hst
      exact ⟨[], rfl, trivial, List.nil_prefix, hst.symm⟩
    · intro hst
      obtain ⟨as, hlen, _, _, rfl⟩ := hst
      obtain rfl := List.length_eq_zero_iff.mp hlen
      rfl
  | succ n ih =>
    rw [Scan.loop, Option.bind_eq_some_iff]
    constructor
    · intro hst
      obtain ⟨u, hu, ht⟩ := hst
      obtain ⟨a, hok, hitem, rfl⟩ := (h.step s hs u).mp hu
      obtain ⟨as, hlen, hfits, hall, rfl⟩ := (ih (push s a) (h.push_inv s a hs hok)).mp ht
      rw [h.push_items] at hfits
      rw [h.push_offset, ← List.drop_drop] at hall
      refine ⟨a :: as, by rw [List.length_cons, hlen], ⟨hok, hfits⟩, ?_, rfl⟩
      rw [List.flatMap_cons]
      exact (append_prefix_iff _ _ _).mpr ⟨hitem, hall⟩
    · intro hst
      obtain ⟨as, hlen, hfits, hall, rfl⟩ := hst
      cases as with
      | nil => cases hlen
      | cons a as =>
        rw [List.flatMap_cons, append_prefix_iff] at hall
        obtain ⟨hok, hfits⟩ := hfits
        refine ⟨push s a, (h.step s hs _).mpr ⟨a, hok, hall.1, rfl⟩, ?_⟩
        refine (ih (push s a) (h.push_inv s a hs hok)).mpr ⟨as, Nat.succ.inj hlen, ?_, ?_, rfl⟩
        · rw [h.push_items]
          exact hfits
        · rw [h.push_offset, ← List.drop_drop]
          exact hall.2

theorem Takes.foldl_items (as : List α) (s : σ) :
    items (as.foldl push s) = items s ++ as := by
  induction as generalizing s with
  | nil => simp
  | cons a as ih => rw [List.foldl_cons, ih, h.push_items, List.append_assoc, List.singleton_append]

theorem Takes.foldl_offset (as : List α)
    (s : σ) : offset (as.foldl push s) = offset s + (as.flatMap item).length := by
  induction as generalizing s with
  | nil => simp
  | cons a as ih =>
    rw [List.foldl_cons, ih, h.push_offset, List.flatMap_cons, List.length_append, Nat.add_assoc]

end

end Scan
