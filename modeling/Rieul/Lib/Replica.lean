import Mathlib.Logic.Function.Basic

/-!
# A table that follows changes

A change gives one key a value or takes it away.
-/

namespace Replica
variable {ι ν : Type} [DecidableEq ι]

structure Change (ι ν : Type) where
  key : ι
  value : Option ν
  deriving DecidableEq

def Change.apply (table : ι → Option ν) (change : Change ι ν) : ι → Option ν :=
  Function.update table change.key change.value

def settle (changes : List (Change ι ν)) (table : ι → Option ν) : ι → Option ν :=
  changes.foldl Change.apply table

variable (changes rest : List (Change ι ν)) (table other : ι → Option ν) (i : ι)

theorem settle_append : settle (changes ++ rest) table = settle rest (settle changes table) :=
  List.foldl_append

section
variable (change : Change ι ν)
include change

theorem settle_cons :
    settle (change :: changes) table = settle changes (change.apply table) := rfl

theorem Change.apply_key : change.apply table change.key = change.value :=
  Function.update_self _ _ _

theorem Change.apply_of_ne (h : i ≠ change.key) :
    change.apply table i = table i :=
  Function.update_of_ne h _ _

theorem settle_snoc_key :
    settle (changes ++ [change]) table change.key = change.value := by
  rw [settle_append]
  exact change.apply_key _

theorem settle_snoc_of_ne (h : i ≠ change.key) :
    settle (changes ++ [change]) table i = settle changes table i := by
  rw [settle_append]
  exact change.apply_of_ne _ i h

end

theorem settle_congr (h : table i = other i) : settle changes table i = settle changes other i := by
  induction changes generalizing table other with
  | nil => exact h
  | cons change changes ih =>
    apply ih
    by_cases hkey : i = change.key
    · rw [hkey, change.apply_key, change.apply_key]
    · rw [change.apply_of_ne _ i hkey, change.apply_of_ne _ i hkey, h]

theorem settle_untouched (h : ∀ change ∈ changes, i ≠ change.key) :
    settle changes table i = table i := by
  induction changes generalizing table with
  | nil => rfl
  | cons change changes ih =>
    rw [List.forall_mem_cons] at h
    rw [settle_cons, ih _ h.2, change.apply_of_ne _ i h.1]

theorem settle_touched (h : ∃ change ∈ changes, i = change.key) :
    settle changes table i = settle changes other i := by
  induction changes generalizing table other with
  | nil =>
    obtain ⟨_, hmem, _⟩ := h
    exact absurd hmem List.not_mem_nil
  | cons change changes ih =>
    rw [settle_cons, settle_cons]
    by_cases hkey : i = change.key
    · apply settle_congr
      rw [hkey, change.apply_key, change.apply_key]
    · apply ih
      obtain ⟨later, hmem, hlater⟩ := h
      rcases List.mem_cons.mp hmem with rfl | hmem
      · exact absurd hlater hkey
      · exact ⟨later, hmem, hlater⟩

theorem settle_touched_or : (∀ table other : ι → Option ν,
      settle changes table i = settle changes other i) ∨
    ∀ table : ι → Option ν, settle changes table i = table i := by
  by_cases h : ∃ change ∈ changes, i = change.key
  · exact .inl fun table other => settle_touched changes table other i h
  · apply Or.inr
    intro table
    apply settle_untouched
    exact fun change hmem hkey => h ⟨change, hmem, hkey⟩

theorem settle_move (change : Change ι ν) (h : ∀ before ∈ changes, before.key ≠ change.key) :
    settle (change :: (changes ++ rest)) table i = settle (changes ++ change :: rest) table i := by
  rw [settle_cons, settle_append, settle_append, settle_cons]
  apply settle_congr
  by_cases hkey : i = change.key
  · rw [hkey, change.apply_key, settle_untouched changes _ _ fun before hmem => (h before hmem).symm,
      change.apply_key]
  · rw [change.apply_of_ne _ i hkey]
    apply settle_congr
    exact change.apply_of_ne _ i hkey

end Replica
