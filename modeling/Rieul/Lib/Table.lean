import Mathlib.Data.List.AList

/-!
# Tables

A finite map with the operations of a map that is kept in step with another one: `retain` drops the
keys that are no longer wanted, `upsert` changes an entry or makes one.
-/

namespace Table

abbrev Of (κ α : Type) := AList fun _ : κ => α

variable {κ α : Type}

def retain (p : κ → Bool) (t : Of κ α) : Of κ α where
  entries := t.entries.filter fun e => p e.1
  nodupKeys := t.nodupKeys.sublist List.filter_sublist

variable [DecidableEq κ]

/-- Change the entry of `k`, a missing one counts as `d`. -/
def upsert (k : κ) (d : α) (f : α → α) (t : Of κ α) : Of κ α :=
  t.insert k (f ((t.lookup k).getD d))

theorem dlookup_filter (p : κ → Bool) (l : List (Sigma fun _ : κ => α)) (k : κ) :
    (l.filter fun e => p e.1).dlookup k = if p k then l.dlookup k else none := by
  induction l with
  | nil => simp
  | cons e l ih =>
    obtain ⟨i, a⟩ := e
    by_cases hp : p i
    · rw [List.filter_cons_of_pos (by exact hp)]
      by_cases hk : k = i
      · subst hk
        simp [hp]
      · rw [List.dlookup_cons_ne l ⟨i, a⟩ hk, ← ih]
        exact List.dlookup_cons_ne (l.filter fun e => p e.1) ⟨i, a⟩ hk
    · rw [List.filter_cons_of_neg (by exact hp), ih]
      by_cases hk : k = i
      · subst hk
        simp [hp]
      · rw [List.dlookup_cons_ne l ⟨i, a⟩ hk]

@[simp] theorem lookup_retain (p : κ → Bool) (t : Of κ α) (k : κ) :
    (retain p t).lookup k = if p k then t.lookup k else none :=
  dlookup_filter p t.entries k

theorem lookup_retain_some {p : κ → Bool} {t : Of κ α} {k : κ} {a : α} :
    (retain p t).lookup k = some a ↔ p k = true ∧ t.lookup k = some a := by
  rw [lookup_retain]
  by_cases hp : p k <;> simp [hp]

theorem mem_retain {p : κ → Bool} {t : Of κ α} {k : κ} : k ∈ retain p t ↔ p k = true ∧ k ∈ t := by
  rw [← AList.lookup_isSome, ← AList.lookup_isSome, lookup_retain]
  by_cases hp : p k <;> simp [hp]

theorem lookup_insert_eq (t : Of κ α) (k i : κ) (a : α) :
    (t.insert k a).lookup i = if i = k then some a else t.lookup i := by
  by_cases hi : i = k
  · subst hi
    simp
  · simp [AList.lookup_insert_ne hi, hi]

theorem lookup_upsert (t : Of κ α) (k i : κ) (d : α) (f : α → α) :
    (upsert k d f t).lookup i = if i = k then some (f ((t.lookup k).getD d)) else t.lookup i :=
  lookup_insert_eq t k i _

theorem mem_upsert {t : Of κ α} {k i : κ} {d : α} {f : α → α} :
    i ∈ upsert k d f t ↔ i = k ∨ i ∈ t :=
  AList.mem_insert t

theorem mem_of_lookup {t : Of κ α} {k : κ} {a : α} (h : t.lookup k = some a) : k ∈ t :=
  AList.lookup_isSome.1 (by rw [h]; rfl)

end Table
