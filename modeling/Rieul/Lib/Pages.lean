import Mathlib.Data.List.Sort
import Mathlib.Data.Prod.Lex

/-!
# Pages of a list

Items in the increasing order of a key are read from the last one back, a page at
a time: a page has the last items before a cursor, which is the key of the first
item of the page before.
-/

namespace Pages
variable {α κ : Type} [LinearOrder κ] (key : α → κ)

def before (cursor : Option κ) (items : List α) : List α :=
  items.filter fun item => cursor.all (key item < ·)

def descending (items : List α) : List α := items.insertionSort fun a b => key b ≤ key a

/-- The key of the last of the first `limit` rows, where there are more. -/
def nextCursor (limit : ℕ) (rows : List α) : Option κ :=
  if limit < rows.length then (rows.take limit).getLast?.map key else none

variable {key} {items : List α}

theorem descending_eq_reverse (h : items.Pairwise fun a b => key a < key b) :
    descending key items = items.reverse := by
  have hperm : (descending key items).Perm items.reverse :=
    (List.perm_insertionSort _ items).trans (List.reverse_perm items).symm
  refine @List.Perm.eq_of_pairwise α (fun a b => key b ≤ key a) _ _ ?_ ?_ ?_ hperm
  · intro a b ha hb hab hba
    have hkey := le_antisymm hba hab
    rw [List.mem_reverse] at hb
    have ha := (List.perm_insertionSort _ items).mem_iff.mp ha
    -- items with one key are one item
    have hdistinct : (items.map key).Nodup := List.pairwise_map.mpr (h.imp fun hlt => ne_of_lt hlt)
    exact List.inj_on_of_nodup_map hdistinct ha hb hkey
  · have htotal : Std.Total fun a b : α => key b ≤ key a := ⟨fun a b => le_total _ _⟩
    have htrans : IsTrans α fun a b : α => key b ≤ key a := ⟨fun a b c hab hbc => le_trans hbc hab⟩
    exact List.pairwise_insertionSort _ items
  · exact List.pairwise_reverse.mpr (h.imp fun hlt => le_of_lt hlt)

theorem before_append_cons (older newer : List α) (item : α)
    (h : (older ++ item :: newer).Pairwise fun a b => key a < key b) :
    before key (some (key item)) (older ++ item :: newer) = older := by
  obtain ⟨-, hnewer, holder⟩ := List.pairwise_append.mp h
  unfold before
  rw [List.filter_append, List.filter_eq_self.mpr, List.filter_eq_nil_iff.mpr, List.append_nil]
  · intro other hmem
    rcases List.mem_cons.mp hmem with heq | hmem
    · simp [heq]
    · have hlt := (List.pairwise_cons.mp hnewer).1 other hmem
      simp [le_of_lt hlt]
  · intro other hmem
    have hlt := holder other hmem item List.mem_cons_self
    simpa using hlt

/-- Where the reading of `items` stands: `next` is the cursor of the next page, if there is one. -/
def Reading (key : α → κ) (items read : List α) (next : Option (Option κ)) : Prop :=
  ∃ rest, items = rest ++ read ∧ match next with
    | none => rest = []
    | some cursor => before key cursor items = rest

theorem reading_first (key : α → κ) (items : List α) : Reading key items [] (some none) := by
  refine ⟨items, (List.append_nil items).symm, ?_⟩
  unfold before
  exact List.filter_eq_self.mpr fun _ _ => rfl

theorem Reading.ended {read : List α} (h : Reading key items read none) : read = items := by
  obtain ⟨rest, hitems, hrest⟩ := h
  rw [hitems, hrest]
  rfl

/-- A page of at most `limit` items, read with one more row. -/
theorem Reading.page {read : List α} {cursor : Option κ} (h : Reading key items read (some cursor))
    (hsorted : items.Pairwise fun a b => key a < key b) (limit : ℕ) (hlimit : 0 < limit) :
    let rows := (descending key (before key cursor items)).take (limit + 1)
    Reading key items ((rows.take limit).reverse ++ read) ((nextCursor key limit rows).map some) ∧
      (nextCursor key limit rows ≠ none → (rows.take limit).length = limit) := by
  obtain ⟨rest, hitems, hrest⟩ := h
  dsimp only at hrest ⊢
  have hpart : rest.Pairwise fun a b => key a < key b := by
    rw [hitems] at hsorted
    exact (List.pairwise_append.mp hsorted).1
  rw [hrest, descending_eq_reverse hpart, List.take_take, Nat.min_eq_left (Nat.le_succ limit)]
  unfold nextCursor
  rw [List.take_take, Nat.min_eq_left (Nat.le_succ limit), List.length_take, List.length_reverse]
  by_cases hmore : limit < rest.length
  · -- the rest is what is left and the page, which is not empty
    have hmin : limit < min (limit + 1) rest.length := by omega
    rw [if_pos hmin, List.take_reverse, List.reverse_reverse, List.getLast?_reverse]
    have hdrop : (rest.drop (rest.length - limit)).length = limit := by
      rw [List.length_drop]
      omega
    cases hpage : rest.drop (rest.length - limit) with
    | nil =>
      rw [hpage] at hdrop
      dsimp only [List.length_nil] at hdrop
      omega
    | cons item page =>
      have hsplit : rest = rest.take (rest.length - limit) ++ item :: page := by
        rw [← hpage, List.take_append_drop]
      have hall : items = rest.take (rest.length - limit) ++ item :: (page ++ read) := by
        rw [hitems]
        conv => lhs; rw [hsplit]
        rw [List.append_assoc, List.cons_append]
      refine ⟨⟨rest.take (rest.length - limit), hall, ?_⟩, fun _ => ?_⟩
      · show before key (some (key item)) items = rest.take (rest.length - limit)
        rw [hall] at hsorted ⊢
        exact before_append_cons _ _ item hsorted
      · rw [List.length_reverse, ← hpage]
        exact hdrop
  · have hmin : ¬ limit < min (limit + 1) rest.length := by omega
    have htake : rest.reverse.take limit = rest.reverse := by
      apply List.take_of_length_le
      rw [List.length_reverse]
      omega
    rw [if_neg hmin, htake, List.reverse_reverse]
    refine ⟨⟨[], hitems, rfl⟩, fun hne => absurd rfl hne⟩

end Pages
