import Rieul.Lib.Pages

/-!
# Queries over tables

A left join, rows in the descending order of a key, and the reading of a query page
after page: the last row of a full page is the cursor of the next one, and a short
page is the last.
-/

namespace Query
open Pages
variable {α β γ κ : Type}

def leftJoin (on : α → β → Bool) (left : List α) (right : List β) : List (α × Option β) :=
  left.flatMap fun a => match right.filter (on a) with
    | [] => [(a, none)]
    | found => found.map fun b => (a, some b)

theorem leftJoin_eq_map (on : α → β → Bool) (left : List α) (right : List β)
    (h : ∀ a ∈ left, (right.filter (on a)).length ≤ 1) :
    leftJoin on left right = left.map fun a => (a, right.find? (on a)) := by
  unfold leftJoin
  rw [List.map_eq_flatMap]
  apply List.flatMap_congr
  intro a ha
  have hlength := h a ha
  rw [← List.head?_filter]
  cases hfound : right.filter (on a) with
  | nil => rfl
  | cons b found =>
    rw [hfound, List.length_cons] at hlength
    cases List.eq_nil_of_length_eq_zero (by omega : found.length = 0)
    rfl

theorem filter_length_le_one (p : β → Bool) (f : β → γ) (rows : List β) (image : γ)
    (hdistinct : rows.Pairwise fun b c => ¬ (p b = true ∧ p c = true ∧ f b = f c)) (on : β → Bool)
    (hon : ∀ b, on b = true → p b = true ∧ f b = image) : (rows.filter on).length ≤ 1 := by
  have hpairs : (rows.filter on).Pairwise fun _ _ => False := by
    refine (hdistinct.filter on).imp_of_mem ?_
    intro b c hb hc hne
    obtain ⟨hpb, hfb⟩ := hon b (List.mem_filter.mp hb).2
    obtain ⟨hpc, hfc⟩ := hon c (List.mem_filter.mp hc).2
    exact hne ⟨hpb, hpc, hfb.trans hfc.symm⟩
  cases hrows : rows.filter on with
  | nil => exact Nat.zero_le 1
  | cons b found =>
    rw [hrows] at hpairs
    cases found with
    | nil => exact le_rfl
    | cons c found => exact ((List.pairwise_cons.mp hpairs).1 c List.mem_cons_self).elim

variable [LinearOrder κ] (key : α → κ)

theorem descending_perm (rows : List α) : (descending key rows).Perm rows :=
  List.perm_insertionSort _ rows

theorem descending_sorted (rows : List α) (h : (rows.map key).Nodup) :
    (descending key rows).Pairwise fun a b => key b < key a := by
  have htotal : Std.Total fun a b : α => key b ≤ key a := ⟨fun a b => le_total _ _⟩
  have htrans : IsTrans α fun a b : α => key b ≤ key a := ⟨fun a b c hab hbc => le_trans hbc hab⟩
  have hsorted := List.pairwise_insertionSort (fun a b => key b ≤ key a) rows
  have hdistinct : ((descending key rows).map key).Nodup :=
    ((descending_perm key rows).map key).nodup_iff.mpr h
  exact (hsorted.and (List.pairwise_map.mp hdistinct)).imp fun ⟨hle, hne⟩ =>
    lt_of_le_of_ne hle fun heq => hne heq.symm

theorem descending_filter (rows : List α) (h : (rows.map key).Nodup) (p : α → Bool) :
    descending key (rows.filter p) = (descending key rows).filter p := by
  have hperm : (descending key (rows.filter p)).Perm ((descending key rows).filter p) :=
    (descending_perm key _).trans ((descending_perm key rows).symm.filter p)
  have hfilter : ((rows.filter p).map key).Nodup := h.sublist (List.filter_sublist.map key)
  have hantisymm : ∀ a b, a ∈ descending key (rows.filter p) → b ∈ (descending key rows).filter p →
      key b < key a → key a < key b → a = b :=
    fun a b _ _ hab hba => absurd (hab.trans hba) (lt_irrefl _)
  exact List.Perm.eq_of_pairwise hantisymm (descending_sorted key _ hfilter)
    ((descending_sorted key rows h).filter p) hperm

def behind (last : Option α) (rows : List α) : List α :=
  rows.filter fun row => last.all fun other => key row < key other

/-- The query `page` is followed from `cursor` with pages of `limit` rows. -/
def follow (cursorOf : α → γ) (page : Option γ → List α) (limit : ℕ) :
    ℕ → Option γ → Option (List α)
  | 0, _ => none
  | fuel + 1, cursor =>
    if (page cursor).length < limit then some (page cursor)
    else (page cursor).getLast?.bind fun row =>
      (follow cursorOf page limit fuel (some (cursorOf row))).map (page cursor ++ ·)

variable {key} {cursorOf : α → γ} {page : Option γ → List α} {limit : ℕ} {rows : List α}

theorem behind_last (read more : List α) (row : α)
    (h : (read ++ row :: more).Pairwise fun a b => key b < key a) :
    behind key (some row) (read ++ row :: more) = more := by
  obtain ⟨-, hmore, hread⟩ := List.pairwise_append.mp h
  obtain ⟨hrow, -⟩ := List.pairwise_cons.mp hmore
  unfold behind
  have hfront : read.filter (fun a => (some row).all fun other => key a < key other) = [] := by
    rw [List.filter_eq_nil_iff]
    intro a ha
    have hlt := hread a ha row List.mem_cons_self
    simpa using hlt.le
  have hback : more.filter (fun a => (some row).all fun other => key a < key other) = more := by
    rw [List.filter_eq_self]
    intro a ha
    simpa using hrow a ha
  rw [List.filter_append, hfront, List.nil_append, List.filter_cons_of_neg (by simp), hback]

variable (key) in
theorem follow_eq (hsorted : rows.Pairwise fun a b => key b < key a)
    (hpage : ∀ last, page (last.map cursorOf) <+: behind key last rows ∧
      ((page (last.map cursorOf)).length < limit → page (last.map cursorOf) = behind key last rows))
    (hlimit : 0 < limit) (fuel : ℕ) (hfuel : rows.length < fuel) :
    follow cursorOf page limit fuel none = some rows := by
  have hall : ∀ (fuel : ℕ) (last : Option α) (read rest : List α), rows = read ++ rest →
      behind key last rows = rest → rest.length < fuel →
        follow cursorOf page limit fuel (last.map cursorOf) = some rest := by
    intro fuel
    induction fuel with
    | zero => exact fun _ _ _ _ _ hlt => absurd hlt (Nat.not_lt_zero _)
    | succ fuel ih =>
      intro last read rest hrows hrest hlt
      obtain ⟨hstart, hshort⟩ := hpage last
      rw [hrest] at hstart hshort
      unfold follow
      split
      · rename_i hlength
        rw [hshort hlength]
      · rename_i hlength
        obtain ⟨more, hmore⟩ := hstart
        obtain ⟨front, row, hpage⟩ : ∃ front row, page (last.map cursorOf) = front ++ [row] := by
          refine ⟨_, _, (List.dropLast_append_getLast ?_).symm⟩
          intro hnil
          rw [hnil, List.length_nil] at hlength
          exact hlength hlimit
        have hsplit : rows = (read ++ front) ++ row :: more := by
          rw [hrows, ← hmore, hpage]
          simp
        have hnext := ih (some row) (read ++ front ++ [row]) more (by rw [hsplit]; simp)
          (by rw [hsplit] at hsorted ⊢; exact behind_last _ _ row hsorted) (by
            rw [← hmore, hpage] at hlt
            simp only [List.length_append, List.length_singleton] at hlt
            omega)
        rw [hpage, List.getLast?_concat, Option.bind_some]
        rw [Option.map_some] at hnext
        rw [hnext, Option.map_some, ← hmore, hpage]
  refine hall fuel none [] rows rfl ?_ hfuel
  exact List.filter_eq_self.mpr fun _ _ => rfl

variable (key) in
theorem follow_select {ρ : Type} {selected : List ρ} {rowKey : ρ → κ}
    (hdistinct : (selected.map rowKey).Nodup) (p : ρ → Bool) (fromRow : ρ → α)
    (hkey : ∀ row, key (fromRow row) = rowKey row) (cut : List ρ → List ρ)
    (hcut : ∀ rows, cut rows <+: rows ∧ ((cut rows).length < limit → cut rows = rows))
    (condition : Option γ → ρ → Bool)
    (hcondition : ∀ (last : Option α) row, condition (last.map cursorOf) row =
      last.all fun other => rowKey row < key other)
    (hlimit : 0 < limit) (fuel : ℕ) (hfuel : (selected.filter p).length < fuel) :
    follow cursorOf (fun cursor => (cut (descending rowKey
      (selected.filter fun row => p row && condition cursor row))).map fromRow) limit fuel none =
        some ((descending rowKey (selected.filter p)).map fromRow) := by
  have hmatching : ((selected.filter p).map rowKey).Nodup :=
    hdistinct.sublist (List.filter_sublist.map rowKey)
  have hsorted := descending_sorted rowKey _ hmatching
  refine follow_eq key ?_ ?_ hlimit fuel ?_
  · rw [List.pairwise_map]
    exact hsorted.imp fun hlt => by rwa [hkey, hkey]
  · intro last
    have hbehind : behind key last ((descending rowKey (selected.filter p)).map fromRow) =
        (descending rowKey (selected.filter fun row =>
          p row && condition (last.map cursorOf) row)).map fromRow := by
      have hsplit : (selected.filter fun row => p row && condition (last.map cursorOf) row) =
          (selected.filter p).filter fun row => condition (last.map cursorOf) row := by
        rw [List.filter_filter]
        exact List.filter_congr fun row _ => Bool.and_comm _ _
      rw [hsplit, descending_filter rowKey _ hmatching, behind, List.filter_map]
      congr 1
      refine List.filter_congr fun row _ => ?_
      rw [hcondition]
      simp only [Function.comp, hkey]
    rw [hbehind]
    obtain ⟨hstart, hshort⟩ := hcut (descending rowKey (selected.filter fun row =>
      p row && condition (last.map cursorOf) row))
    refine ⟨hstart.map fromRow, fun hlength => ?_⟩
    rw [List.length_map] at hlength
    rw [hshort hlength]
  · rw [List.length_map, (descending_perm rowKey _).length_eq]
    exact hfuel

end Query
