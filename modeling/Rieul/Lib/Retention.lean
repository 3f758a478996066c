import Mathlib.Algebra.GroupWithZero.Nat
import Mathlib.Data.List.Induction
import Mathlib.Data.List.Infix
import Mathlib.Data.List.Nodup
import Mathlib.Data.List.Range

/-!
# Retention by size

A buffer takes records at its end and gives up the oldest while the sizes of the rest are above a
limit.
-/

namespace Retention
variable {α : Type} (size : α → ℕ) (limit : ℕ)

def total (records : List α) : ℕ := (records.map size).sum

def evict : ℕ → List α → ℕ × List α
  | count, [] => (count, [])
  | count, a :: records =>
    if count > limit then evict (count - size a) records else (count, a :: records)

def retained : List α → List α
  | [] => []
  | a :: records => if total size (a :: records) > limit then retained records else a :: records

def evicted (records : List α) : ℕ := records.length - (retained size limit records).length

theorem total_cons (a : α) (records : List α) :
    total size (a :: records) = size a + total size records :=
  List.sum_cons

theorem total_append (records rest : List α) :
    total size (records ++ rest) = total size records + total size rest := by
  simp [total]

section
variable (records : List α)
include records

theorem evict_total :
    evict size limit (total size records) records =
      (total size (retained size limit records), retained size limit records) := by
  induction records with
  | nil => rfl
  | cons a records ih =>
    unfold evict retained
    split
    · rw [total_cons, Nat.add_sub_cancel_left]
      exact ih
    · rfl

theorem retained_suffix : retained size limit records <:+ records := by
  induction records with
  | nil => exact List.suffix_refl _
  | cons a records ih =>
    unfold retained
    split
    · exact ih.trans (List.suffix_cons a records)
    · exact List.suffix_refl _

theorem retained_length :
    (retained size limit records).length ≤ records.length :=
  (retained_suffix size limit records).length_le

theorem retained_eq_drop :
    retained size limit records = records.drop (evicted size limit records) :=
  List.suffix_iff_eq_drop.mp (retained_suffix size limit records)

theorem evicted_le : evicted size limit records ≤ records.length :=
  Nat.sub_le _ _

theorem retained_total_le : total size (retained size limit records) ≤ limit := by
  induction records with
  | nil => exact Nat.zero_le _
  | cons a records ih =>
    unfold retained
    split <;> omega

theorem retained_of_total (h : total size records ≤ limit) :
    retained size limit records = records := by
  cases records with
  | nil => rfl
  | cons a records =>
    unfold retained
    rw [if_neg (Nat.not_lt.mpr h)]

end

theorem retained_retained_append (records rest : List α) :
    retained size limit (retained size limit records ++ rest) =
      retained size limit (records ++ rest) := by
  induction records with
  | nil => rfl
  | cons a records ih =>
    by_cases h : total size (a :: records) > limit
    · have hwhole : total size (a :: (records ++ rest)) > limit := by
        rw [← List.cons_append, total_append]
        omega
      rw [retained, if_pos h, ih, List.cons_append, retained.eq_def size limit (a :: (records ++ rest))]
      simp only [if_pos hwhole]
    · rw [retained, if_neg h]

theorem retained_snoc_eq_nil (records : List α) (a : α) :
    retained size limit (records ++ [a]) = [] ↔ limit < size a := by
  induction records with
  | nil =>
    have htotal : total size [a] = size a := by simp [total]
    rw [List.nil_append, retained, htotal]
    split
    · simpa [retained] using ‹size a > limit›
    · simpa using ‹¬ size a > limit›
  | cons b records ih =>
    rw [List.cons_append, retained]
    split
    · exact ih
    · rename_i h
      rw [← List.cons_append, total_append] at h
      have htotal : total size [a] = size a := by simp [total]
      constructor
      · exact fun hnil => absurd hnil (List.cons_ne_nil _ _)
      · omega

theorem evicted_append_le (records rest : List α) :
    evicted size limit records ≤ evicted size limit (records ++ rest) := by
  have hretained := retained_retained_append size limit records rest
  have hle := retained_length size limit (retained size limit records ++ rest)
  have hlength := retained_length size limit records
  rw [hretained, List.length_append] at hle
  unfold evicted
  rw [List.length_append]
  omega

variable (seq : α → ℕ)

def Numbered (records : List α) : Prop := records.map seq = List.range' 1 records.length

section
variable {records : List α} (h : Numbered seq records)
include records h

theorem Numbered.snoc (a : α)
    (ha : seq a = records.length + 1) : Numbered seq (records ++ [a]) := by
  unfold Numbered at h ⊢
  rw [List.map_append, h, List.length_append, List.length_singleton, List.range'_concat]
  simp [ha, Nat.add_comm]

theorem map_seq_drop (n : ℕ) :
    (records.drop n).map seq = List.range' (1 + n) (records.length - n) := by
  rw [List.map_drop, h, List.drop_range', Nat.mul_one]

theorem filter_drop (n after : ℕ) :
    (records.drop n).filter (fun a => after < seq a) = records.drop (max n after) := by
  obtain ⟨k, hk⟩ : ∃ k, k = records.length - n := ⟨_, rfl⟩
  induction k generalizing n with
  | zero =>
    rw [List.drop_eq_nil_of_le (by omega), List.drop_eq_nil_of_le (by omega)]
    rfl
  | succ k ih =>
    have hn : n < records.length := by omega
    have hseq : seq records[n] = n + 1 := by
      have hmap := map_seq_drop seq h n
      rw [List.drop_eq_getElem_cons hn, List.map_cons,
        show records.length - n = k + 1 by omega, List.range'_succ] at hmap
      have hhead := (List.cons.inj hmap).1
      omega
    rw [List.drop_eq_getElem_cons hn, List.filter_cons, hseq]
    by_cases hafter : after < n + 1
    · rw [if_pos (decide_eq_true hafter), ih (n + 1) (by omega),
        show max (n + 1) after = n + 1 by omega, show max n after = n by omega,
        ← List.drop_eq_getElem_cons hn]
    · rw [if_neg (by simpa using hafter), ih (n + 1) (by omega),
        show max (n + 1) after = max n after by omega]

theorem head_drop (n : ℕ) (a : α)
    (ha : (records.drop n).head? = some a) : seq a = n + 1 := by
  have hmap := congrArg List.head? (map_seq_drop seq h n)
  rw [List.head?_map, ha] at hmap
  cases hlength : records.length - n with
  | zero =>
    rw [hlength] at hmap
    cases hmap
  | succ k =>
    rw [hlength, List.range'_succ] at hmap
    have hseq := Option.some.inj hmap
    omega

theorem mem_drop_iff (n : ℕ) (a : α) :
    a ∈ records.drop n ↔ a ∈ records ∧ n < seq a := by
  have hfilter := filter_drop seq h 0 n
  rw [List.drop_zero, Nat.zero_max] at hfilter
  rw [← hfilter, List.mem_filter, decide_eq_true_iff]

theorem Numbered.bounds (a : α) (ha : a ∈ records) :
    0 < seq a ∧ seq a ≤ records.length := by
  have hseq : seq a ∈ records.map seq := List.mem_map_of_mem ha
  rw [h, List.mem_range'] at hseq
  obtain ⟨i, hi, heq⟩ := hseq
  omega

theorem Numbered.eq_of_seq (a b : α)
    (ha : a ∈ records) (hb : b ∈ records) (heq : seq a = seq b) : a = b := by
  have hnodup : (records.map seq).Nodup := by
    rw [h]
    exact List.nodup_range'
  exact List.inj_on_of_nodup_map hnodup ha hb heq

theorem mem_retained_iff (a : α) :
    a ∈ retained size limit records ↔ a ∈ records ∧ evicted size limit records < seq a := by
  rw [retained_eq_drop, mem_drop_iff seq h]

theorem exists_evicted (after : ℕ) :
    (∃ a ∈ records, after < seq a ∧ a ∉ retained size limit records) ↔
      after < evicted size limit records := by
  obtain ⟨n, hn⟩ : ∃ n, n = evicted size limit records := ⟨_, rfl⟩
  have hle := evicted_le size limit records
  rw [retained_eq_drop, ← hn]
  rw [← hn] at hle
  have habove : ∀ a ∈ records.drop n, n < seq a := by
    intro a ha
    have hfilter := filter_drop seq h n n
    rw [Nat.max_self, List.filter_eq_self] at hfilter
    exact of_decide_eq_true (hfilter a ha)
  constructor
  · rintro ⟨a, ha, hafter, hgone⟩
    rw [← List.take_append_drop n records, List.mem_append] at ha
    have hseq : seq a ∈ (records.take n).map seq :=
      List.mem_map_of_mem (ha.resolve_right hgone)
    rw [List.map_take, h, List.mem_take_iff_getElem] at hseq
    obtain ⟨i, hi, heq⟩ := hseq
    rw [List.getElem_range'] at heq
    omega
  · intro hafter
    have hlast : n - 1 < records.length := by omega
    have hseq : seq records[n - 1] = n := by
      have hhead := head_drop seq h (n - 1) records[n - 1] (by rw [List.drop_eq_getElem_cons hlast]; rfl)
      omega
    refine ⟨records[n - 1], List.getElem_mem hlast, by omega, fun hmem => ?_⟩
    have hlt := habove _ hmem
    omega

end

end Retention
