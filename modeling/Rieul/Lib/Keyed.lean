import Mathlib.Data.List.Perm.Lattice
import Mathlib.Data.List.Nodup

/-!
# Listings by key

A listing is a list of rows with distinct keys.
-/

namespace Keyed
variable {κ ρ : Type} (key : ρ → κ)

def UniqueKeys (rows : List ρ) : Prop := (rows.map key).Nodup

structure Diff (previous next : List ρ) (removes : List κ) (upserts : List ρ) : Prop where
  gone : ∀ k, k ∈ removes ↔ k ∈ previous.map key ∧ k ∉ next.map key
  changed : ∀ row, row ∈ upserts ↔ row ∈ next ∧ row ∉ previous
  distinct : UniqueKeys key upserts

section
variable {key} {previous next current : List ρ} {removes : List κ} {upserts : List ρ}

theorem UniqueKeys.eq (h : UniqueKeys key current) {a b : ρ} (ha : a ∈ current) (hb : b ∈ current)
    (hkey : key a = key b) : a = b :=
  List.inj_on_of_nodup_map h ha hb hkey

theorem UniqueKeys.nodup (h : UniqueKeys key current) : current.Nodup :=
  List.Nodup.of_map key h

theorem UniqueKeys.perm (h : UniqueKeys key current) (hperm : previous.Perm current) :
    UniqueKeys key previous :=
  (hperm.map key).nodup_iff.mpr h

variable (h : Diff key previous next removes upserts)
include h

theorem Diff.disjoint (k : κ) (hk : k ∈ removes) : k ∉ upserts.map key := by
  intro hup
  obtain ⟨row, hrow, rfl⟩ := List.mem_map.mp hup
  exact ((h.gone _).mp hk).2 (List.mem_map_of_mem ((h.changed row).mp hrow).1)

theorem Diff.empty_iff (hprevious : UniqueKeys key previous) :
    removes = [] ∧ upserts = [] ↔ ∀ row, row ∈ previous ↔ row ∈ next := by
  simp only [List.eq_nil_iff_forall_not_mem, h.gone, h.changed, List.mem_map]
  constructor
  · intro ⟨hremoves, hupserts⟩ row
    constructor
    · intro hrow
      by_contra hnot
      obtain ⟨other, hother, hkey⟩ : ∃ other ∈ next, key other = key row := by grind
      have hsame := hprevious.eq (by grind) hrow hkey
      exact hnot (hsame ▸ hother)
    · grind
  · grind

theorem Diff.mem_iff (hprevious : UniqueKeys key previous) (hnext : UniqueKeys key next) (row : ρ) :
    row ∈ next ↔ row ∈ previous ∧ key row ∉ removes ∧ key row ∉ upserts.map key ∨
      row ∈ upserts := by
  have hchanged : ∀ other ∈ upserts, key other = key row → row ∈ next → other = row :=
    fun other hother hkey hrow => hnext.eq ((h.changed other).mp hother).1 hrow hkey
  have hold : ∀ other ∈ next, key other = key row → row ∈ previous → other ∈ previous →
      other = row := fun other _ hkey hrow hother => hprevious.eq hother hrow hkey
  simp only [h.gone, List.mem_map]
  have hupserts := h.changed
  constructor
  · intro hrow
    by_cases hbefore : row ∈ previous <;> grind
  · grind

end

variable [DecidableEq κ]

def replaced (current : List ρ) (removes : List κ) (upserts : List ρ) : List ρ :=
  current.filter (fun row => key row ∉ removes ∧ key row ∉ upserts.map key) ++ upserts

def put : List ρ → ρ → List ρ
  | [], row => [row]
  | other :: rows, row => if key other = key row then row :: rows else other :: put rows row

section
variable {key}

theorem put_keys (rows : List ρ) (row : ρ) :
    (put key rows row).map key =
      if key row ∈ rows.map key then rows.map key else rows.map key ++ [key row] := by
  induction rows with
  | nil => simp [put]
  | cons other rows ih => grind [put]

theorem mem_put {rows : List ρ} (h : UniqueKeys key rows) (row r : ρ) :
    r ∈ put key rows row ↔ r = row ∨ r ∈ rows ∧ key r ≠ key row := by
  induction rows with
  | nil => simp [put]
  | cons other rows ih =>
    obtain ⟨hother, hrest⟩ := List.nodup_cons.mp h
    have hmem := ih hrest
    have hne : ∀ r ∈ rows, key r ≠ key other :=
      fun r hr hkey => hother (hkey ▸ List.mem_map_of_mem hr)
    grind [put]

theorem unique_put {rows : List ρ} (h : UniqueKeys key rows) (row : ρ) :
    UniqueKeys key (put key rows row) := by
  unfold UniqueKeys at h ⊢
  rw [put_keys]
  split
  · exact h
  · exact List.nodup_append.mpr ⟨h, List.nodup_singleton _, by grind⟩

theorem mem_puts (upserts : List ρ) (hup : UniqueKeys key upserts) {rows : List ρ}
    (h : UniqueKeys key rows) : UniqueKeys key (upserts.foldl (put key) rows) ∧
      ∀ r, r ∈ upserts.foldl (put key) rows ↔
        r ∈ upserts ∨ r ∈ rows ∧ key r ∉ upserts.map key := by
  induction upserts generalizing rows with
  | nil => simpa using h
  | cons row upserts ih =>
    obtain ⟨hrow, hrest⟩ := List.nodup_cons.mp hup
    obtain ⟨hunique, hmem⟩ := ih hrest (unique_put h row)
    refine ⟨hunique, fun r => (hmem r).trans ?_⟩
    rw [mem_put h row r]
    grind

variable {previous next current : List ρ} {removes : List κ} {upserts : List ρ}
  (h : Diff key previous next removes upserts) (hprevious : UniqueKeys key previous)
  (hnext : UniqueKeys key next) (hcurrent : current.Perm previous)
include h hprevious hnext hcurrent

theorem Diff.replaced_perm : (replaced key current removes upserts).Perm next := by
  have hunique := hprevious.perm hcurrent
  have hnodup : (replaced key current removes upserts).Nodup := by
    refine List.nodup_append.mpr ⟨hunique.nodup.filter _, h.distinct.nodup, ?_⟩
    grind
  refine (List.perm_ext_iff_of_nodup hnodup hnext.nodup).mpr fun row => ?_
  rw [h.mem_iff hprevious hnext, ← hcurrent.mem_iff]
  simp [replaced]

theorem Diff.puts_perm :
    (upserts.foldl (put key) (current.filter fun row => key row ∉ removes)).Perm next := by
  have hunique := hprevious.perm hcurrent
  have hkept : UniqueKeys key (current.filter fun row => key row ∉ removes) :=
    List.Nodup.sublist (List.filter_sublist.map key) hunique
  obtain ⟨hkeys, hmem⟩ := mem_puts upserts h.distinct hkept
  refine (List.perm_ext_iff_of_nodup hkeys.nodup hnext.nodup).mpr fun row => ?_
  rw [hmem, h.mem_iff hprevious hnext, ← hcurrent.mem_iff]
  grind

end

end Keyed
