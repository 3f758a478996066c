import Mathlib.Data.List.Induction
import Mathlib.Data.List.Infix

/-!
# Chains of a functional extension relation

`Next p a` says that `a` may follow the list `p`.
-/

namespace Chain
variable {α : Type}

def IsChain (Next : List α → α → Prop) (l : List α) : Prop :=
  ∀ (p : List α) (a : α), p ++ [a] <+: l → Next p a

def Functional (Next : List α → α → Prop) : Prop :=
  ∀ (p : List α) (a b : α), Next p a → Next p b → a = b

def Comparable (l m : List α) : Prop := l <+: m ∨ m <+: l

theorem isChain_nil (Next : List α → α → Prop) : IsChain Next [] := by
  intro p a h
  have hl := h.length_le
  simp at hl

theorem IsChain.of_prefix {Next : List α → α → Prop} {l m : List α} (hm : IsChain Next m)
    (hp : l <+: m) : IsChain Next l := fun p a h => hm p a (h.trans hp)

theorem IsChain.snoc {Next : List α → α → Prop} {l : List α} {a : α} (hl : IsChain Next l)
    (ha : Next l a) : IsChain Next (l ++ [a]) := by
  intro p b h
  rcases List.prefix_concat_iff.mp h with he | hp
  · obtain ⟨rfl, hb⟩ := List.append_inj' he rfl
    cases hb
    exact ha
  · exact hl p b hp

theorem IsChain.mono {Next Next' : List α → α → Prop} {l : List α} (hl : IsChain Next l)
    (h : ∀ p a, Next p a → Next' p a) : IsChain Next' l := fun p a hp => h p a (hl p a hp)

theorem comparable_of_isChain {Next : List α → α → Prop} (hf : Functional Next) {l m : List α}
    (hl : IsChain Next l) (hm : IsChain Next m) : Comparable l m := by
  induction l using List.reverseRecOn with
  | nil => exact Or.inl List.nil_prefix
  | append_singleton p a ih =>
    rcases ih (hl.of_prefix (List.prefix_append p [a])) with ⟨r, hr⟩ | hmp
    · cases r with
      | nil =>
        rw [List.append_nil] at hr
        exact Or.inr (hr ▸ List.prefix_append p [a])
      | cons b r =>
        -- both chains extend `p`, so they extend it by the same element
        have hb : p ++ [b] <+: m := ⟨r, by rw [← hr]; simp⟩
        have hab := hf p a b (hl p a (List.prefix_refl _)) (hm p b hb)
        exact Or.inl (hab ▸ hb)
    · exact Or.inr (hmp.trans (List.prefix_append p [a]))

end Chain
