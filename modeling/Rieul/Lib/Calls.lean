import Mathlib.Data.List.Perm.Basic

/-!
# Calls in flight

Calls that were begun stand in a list, each as what it still has to do; a step
takes one of them out and puts what follows back.
-/

namespace Calls
variable {α : Type} {calls : List α} {index : ℕ} {call : α}

section
variable (h : calls[index]? = some call)
include h

theorem mem : call ∈ calls :=
  List.mem_of_getElem? h

theorem mem_or_mem_eraseIdx (other : α) (hother : other ∈ calls) :
    other = call ∨ other ∈ calls.eraseIdx index := by
  rw [List.mem_eraseIdx_iff_getElem?]
  obtain ⟨i, hi⟩ := List.getElem?_of_mem hother
  by_cases heq : i = index
  · rw [heq, h] at hi
    exact .inl (Option.some.inj hi).symm
  · exact .inr ⟨i, heq, hi⟩

theorem perm_eraseIdx : (call :: calls.eraseIdx index).Perm calls := by
  obtain ⟨hlt, heq⟩ := List.getElem?_eq_some_iff.mp h
  rw [← heq]
  exact List.getElem_cons_eraseIdx_perm hlt

theorem exists_split :
    ∃ before after, calls = before ++ call :: after ∧ calls.take index = before ∧
      (∀ other, calls.set index other = before ++ other :: after) ∧
      calls.eraseIdx index = before ++ after := by
  obtain ⟨hlt, heq⟩ := List.getElem?_eq_some_iff.mp h
  refine ⟨calls.take index, calls.drop (index + 1), ?_, rfl, ?_, ?_⟩
  · rw [← heq, ← List.drop_eq_getElem_cons hlt, List.take_append_drop]
  · intro other
    rw [List.set_eq_take_append_cons_drop, if_pos hlt]
  · exact List.eraseIdx_eq_take_drop_succ calls index

end

end Calls
