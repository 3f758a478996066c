import Rieul.Core.Cbor

/-!
# Sizes of encodings

Three measures of a value: the bytes of its encoding, the data items in it (a
map key is an item) and how deep they nest.
-/

namespace Rieul.Cbor
open Bytes

theorem encodeArgument_length (major n : ℕ) :
    1 ≤ (encodeArgument major n).length ∧ (encodeArgument major n).length ≤ 9 := by
  unfold encodeArgument
  split_ifs <;> simp

theorem u64_length (n : UInt64) :
    1 ≤ (Value.u64 n).encode.length ∧ (Value.u64 n).encode.length ≤ 9 :=
  encodeArgument_length 0 n.toNat

theorem i64_length (n : Int64) :
    1 ≤ (Value.i64 n).encode.length ∧ (Value.i64 n).encode.length ≤ 9 := by
  unfold Value.encode
  split_ifs
  · exact encodeArgument_length 0 _
  · exact encodeArgument_length 1 _

theorem bytes_length (b : Str) : b.length + 1 ≤ (Value.bytes b).encode.length ∧
    (Value.bytes b).encode.length ≤ b.length + 9 := by
  have hl := encodeArgument_length 2 (UInt64.ofNat b.length).toNat
  simp only [Value.encode, encodeLength, encodeTypeValue, List.length_append]
  omega

theorem text_length (t : String) : (textBytes t).length + 1 ≤ (Value.text t).encode.length ∧
    (Value.text t).encode.length ≤ (textBytes t).length + 9 := by
  have hl := encodeArgument_length 3 (UInt64.ofNat (textBytes t).length).toNat
  simp only [Value.encode, encodeLength, encodeTypeValue, List.length_append]
  omega

theorem array_length (vs : List Value) : (encodeItems vs).length + 1 ≤ (Value.array vs).encode.length ∧
    (Value.array vs).encode.length ≤ (encodeItems vs).length + 9 := by
  have hl := encodeArgument_length 4 (UInt64.ofNat vs.length).toNat
  simp only [Value.encode, encodeLength, encodeTypeValue, List.length_append]
  omega

theorem map_length (es : List (UInt64 × Value)) :
    (encodeEntries es).length + 1 ≤ (Value.map es).encode.length ∧
    (Value.map es).encode.length ≤ (encodeEntries es).length + 9 := by
  have hl := encodeArgument_length 5 (UInt64.ofNat es.length).toNat
  simp only [Value.encode, encodeLength, encodeTypeValue, List.length_append]
  omega

theorem items_cons_length (v : Value) (vs : List Value) :
    (encodeItems (v :: vs)).length = v.encode.length + (encodeItems vs).length := by
  rw [encodeItems, List.length_append]

theorem items_nil_length : (encodeItems []).length = 0 := rfl

theorem entries_nil_length : (encodeEntries []).length = 0 := rfl

theorem entries_cons_length (k : UInt64) (v : Value) (es : List (UInt64 × Value))
    (hk : k.toNat < 24) :
    (encodeEntries ((k, v) :: es)).length = 1 + v.encode.length + (encodeEntries es).length := by
  have hkey : (encodeTypeValue 0 k).length = 1 := by
    unfold encodeTypeValue encodeArgument
    rw [if_pos hk]
    rfl
  rw [encodeEntries, List.length_append, List.length_append, hkey]

theorem id_length (x : Fixed 32) : (Value.bytes x.data).encode.length = 34 := by
  simp [Value.encode, encodeLength, encodeTypeValue, encodeArgument, x.size]

theorem signature_length (x : Fixed 64) : (Value.bytes x.data).encode.length = 66 := by
  simp [Value.encode, encodeLength, encodeTypeValue, encodeArgument, x.size]

mutual
def Value.count : Value → ℕ
  | .array items => 1 + countItems items
  | .map entries => 1 + countEntries entries
  | _ => 1

def countItems : List Value → ℕ
  | [] => 0
  | v :: vs => v.count + countItems vs

def countEntries : List (UInt64 × Value) → ℕ
  | [] => 0
  | (_, v) :: es => 1 + v.count + countEntries es
end

mutual
def Value.depth : Value → ℕ
  | .array items => depthItems items
  | .map entries => depthEntries entries
  | _ => 0

def depthItems : List Value → ℕ
  | [] => 0
  | v :: vs => max (1 + v.depth) (depthItems vs)

def depthEntries : List (UInt64 × Value) → ℕ
  | [] => 0
  | (_, v) :: es => max (1 + v.depth) (depthEntries es)
end

mutual
def Value.Plain : Value → Prop
  | .f64 _ => False
  | .bytes b => b.length < 2 ^ 64
  | .text t => (textBytes t).length < 2 ^ 64
  | .array items => PlainItems items
  | .map entries => PlainEntries entries
  | _ => True

def PlainItems : List Value → Prop
  | [] => True
  | v :: vs => v.Plain ∧ PlainItems vs

def PlainEntries : List (UInt64 × Value) → Prop
  | [] => True
  | (_, v) :: es => v.Plain ∧ PlainEntries es
end

theorem Value.count_pos (v : Value) : 0 < v.count := by
  cases v <;> simp [Value.count]

theorem length_le_countItems (vs : List Value) : vs.length ≤ countItems vs := by
  induction vs with
  | nil => exact Nat.le_refl 0
  | cons v vs ih =>
    have hv := v.count_pos
    simp only [countItems, List.length_cons]
    omega

theorem length_le_countEntries (es : List (UInt64 × Value)) : 2 * es.length ≤ countEntries es := by
  induction es with
  | nil => exact Nat.le_refl 0
  | cons e es ih =>
    have hv := e.2.count_pos
    simp only [countEntries, List.length_cons]
    omega

theorem countItems_map {α : Type} (f : α → Value) (n : ℕ) (h : ∀ a, (f a).count = n) (as : List α) :
    countItems (as.map f) = n * as.length := by
  induction as with
  | nil => rfl
  | cons a as ih =>
    rw [List.map_cons, countItems, h, ih, List.length_cons, Nat.mul_succ]
    omega

theorem depthItems_map {α : Type} (f : α → Value) (n : ℕ) (h : ∀ a, (f a).depth ≤ n) (as : List α) :
    depthItems (as.map f) ≤ 1 + n := by
  induction as with
  | nil => exact Nat.zero_le _
  | cons a as ih =>
    have ha := h a
    rw [List.map_cons, depthItems]
    omega

theorem plainItems_map {α : Type} (f : α → Value) (as : List α) (h : ∀ a ∈ as, (f a).Plain) :
    PlainItems (as.map f) := by
  induction as with
  | nil => exact True.intro
  | cons a as ih =>
    exact ⟨h a List.mem_cons_self, ih fun b hb => h b (List.mem_cons_of_mem a hb)⟩

end Rieul.Cbor
