import Rieul.Core.CborSize
import Rieul.Lib.Fallible

/-!
# The limits on a payload (daemon/host/src/server/cluster_rpc.rs)

`bounded_payload` walks over an encoding before the decoder allocates. It
passes the encoding of every value that is small and shallow enough.
-/

namespace Rieul.Cluster
open Bytes Cbor

def maxRpcBytes : ℕ := 512 * 1024

/-- The argument of a header with the additional information `ai`. -/
def walkArgument (ai : ℕ) (input : Str) : Option (ℕ × Str) :=
  if ai < 24 then some (ai, input)
  else if ai < 28 then
    if 2 ^ (ai - 24) ≤ input.length then
      some (beNat (input.take (2 ^ (ai - 24))), input.drop (2 ^ (ai - 24)))
    else none
  else none

def walkTimes (walk : Str → ℕ → Option (Str × ℕ)) : ℕ → Str → ℕ → Option (Str × ℕ)
  | 0, input, budget => some (input, budget)
  | n + 1, input, budget => do
    let (input, budget) ← walk input budget
    walkTimes walk n input budget

/-- What follows the header of an item; `walk` walks over an item one level deeper. -/
def walkContent (walk : Str → ℕ → Option (Str × ℕ)) (major ai n : ℕ) (input : Str) (budget : ℕ) :
    Option (Str × ℕ) :=
  if major = 0 ∨ major = 1 then some (input, budget)
  else if major = 2 ∨ major = 3 then
    if n ≤ input.length then some (input.drop n, budget) else none
  else if major = 4 ∨ major = 5 then
    let count := n * (if major = 5 then 2 else 1)
    if 2 ^ 64 ≤ count ∨ budget < count then none else walkTimes walk count input budget
  else if major = 7 ∧ 20 ≤ ai ∧ ai ≤ 22 then some (input, budget)
  else none

/-- `item`: `levels` counts down from 17 as the depth counts up from 0. Returns the rest of the
input and of the budget. -/
def walkItem : ℕ → Str → ℕ → Option (Str × ℕ)
  | 0, _, _ => none
  | levels + 1, input, budget =>
    if budget = 0 then none
    else match input with
      | [] => none
      | header :: input => do
        let (n, input) ← walkArgument (header.toNat % 32) input
        walkContent (walkItem levels) (header.toNat / 32) (header.toNat % 32) n input (budget - 1)

def boundedPayload (bytes : Str) : Bool :=
  bytes.length ≤ maxRpcBytes ∧ ((walkItem 17 bytes 24000).map Prod.fst = some [])

theorem walkArgument_encoded (n : ℕ) (rest : Str) (h : n < 2 ^ 64) :
    walkArgument (additional n) (beBytes (argumentWidth n) n ++ rest) = some (n, rest) := by
  by_cases hsmall : n < 24
  · simp [walkArgument, additional, argumentWidth, hsmall, beBytes]
  · have hw : 2 ^ (additional n - 24) = argumentWidth n := by
      unfold additional argumentWidth
      split_ifs <;> rfl
    have hadd : ¬ additional n < 24 ∧ additional n < 28 := by
      unfold additional
      split_ifs <;> omega
    have hne : argumentWidth n ≠ 0 := by
      rw [← hw]
      exact (Nat.two_pow_pos _).ne'
    have hn := beNat_beBytes (argumentWidth n) n (argument_lt n h hne)
    have hl := beBytes_length (argumentWidth n) n
    rw [walkArgument, if_neg hadd.1, if_pos hadd.2, hw, if_pos (by simp [hl])]
    rw [List.take_left' hl, List.drop_left' hl, hn]

theorem walkItem_header (levels major n budget : ℕ) (rest : Str) (hm : major < 8) (h : n < 2 ^ 64)
    (hb : 0 < budget) :
    walkItem (levels + 1) (encodeArgument major n ++ rest) budget =
      walkContent (walkItem levels) major (additional n) n rest (budget - 1) := by
  have hadd := additional_lt n
  have hh : (UInt8.ofNat (32 * major + additional n)).toNat = 32 * major + additional n := by
    rw [UInt8.toNat_ofNat', Nat.mod_eq_of_lt (by omega)]
  have hmod : (32 * major + additional n) % 32 = additional n := by omega
  have hdiv : (32 * major + additional n) / 32 = major := by omega
  rw [encodeArgument_eq, List.cons_append, walkItem, if_neg hb.ne', hh, hmod, hdiv,
    walkArgument_encoded n rest h]
  rfl

theorem toNat_ofNat_length (n : ℕ) (h : n < 2 ^ 64) : (UInt64.ofNat n).toNat = n := by
  rw [UInt64.toNat_ofNat', Nat.mod_eq_of_lt h]

theorem walkItem_string (levels major budget : ℕ) (b rest : Str) (hm : major = 2 ∨ major = 3)
    (h : b.length < 2 ^ 64) (hb : 0 < budget) :
    walkItem (levels + 1) (encodeLength major b.length ++ b ++ rest) budget =
      some (rest, budget - 1) := by
  have hn := toNat_ofNat_length b.length h
  rw [List.append_assoc, encodeLength, encodeTypeValue, hn,
    walkItem_header levels major _ budget _ (by omega) h hb]
  have h0 : ¬ (major = 0 ∨ major = 1) := by omega
  rw [walkContent, if_neg h0, if_pos hm, if_pos (by simp), List.drop_left]

theorem walkItem_list (levels major count n budget : ℕ) (content rest : Str)
    (hm : major = 4 ∧ count = n ∨ major = 5 ∧ count = 2 * n) (hb : count < budget)
    (hbudget : budget < 2 ^ 64) :
    walkItem (levels + 1) (encodeLength major n ++ content ++ rest) budget =
      walkTimes (walkItem levels) count (content ++ rest) (budget - 1) := by
  have hn := toNat_ofNat_length n (by omega)
  rw [List.append_assoc, encodeLength, encodeTypeValue, hn,
    walkItem_header levels major n budget _ (by omega) (by omega) (by omega)]
  have hcount : n * (if major = 5 then 2 else 1) = count := by
    split_ifs <;> omega
  have hc : ¬ (2 ^ 64 ≤ count ∨ budget - 1 < count) := by omega
  rw [walkContent, if_neg (by omega), if_neg (by omega), if_pos (by omega)]
  simp only [hcount, if_neg hc]

theorem walkTimes_succ (walk : Str → ℕ → Option (Str × ℕ)) (n budget budget' : ℕ)
    (input input' : Str) (h : walk input budget = some (input', budget')) :
    walkTimes walk (n + 1) input budget = walkTimes walk n input' budget' := by
  rw [walkTimes, h]
  rfl

/-- `null`, `false` and `true`. -/
theorem walkItem_simple (levels n budget : ℕ) (rest : Str) (hn : 20 ≤ n ∧ n ≤ 22)
    (hb : 0 < budget) :
    walkItem (levels + 1) (encodeArgument 7 n ++ rest) budget = some (rest, budget - 1) := by
  have hadd : additional n = n := if_pos (by omega)
  rw [walkItem_header levels 7 n budget rest (by omega) (by omega) hb, hadd, walkContent,
    if_neg (by omega), if_neg (by omega), if_neg (by omega), if_pos ⟨rfl, hn⟩]

theorem walkItem_number (levels major budget : ℕ) (n : UInt64) (rest : Str)
    (hm : major = 0 ∨ major = 1) (hb : 0 < budget) :
    walkItem (levels + 1) (encodeTypeValue major n ++ rest) budget = some (rest, budget - 1) := by
  rw [encodeTypeValue, walkItem_header levels major _ budget rest (by omega) n.toNat_lt hb,
    walkContent, if_pos hm]

mutual
theorem walkItem_encode (v : Value) (levels budget : ℕ) (rest : Str) (hv : v.Plain)
    (hd : v.depth < levels) (hb : v.count ≤ budget) (hbudget : budget < 2 ^ 64) :
    walkItem levels (v.encode ++ rest) budget = some (rest, budget - v.count) := by
  obtain ⟨levels, rfl⟩ : ∃ k, levels = k + 1 := ⟨levels - 1, by omega⟩
  have hpos := v.count_pos
  match v with
  | .null => exact walkItem_simple levels 22 budget rest (by omega) (by omega)
  | .bool false => exact walkItem_simple levels 20 budget rest (by omega) (by omega)
  | .bool true => exact walkItem_simple levels 21 budget rest (by omega) (by omega)
  | .u64 n => exact walkItem_number levels 0 budget n rest (.inl rfl) (by omega)
  | .i64 n =>
    unfold Value.encode
    split_ifs
    · exact walkItem_number levels 0 budget _ rest (.inl rfl) (by omega)
    · exact walkItem_number levels 1 budget _ rest (.inr rfl) (by omega)
  | .f64 bits => exact absurd hv id
  | .bytes b => exact walkItem_string levels 2 budget b rest (.inl rfl) hv (by omega)
  | .text t => exact walkItem_string levels 3 budget (textBytes t) rest (.inr rfl) hv (by omega)
  | .array items =>
    have hl := length_le_countItems items
    simp only [Value.count, Value.depth] at hb hd ⊢
    have h := walkTimes_items items levels (budget - 1) rest hv (by omega) (by omega) (by omega)
    rw [Value.encode, walkItem_list levels 4 items.length items.length budget _ rest
      (.inl ⟨rfl, rfl⟩) (by omega) hbudget, h, Nat.sub_sub]
  | .map entries =>
    have hl := length_le_countEntries entries
    simp only [Value.count, Value.depth] at hb hd ⊢
    have h := walkTimes_entries entries levels (budget - 1) rest hv (by omega) (by omega) (by omega)
    rw [Value.encode, walkItem_list levels 5 (2 * entries.length) entries.length budget _ rest
      (.inr ⟨rfl, rfl⟩) (by omega) hbudget, h, Nat.sub_sub]

theorem walkTimes_items (vs : List Value) (levels budget : ℕ) (rest : Str) (hv : PlainItems vs)
    (hd : depthItems vs ≤ levels) (hb : countItems vs ≤ budget) (hbudget : budget < 2 ^ 64) :
    walkTimes (walkItem levels) vs.length (encodeItems vs ++ rest) budget =
      some (rest, budget - countItems vs) := by
  match vs with
  | [] => rfl
  | v :: vs =>
    simp only [depthItems, countItems] at hd hb
    have h1 := walkItem_encode v levels budget (encodeItems vs ++ rest) hv.1 (by omega) (by omega)
      hbudget
    have h2 := walkTimes_items vs levels (budget - v.count) rest hv.2 (by omega) (by omega) (by omega)
    rw [encodeItems, List.append_assoc, List.length_cons, walkTimes_succ _ _ _ _ _ _ h1, h2,
      countItems, Nat.sub_sub]

theorem walkTimes_entries (es : List (UInt64 × Value)) (levels budget : ℕ) (rest : Str)
    (hv : PlainEntries es) (hd : depthEntries es ≤ levels) (hb : countEntries es ≤ budget)
    (hbudget : budget < 2 ^ 64) :
    walkTimes (walkItem levels) (2 * es.length) (encodeEntries es ++ rest) budget =
      some (rest, budget - countEntries es) := by
  match es with
  | [] => rfl
  | (k, v) :: es =>
    simp only [depthEntries, countEntries] at hd hb
    obtain ⟨below, rfl⟩ : ∃ n, levels = n + 1 := ⟨levels - 1, by omega⟩
    -- the key, the value, the entries behind them
    have h1 := walkItem_number below 0 budget k (v.encode ++ (encodeEntries es ++ rest)) (.inl rfl)
      (by omega)
    have h2 := walkItem_encode v (below + 1) (budget - 1) (encodeEntries es ++ rest) hv.1 (by omega)
      (by omega) (by omega)
    have h3 := walkTimes_entries es (below + 1) (budget - 1 - v.count) rest hv.2 (by omega) (by omega)
      (by omega)
    have hn : 2 * ((k, v) :: es).length = 2 * es.length + 1 + 1 := by
      rw [List.length_cons]
      omega
    rw [encodeEntries, List.append_assoc, List.append_assoc, hn, walkTimes_succ _ _ _ _ _ _ h1,
      walkTimes_succ _ _ _ _ _ _ h2, h3, countEntries, Nat.sub_sub, Nat.sub_sub, Nat.add_assoc]
end

theorem boundedPayload_encode (v : Value) (hv : v.Plain) (hl : v.encode.length ≤ maxRpcBytes)
    (hd : v.depth ≤ 16) (hc : v.count ≤ 24000) : boundedPayload v.encode = true := by
  have h := walkItem_encode v 17 24000 [] hv (by omega) hc (by norm_num)
  rw [List.append_nil] at h
  simp [boundedPayload, hl, h]

end Rieul.Cluster
