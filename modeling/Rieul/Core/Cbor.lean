import Mathlib.Tactic.SplitIfs
import Rieul.Lib.Bytes

/-!
# The CBOR encoder (daemon/core/src/cbor.rs)

Transcripts that nodes sign or hash are CBOR arrays. The encoder is modelled
byte for byte; its encodings are prefix-free, so two transcripts with equal
bytes hold equal values.
-/

namespace Rieul.Cbor
open Bytes

inductive Value where
  | null
  | bool (b : Bool)
  | u64 (n : UInt64)
  | i64 (n : Int64)
  | f64 (bits : UInt64)
  | bytes (b : Str)
  | text (t : String)
  | array (items : List Value)
  | map (entries : List (UInt64 × Value))

/-- `encode_type_value` on a Nat below `2 ^ 64`. -/
def encodeArgument (major n : ℕ) : Str :=
  if n < 24 then [UInt8.ofNat (32 * major + n)]
  else if n ≤ 0xff then UInt8.ofNat (32 * major + 24) :: beBytes 1 n
  else if n ≤ 0xffff then UInt8.ofNat (32 * major + 25) :: beBytes 2 n
  else if n ≤ 0xffffffff then UInt8.ofNat (32 * major + 26) :: beBytes 4 n
  else UInt8.ofNat (32 * major + 27) :: beBytes 8 n

def encodeTypeValue (major : ℕ) (value : UInt64) : Str := encodeArgument major value.toNat

/-- Lengths go through `as u64`. -/
def encodeLength (major n : ℕ) : Str := encodeTypeValue major (UInt64.ofNat n)

def textBytes (t : String) : Str := t.toByteArray.data.toList

mutual
def Value.encode : Value → Str
  | .null => [0xf6]
  | .bool false => [0xf4]
  | .bool true => [0xf5]
  | .u64 n => encodeTypeValue 0 n
  | .i64 n =>
    if 0 ≤ n.toInt then encodeTypeValue 0 (UInt64.ofNat n.toInt.toNat)
    else encodeTypeValue 1 (UInt64.ofNat (-1 - n.toInt).toNat)
  | .f64 bits => 0xfb :: beBytes 8 bits.toNat
  | .bytes b => encodeLength 2 b.length ++ b
  | .text t => encodeLength 3 (textBytes t).length ++ textBytes t
  | .array items => encodeLength 4 items.length ++ encodeItems items
  | .map entries => encodeLength 5 entries.length ++ encodeEntries entries

def encodeItems : List Value → Str
  | [] => []
  | v :: vs => v.encode ++ encodeItems vs

def encodeEntries : List (UInt64 × Value) → Str
  | [] => []
  | (k, v) :: es => encodeTypeValue 0 k ++ v.encode ++ encodeEntries es
end

def additional (n : ℕ) : ℕ :=
  if n < 24 then n
  else if n ≤ 0xff then 24
  else if n ≤ 0xffff then 25
  else if n ≤ 0xffffffff then 26
  else 27

def argumentWidth (n : ℕ) : ℕ :=
  if n < 24 then 0
  else if n ≤ 0xff then 1
  else if n ≤ 0xffff then 2
  else if n ≤ 0xffffffff then 4
  else 8

theorem encodeArgument_eq (major n : ℕ) :
    encodeArgument major n =
      UInt8.ofNat (32 * major + additional n) :: beBytes (argumentWidth n) n := by
  unfold encodeArgument additional argumentWidth
  split_ifs <;> rfl

theorem additional_lt (n : ℕ) : additional n < 32 := by
  unfold additional
  split_ifs <;> omega

theorem header_inj (m m' n n' : ℕ) (hm : m < 8) (hm' : m' < 8)
    (h : UInt8.ofNat (32 * m + additional n) = UInt8.ofNat (32 * m' + additional n')) :
    m = m' ∧ additional n = additional n' := by
  have hn := additional_lt n
  have hn' := additional_lt n'
  have ht := congrArg UInt8.toNat h
  simp only [UInt8.toNat_ofNat'] at ht
  omega

theorem argumentWidth_of_additional (n n' : ℕ) (h : additional n = additional n') :
    argumentWidth n = argumentWidth n' ∧ (argumentWidth n = 0 → n = n') := by
  unfold additional at h
  unfold argumentWidth
  split_ifs at h ⊢ <;> first | omega | simp

theorem argument_lt (n : ℕ) (h : n < 2 ^ 64) (hw : argumentWidth n ≠ 0) :
    n < 256 ^ argumentWidth n := by
  unfold argumentWidth at *
  split_ifs at * <;> omega

theorem encodeArgument_append_inj (m m' n n' : ℕ) (r r' : Str) (hm : m < 8) (hm' : m' < 8)
    (hn : n < 2 ^ 64) (hn' : n' < 2 ^ 64)
    (h : encodeArgument m n ++ r = encodeArgument m' n' ++ r') :
    m = m' ∧ n = n' ∧ r = r' := by
  simp only [encodeArgument_eq, List.cons_append, List.cons.injEq] at h
  obtain ⟨hmaj, hadd⟩ := header_inj m m' n n' hm hm' h.1
  obtain ⟨hw, hsmall⟩ := argumentWidth_of_additional n n' hadd
  obtain ⟨hb, hr⟩ := frame_inj (by simp [hw]) h.2
  refine ⟨hmaj, ?_, hr⟩
  by_cases h0 : argumentWidth n = 0
  · exact hsmall h0
  · rw [← hw] at hb
    exact beBytes_inj _ n n' (argument_lt n hn h0) (hw ▸ argument_lt n' hn' (hw ▸ h0)) hb

theorem encodeTypeValue_append_inj (m m' : ℕ) (n n' : UInt64) (r r' : Str) (hm : m < 8)
    (hm' : m' < 8) (h : encodeTypeValue m n ++ r = encodeTypeValue m' n' ++ r') :
    m = m' ∧ n = n' ∧ r = r' := by
  obtain ⟨h1, h2, h3⟩ := encodeArgument_append_inj m m' n.toNat n'.toNat r r' hm hm'
    n.toNat_lt n'.toNat_lt h
  exact ⟨h1, UInt64.toNat_inj.mp h2, h3⟩

theorem encodeLength_append_inj (m m' n n' : ℕ) (r r' : Str) (hm : m < 8) (hm' : m' < 8)
    (hn : n < 2 ^ 64) (hn' : n' < 2 ^ 64) (h : encodeLength m n ++ r = encodeLength m' n' ++ r') :
    m = m' ∧ n = n' ∧ r = r' := by
  simp only [encodeLength, encodeTypeValue, UInt64.toNat_ofNat', Nat.mod_eq_of_lt hn,
    Nat.mod_eq_of_lt hn'] at h
  exact encodeArgument_append_inj m m' n n' r r' hm hm' hn hn' h

theorem textBytes_inj {t t' : String} (h : textBytes t = textBytes t') : t = t' := by
  apply String.toByteArray_inj.mp
  exact ByteArray.ext (Array.toList_inj.mp h)

theorem textBytes_append (s t : String) : textBytes (s ++ t) = textBytes s ++ textBytes t := by
  simp [textBytes, String.toByteArray_append, ByteArray.data_append]

theorem fromUTF8_textBytes (t : String) : String.fromUTF8? ⟨⟨textBytes t⟩⟩ = some t := by
  have hb : (⟨⟨textBytes t⟩⟩ : ByteArray) = t.toByteArray := rfl
  rw [hb, String.fromUTF8?, dif_pos t.isValidUTF8]
  rfl

theorem fromUTF8_eq_some (b : Str) (t : String) (h : String.fromUTF8? ⟨⟨b⟩⟩ = some t) :
    textBytes t = b := by
  unfold String.fromUTF8? at h
  split at h
  · injection h with h
    rw [← h]
    rfl
  · contradiction

section
attribute [local simp] Value.encode encodeItems encodeEntries

theorem u64_items_inj {n n' : UInt64} {vs ws : List Value} {r r' : Str}
    (h : encodeItems (.u64 n :: vs) ++ r = encodeItems (.u64 n' :: ws) ++ r') :
    n = n' ∧ encodeItems vs ++ r = encodeItems ws ++ r' := by
  simp only [encodeItems, Value.encode, List.append_assoc] at h
  obtain ⟨_, hn, hr⟩ := encodeTypeValue_append_inj 0 0 n n' _ _ (by omega) (by omega) h
  exact ⟨hn, hr⟩

theorem bytes_items_inj {b b' : Str} {vs ws : List Value} {r r' : Str} (hb : b.length < 2 ^ 64)
    (hb' : b'.length < 2 ^ 64)
    (h : encodeItems (.bytes b :: vs) ++ r = encodeItems (.bytes b' :: ws) ++ r') :
    b = b' ∧ encodeItems vs ++ r = encodeItems ws ++ r' := by
  simp only [encodeItems, Value.encode, List.append_assoc] at h
  obtain ⟨_, hl, hr⟩ := encodeLength_append_inj 2 2 _ _ _ _ (by omega) (by omega) hb hb' h
  exact frame_inj hl hr

theorem text_items_inj {t t' : String} {vs ws : List Value} {r r' : Str}
    (ht : (textBytes t).length < 2 ^ 64) (ht' : (textBytes t').length < 2 ^ 64)
    (h : encodeItems (.text t :: vs) ++ r = encodeItems (.text t' :: ws) ++ r') :
    t = t' ∧ encodeItems vs ++ r = encodeItems ws ++ r' := by
  simp only [encodeItems, Value.encode, List.append_assoc] at h
  obtain ⟨_, hl, hr⟩ := encodeLength_append_inj 3 3 _ _ _ _ (by omega) (by omega) ht ht' h
  obtain ⟨hb, hrest⟩ := frame_inj hl hr
  exact ⟨textBytes_inj hb, hrest⟩

theorem array_append_inj {vs ws : List Value} {r r' : Str} (hv : vs.length < 2 ^ 64)
    (hw : ws.length < 2 ^ 64)
    (h : (Value.array vs).encode ++ r = (Value.array ws).encode ++ r') :
    vs.length = ws.length ∧ encodeItems vs ++ r = encodeItems ws ++ r' := by
  simp only [Value.encode, List.append_assoc] at h
  obtain ⟨_, hl, hr⟩ := encodeLength_append_inj 4 4 _ _ _ _ (by omega) (by omega) hv hw h
  exact ⟨hl, hr⟩

theorem array_items_inj {vs ws vs' ws' : List Value} {r r' : Str} (hv : vs.length < 2 ^ 64)
    (hw : ws.length < 2 ^ 64)
    (h : encodeItems (.array vs :: vs') ++ r = encodeItems (.array ws :: ws') ++ r') :
    vs.length = ws.length ∧
      encodeItems vs ++ (encodeItems vs' ++ r) = encodeItems ws ++ (encodeItems ws' ++ r') := by
  simp only [encodeItems, List.append_assoc] at h
  exact array_append_inj hv hw h

end

end Rieul.Cbor
