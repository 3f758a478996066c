import Rieul.Cluster.Platform
import Rieul.Core.CborDecode
import Mathlib.Data.List.Sort

/-!
# The browser's CBOR encoder (web/src/protocol/cbor.ts)

Numbers are integers, by their value, or doubles, by their bits. An integer that
is not safe cannot be encoded; every other value gets the bytes that the node's
encoder gives it.
-/

namespace Rieul.Web
open Bytes Fallible Rieul.Cbor
open Rieul.Cluster (maxCounter)

/-- What stops a verifier: `fail`, or an exception of the encoder, the URL parser or the decoder. -/
inductive Thrown where
  | invalid
  | integer
  | url
  | text
  | nonFinite
  | key
  | duplicate
  | nesting
  | ended
  | trailing
  | unsupported
  | range
  deriving DecidableEq

abbrev Checked := Except Thrown

/-- `fraction` is a number that is no integer; the entries of a map are in the order of insertion. -/
inductive CborValue where
  | null
  | boolean (b : Bool)
  | number (n : ℤ)
  | fraction (bits : UInt64)
  | f64 (bits : UInt64)
  | string (t : String)
  | bytes (b : Str)
  | array (items : List CborValue)
  | map (entries : List (ℤ × CborValue))

/-- `Number.MAX_SAFE_INTEGER`. -/
def maxSafeInteger : ℤ := 9007199254740991

/-- `Number.isSafeInteger`. -/
def IsSafeInteger (n : ℤ) : Prop := -maxSafeInteger ≤ n ∧ n ≤ maxSafeInteger

instance (n : ℤ) : Decidable (IsSafeInteger n) := by
  unfold IsSafeInteger
  infer_instance

def be (value : ℕ) : ℕ → Str
  | 0 => []
  | len + 1 => be (value / 256) len ++ [UInt8.ofNat (value % 256)]

/-- The chunks that `encodeTypeValue` pushes. -/
def typeValue (major value : ℕ) : Str :=
  if value < 24 then [UInt8.ofNat (major <<< 5 ||| value)]
  else if value ≤ 0xff then [UInt8.ofNat (major <<< 5 ||| 24), UInt8.ofNat value]
  else if value ≤ 0xffff then
    [UInt8.ofNat (major <<< 5 ||| 25), UInt8.ofNat (value >>> 8), UInt8.ofNat (value &&& 0xff)]
  else if value ≤ 0xffffffff then UInt8.ofNat (major <<< 5 ||| 26) :: be value 4
  else UInt8.ofNat (major <<< 5 ||| 27) :: be value 8

def encodeTypeValue (major : ℕ) (value : ℤ) : Checked Str := do
  ensure (IsSafeInteger value ∧ 0 ≤ value) .integer
  pure (typeValue major value.toNat)

def encodeFloat64 (bits : UInt64) : Str := 0xfb :: be bits.toNat 8

/-- The entries in the order of their keys, as `sort` leaves them. -/
def sortEntries {α : Type} (entries : List (ℤ × α)) : List (ℤ × α) :=
  entries.insertionSort fun a b => a.1 ≤ b.1

def encodeSorted : List (ℤ × Checked Str) → Checked Str
  | [] => .ok []
  | (key, item) :: entries => do
    ensure (IsSafeInteger key ∧ 0 ≤ key) .key
    let key ← encodeTypeValue 0 key
    let item ← item
    let rest ← encodeSorted entries
    pure (key ++ item ++ rest)

/-- `out.push(...value)`: an engine passes at most `limit` arguments to a call. -/
def pushAll (limit : ℕ) (value : Str) : Checked Str := do
  ensure (value.length ≤ limit) .range
  pure value

/-! `encode` passes on what `push` throws; `encodeCbor` is where `push` takes everything. -/

mutual
def encode (limit : ℕ) : CborValue → Checked Str
  | .null => .ok [0xf6]
  | .boolean b => .ok [if b then 0xf5 else 0xf4]
  | .number n => do
    ensure (IsSafeInteger n) .integer
    if 0 ≤ n then encodeTypeValue 0 n else encodeTypeValue 1 (-1 - n)
  | .fraction bits => do
    ensure (IsFinite bits) .nonFinite
    pure (encodeFloat64 bits)
  | .f64 bits => .ok (encodeFloat64 bits)
  | .string t => do
    let length ← encodeTypeValue 3 (textBytes t).length
    let pushed ← pushAll limit (textBytes t)
    pure (length ++ pushed)
  | .bytes b => do
    let length ← encodeTypeValue 2 b.length
    let pushed ← pushAll limit b
    pure (length ++ pushed)
  | .array items => do
    let length ← encodeTypeValue 4 items.length
    let rest ← encodeItemsWithin limit items
    pure (length ++ rest)
  | .map entries => do
    let length ← encodeTypeValue 5 entries.length
    let rest ← encodeSorted (sortEntries (encodeEachWithin limit entries))
    pure (length ++ rest)

def encodeItemsWithin (limit : ℕ) : List CborValue → Checked Str
  | [] => .ok []
  | v :: vs => do
    let first ← encode limit v
    let rest ← encodeItemsWithin limit vs
    pure (first ++ rest)

def encodeEachWithin (limit : ℕ) : List (ℤ × CborValue) → List (ℤ × Checked Str)
  | [] => []
  | (key, item) :: entries => (key, encode limit item) :: encodeEachWithin limit entries
end

mutual
def encodeCbor : CborValue → Checked Str
  | .null => .ok [0xf6]
  | .boolean b => .ok [if b then 0xf5 else 0xf4]
  | .number n => do
    ensure (IsSafeInteger n) .integer
    if 0 ≤ n then encodeTypeValue 0 n else encodeTypeValue 1 (-1 - n)
  | .fraction bits => do
    ensure (IsFinite bits) .nonFinite
    pure (encodeFloat64 bits)
  | .f64 bits => .ok (encodeFloat64 bits)
  | .string t => do
    let length ← encodeTypeValue 3 (textBytes t).length
    pure (length ++ textBytes t)
  | .bytes b => do
    let length ← encodeTypeValue 2 b.length
    pure (length ++ b)
  | .array items => do
    let length ← encodeTypeValue 4 items.length
    let rest ← encodeAll items
    pure (length ++ rest)
  | .map entries => do
    let length ← encodeTypeValue 5 entries.length
    let rest ← encodeSorted (sortEntries (encodeEach entries))
    pure (length ++ rest)

def encodeAll : List CborValue → Checked Str
  | [] => .ok []
  | v :: vs => do
    let first ← encodeCbor v
    let rest ← encodeAll vs
    pure (first ++ rest)

def encodeEach : List (ℤ × CborValue) → List (ℤ × Checked Str)
  | [] => []
  | (key, item) :: entries => (key, encodeCbor item) :: encodeEach entries
end

def byteOrderMark : Str := [0xef, 0xbb, 0xbf]

/-- `TextDecoder` with `fatal`: a byte order mark is dropped. -/
def decodeText (b : Str) : Checked String :=
  require .text (String.fromUTF8? ⟨⟨if b.take 3 = byteOrderMark then b.drop 3 else b⟩⟩)

theorem be_eq_beBytes (value len : ℕ) : be value len = beBytes len value := by
  induction len generalizing value with
  | zero => rfl
  | succ len ih =>
    have hlast : UInt8.ofNat (value % 256) = UInt8.ofNat value := by
      apply UInt8.toNat_inj.mp
      simp only [UInt8.toNat_ofNat']
      omega
    rw [be, beBytes, ih, hlast]

theorem shift_or (major n : ℕ) (h : n < 32) : major <<< 5 ||| n = 32 * major + n := by
  rw [← Nat.shiftLeft_add_eq_or_of_lt (show n < 2 ^ 5 by omega), Nat.shiftLeft_eq]
  omega

theorem typeValue_eq (major value : ℕ) : typeValue major value = encodeArgument major value := by
  have hhigh : UInt8.ofNat (value >>> 8) = UInt8.ofNat (value / 256) := by
    rw [Nat.shiftRight_eq_div_pow]
  have hlow : UInt8.ofNat (value &&& 0xff) = UInt8.ofNat value := by
    apply UInt8.toNat_inj.mp
    simp only [UInt8.toNat_ofNat']
    rw [show (0xff : ℕ) = 2 ^ 8 - 1 by rfl, Nat.and_two_pow_sub_one_eq_mod]
    omega
  unfold typeValue encodeArgument
  split_ifs with h24
  · rw [shift_or major value (by omega)]
  · rw [shift_or major 24 (by omega)]
    rfl
  · rw [shift_or major 25 (by omega), hhigh, hlow]
    rfl
  · rw [shift_or major 26 (by omega), be_eq_beBytes]
  · rw [shift_or major 27 (by omega), be_eq_beBytes]

theorem encodeTypeValue_ofNat (major n : ℕ) (h : n ≤ 9007199254740991) :
    encodeTypeValue major n = .ok (encodeArgument major n) := by
  have hsafe : IsSafeInteger (n : ℤ) ∧ 0 ≤ (n : ℤ) := by
    simp only [IsSafeInteger, maxSafeInteger]
    omega
  rw [encodeTypeValue, ensure_of _ _ hsafe, ok_bind, Int.toNat_natCast, typeValue_eq]
  rfl

theorem encodeTypeValue_length (major n : ℕ) (h : n ≤ 9007199254740991) :
    encodeTypeValue major n = .ok (encodeLength major n) := by
  rw [encodeTypeValue_ofNat major n h, encodeLength, Cbor.encodeTypeValue, UInt64.toNat_ofNat',
    Nat.mod_eq_of_lt (by omega)]

theorem encode_number (n : UInt64) (h : n ≤ maxCounter) :
    encodeCbor (.number n.toNat) = .ok (Value.u64 n).encode := by
  have hle : n.toNat ≤ 9007199254740991 := UInt64.le_iff_toNat_le.mp h
  have hsafe : IsSafeInteger (n.toNat : ℤ) := by
    simp only [IsSafeInteger, maxSafeInteger]
    omega
  rw [encodeCbor, ensure_of _ _ hsafe, ok_bind, if_pos (by omega), encodeTypeValue_ofNat 0 _ hle]
  rfl

theorem encode_bytes (b : Str) (h : b.length ≤ 9007199254740991) :
    encodeCbor (.bytes b) = .ok (Value.bytes b).encode := by
  rw [encodeCbor, encodeTypeValue_length 2 _ h]
  rfl

theorem encode_fixed {n : ℕ} (x : Fixed n) (h : n ≤ 9007199254740991) :
    encodeCbor (.bytes x.data) = .ok (Value.bytes x.data).encode :=
  encode_bytes x.data (by rw [x.size]; exact h)

theorem encode_string (t : String) (h : (textBytes t).length ≤ 9007199254740991) :
    encodeCbor (.string t) = .ok (Value.text t).encode := by
  rw [encodeCbor, encodeTypeValue_length 3 _ h]
  rfl

theorem encode_boolean (b : Bool) : encodeCbor (.boolean b) = .ok (Value.bool b).encode := by
  cases b <;> rfl

theorem encodeAll_nil : encodeAll [] = .ok (encodeItems []) := rfl

theorem encodeAll_cons {c : CborValue} {v : Value} {cs : List CborValue} {vs : List Value}
    (h : encodeCbor c = .ok v.encode) (hs : encodeAll cs = .ok (encodeItems vs)) :
    encodeAll (c :: cs) = .ok (encodeItems (v :: vs)) := by
  rw [encodeAll, h, ok_bind, hs]
  rfl

theorem encode_array {cs : List CborValue} {vs : List Value} (hl : cs.length = vs.length)
    (hmax : vs.length ≤ 9007199254740991) (hs : encodeAll cs = .ok (encodeItems vs)) :
    encodeCbor (.array cs) = .ok (Value.array vs).encode := by
  rw [encodeCbor, hl, encodeTypeValue_length 4 _ hmax, ok_bind, hs]
  rfl

end Rieul.Web
