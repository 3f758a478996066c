import Rieul.Core.CborSize
import Rieul.Lib.Reader

/-!
# The CBOR decoder (daemon/core/src/cbor.rs)

The cursor is what is left of the input. A map is a `BTreeMap`: its entries are
kept in the order of their keys, whatever the order in the input.
-/

namespace Rieul.Cbor
open Bytes Reader

inductive CborError where
  | UnexpectedEnd
  | UnsupportedType
  | NonCanonicalInteger
  | DuplicateMapKey
  | ExpectedUnsignedMapKey
  | TrailingBytes
  | InvalidUtf8
  | LengthTooLarge
  deriving DecidableEq

def IsFinite (bits : UInt64) : Prop := bits.toNat / 2 ^ 52 % 2 ^ 11 ≠ 2 ^ 11 - 1

instance (bits : UInt64) : Decidable (IsFinite bits) := by
  unfold IsFinite
  infer_instance

abbrev Decoder := Reader UInt8 CborError

abbrev Entries := List (UInt64 × Value)

/-- `BTreeMap::insert` of a key that is not there. -/
def insertEntry (key : UInt64) (value : Value) : Entries → Entries
  | [] => [(key, value)]
  | e :: es => if key < e.1 then (key, value) :: e :: es else e :: insertEntry key value es

/-- A number of `n` big-endian bytes. -/
def readBe (n : ℕ) : Decoder ℕ := do
  let bytes ← take .UnexpectedEnd n
  pure (beNat bytes)

def decodeWide (width shorter : ℕ) : Decoder UInt64 := do
  let value ← readBe width
  ensure (¬ value ≤ shorter) .NonCanonicalInteger
  pure (UInt64.ofNat value)

def decodeArgument (additional : ℕ) : Decoder UInt64 :=
  if additional ≤ 23 then pure (UInt64.ofNat additional)
  else match additional with
    | 24 => decodeWide 1 23
    | 25 => decodeWide 2 0xff
    | 26 => decodeWide 4 0xffff
    | 27 => decodeWide 8 0xffffffff
    | _ => fail .UnsupportedType

/-- `checked_len` (`usize` has 64 bits), and the bound by what was received. -/
def decodeLength (additional : ℕ) : Decoder ℕ := do
  let len ← decodeArgument additional
  need .UnexpectedEnd len.toNat
  pure len.toNat

def unsignedKey : Value → Option UInt64
  | .u64 key => some key
  | _ => none

def decodeSimple (additional : ℕ) : Decoder Value :=
  match additional with
  | 20 => pure (.bool false)
  | 21 => pure (.bool true)
  | 22 => pure .null
  | 27 => do
    let bits ← readBe 8
    pure (.f64 (UInt64.ofNat bits))
  | _ => fail .UnsupportedType

section
variable (place : UInt64 → Value → Entries → Entries)

/-- `len` entries are added to the map by `place`. -/
def decodeEntries (decode : Decoder Value) : ℕ → Entries → Decoder Entries
  | 0, map => pure map
  | len + 1, map => do
    let key ← decode
    let key ← require .ExpectedUnsignedMapKey (unsignedKey key)
    let value ← decode
    ensure (¬ key ∈ map.map Prod.fst) .DuplicateMapKey
    decodeEntries decode len (place key value map)

def decodeMajor (decode : Decoder Value) (major additional : ℕ) : Decoder Value :=
  match major with
  | 0 => do
    let value ← decodeArgument additional
    pure (.u64 value)
  | 1 => do
    let encoded ← decodeArgument additional
    ensure (encoded.toNat < 2 ^ 63) .LengthTooLarge
    pure (.i64 (Int64.ofInt (-1 - encoded.toNat)))
  | 2 => do
    let len ← decodeLength additional
    let bytes ← take .UnexpectedEnd len
    pure (.bytes bytes)
  | 3 => do
    let len ← decodeLength additional
    let bytes ← take .UnexpectedEnd len
    let text ← require .InvalidUtf8 (String.fromUTF8? ⟨⟨bytes⟩⟩)
    pure (.text text)
  | 4 => do
    let len ← decodeLength additional
    let items ← times decode len
    pure (.array items)
  | 5 => do
    let len ← decodeLength additional
    let map ← decodeEntries place decode len []
    pure (.map map)
  | 7 => decodeSimple additional
  | _ => fail .UnsupportedType

/-- `levels` is what is left of the 65 that the depth limit admits. -/
def decodeValueAt : ℕ → Decoder Value
  | 0 => fail .LengthTooLarge
  | levels + 1 => do
    let initial ← readBe 1
    decodeMajor place (decodeValueAt levels) (initial / 32) (initial % 32)

end

def decodeValue : Decoder Value := decodeValueAt insertEntry 65

def complete (decode : Decoder Value) (bytes : Str) : Except CborError Value := do
  let (value, rest) ← decode bytes
  if rest = [] then pure value else .error .TrailingBytes

def decode (bytes : Str) : Except CborError Value := complete decodeValue bytes

end Rieul.Cbor
