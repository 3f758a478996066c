import Rieul.Web.Cbor

/-!
# The browser's CBOR decoder (web/src/protocol/cbor.ts)

It reads safe integers only, and does not ask for the shortest form of an
argument. A map keeps its entries in the order in which they were set.
-/

namespace Rieul.Web
open Bytes Fallible Rieul.Cbor

abbrev CborReader := Reader UInt8 Thrown

/-- `Number.MAX_SAFE_INTEGER` as a natural number. -/
def maxSafe : ℕ := 9007199254740991

/-- `len` bytes, the most significant first. -/
def readFixedUint (len : ℕ) : CborReader ℕ := do
  let bytes ← Reader.take .ended len
  pure (beNat bytes)

def readU64AsU53 : CborReader ℕ := do
  let high ← readFixedUint 4
  let low ← readFixedUint 4
  Reader.ensure (¬ 0x1fffff < high) .integer
  Reader.ensure (¬ maxSafe < high * 2 ^ 32 + low) .integer
  pure (high * 2 ^ 32 + low)

def readArg (additional : ℕ) : CborReader ℕ :=
  if additional < 24 then pure additional
  else match additional with
    | 24 => readFixedUint 1
    | 25 => readFixedUint 2
    | 26 => readFixedUint 4
    | 27 => readU64AsU53
    | _ => Reader.fail .unsupported

def readNegativeArg (additional : ℕ) : CborReader ℕ := do
  let value ← readArg additional
  Reader.ensure (¬ maxSafe - 1 < value) .integer
  pure value

def readLength (additional : ℕ) : CborReader ℕ := do
  let len ← readArg additional
  Reader.need .ended len
  pure len

def mapKey : CborValue → Option ℤ
  | .number n => if IsSafeInteger n ∧ 0 ≤ n then some n else none
  | _ => none

def decodeMap (decode : CborReader CborValue) :
    ℕ → List (ℤ × CborValue) → CborReader (List (ℤ × CborValue))
  | 0, map => pure map
  | len + 1, map => do
    let key ← decode
    let key ← Reader.require .key (mapKey key)
    Reader.ensure (¬ key ∈ map.map Prod.fst) .duplicate
    let item ← decode
    decodeMap decode len (map ++ [(key, item)])

def decodeSimple (additional : ℕ) : CborReader CborValue :=
  match additional with
  | 20 => pure (.boolean false)
  | 21 => pure (.boolean true)
  | 22 => pure .null
  | 27 => do
    let bits ← readFixedUint 8
    Reader.ensure (IsFinite (UInt64.ofNat bits)) .nonFinite
    pure (.f64 (UInt64.ofNat bits))
  | _ => Reader.fail .unsupported

def decodeMajor (decode : CborReader CborValue) (major additional : ℕ) : CborReader CborValue :=
  match major with
  | 0 => do
    let value ← readArg additional
    pure (.number value)
  | 1 => do
    let value ← readNegativeArg additional
    pure (.number (-1 - value))
  | 2 => do
    let len ← readLength additional
    let bytes ← Reader.take .ended len
    pure (.bytes bytes)
  | 3 => do
    let len ← readLength additional
    let bytes ← Reader.take .ended len
    let text ← Reader.require .text (decodeText bytes).toOption
    pure (.string text)
  | 4 => do
    let len ← readLength additional
    let items ← Reader.times decode len
    pure (.array items)
  | 5 => do
    let len ← readLength additional
    let map ← decodeMap decode len []
    pure (.map map)
  | 7 => decodeSimple additional
  | _ => Reader.fail .unsupported

/-- `levels` is what is left of the 65 that the nesting limit admits. -/
def decodeAt : ℕ → CborReader CborValue
  | 0 => Reader.fail .nesting
  | levels + 1 => do
    let initial ← readFixedUint 1
    decodeMajor (decodeAt levels) (initial / 32) (initial % 32)

def decodeCbor (bytes : Str) : Checked CborValue := do
  let (value, rest) ← decodeAt 65 bytes
  if rest = [] then pure value else .error .trailing

theorem utf8EncodeChar_mark (c : Char) (r s : Str)
    (h : String.utf8EncodeChar c ++ r = byteOrderMark ++ s) : c = '\uFEFF' := by
  apply Char.ext
  apply UInt32.toNat_inj.mp
  have hc := c.val.toNat_lt
  unfold String.utf8EncodeChar byteOrderMark at h
  dsimp only at h
  split_ifs at h with h1 h2 h3
  all_goals
    simp only [List.cons_append, List.nil_append, List.cons.injEq] at h
  · have hb := congrArg UInt8.toNat h.1
    rw [UInt8.toNat_ofNat'] at hb
    change _ = 239 at hb
    omega
  · have hb := congrArg UInt8.toNat h.1
    rw [UInt8.toNat_ofNat'] at hb
    change _ = 239 at hb
    omega
  · have hb := congrArg UInt8.toNat h.1
    have hm := congrArg UInt8.toNat h.2.1
    have hl := congrArg UInt8.toNat h.2.2.1
    rw [UInt8.toNat_ofNat'] at hb hm hl
    change _ = 239 at hb
    change _ = 187 at hm
    change _ = 191 at hl
    change _ = 65279
    omega
  · have hb := congrArg UInt8.toNat h.1
    rw [UInt8.toNat_ofNat'] at hb
    change _ = 239 at hb
    omega

end Rieul.Web
