import Rieul.Lib.Bytes
import Rieul.Lib.Scan

/-!
# Stripe bundles (daemon/core/src/desktop_stripe.rs, web/src/protocol/desktop-stripe.ts)

A desktop frame in horizontal stripes: one record for each stripe that has new
data. The daemon writes and checks a bundle, the browser reads it again with a
parser of its own.
-/

namespace Rieul.Screen.Stripe
open Bytes Scan

def maxStripes : ℕ := 2
def maxBundle : ℕ := 4 * 1024 * 1024

/-- `RS`, version 2. -/
def magic : Str := [82, 83, 2]

/-- `usize::checked_add`. -/
def checkedAdd (a b : ℕ) : Option ℕ := if a + b < 2 ^ 64 then some (a + b) else none

structure Packet where
  index : UInt8
  keyframe : Bool
  data : Str

/-- The body of the loop of `decode`: the offset and the packets so far. -/
def decodePacket (data : Str) (stripes : ℕ) (first : Bool) (s : ℕ × List Packet) :
    Option (ℕ × List Packet) := do
  let index ← data[s.1]?
  let flags ← data[s.1 + 1]?
  guard (¬ (index.toNat ≥ stripes ∨ flags > 1 ∨ (first ∧ flags ≠ 1) ∨
    ∃ p ∈ s.2.getLast?, p.index ≥ index))
  let raw ← range data (s.1 + 2) (s.1 + 6)
  let length := beNat raw
  let offset := s.1 + 6
  guard (length ≠ 0)
  let stop ← checkedAdd offset length
  let bytes ← range data offset stop
  -- Annex B, never a shared avcC
  guard ([0, 0, 0, 1] <+: bytes ∨ [0, 0, 1] <+: bytes)
  some (stop, s.2 ++ [⟨index, flags = 1, bytes⟩])

def decode (data : Str) (stripes : ℕ) (first : Bool) : Option (List Packet) := do
  guard (¬ (¬ (1 ≤ stripes ∧ stripes ≤ maxStripes) ∨ data.length > maxBundle ∨
    range data 0 3 ≠ some magic))
  let head ← data[3]?
  let count := head.toNat
  guard (¬ (count = 0 ∨ count > stripes ∨ (first ∧ count ≠ stripes)))
  let (offset, packets) ← loop (decodePacket data stripes first) count (4, [])
  guard (offset = data.length)
  some packets

/-- `u8::from(p.keyframe)`. -/
def flag (keyframe : Bool) : UInt8 := if keyframe then 1 else 0

def encodePacket (p : Packet) : Str :=
  [p.index, flag p.keyframe] ++ beBytes 4 (p.data.length % 2 ^ 32) ++ p.data

def encode (packets : List Packet) (stripes : ℕ) (first : Bool) : Option Str := do
  guard (¬ (packets = [] ∨ packets.length > maxStripes))
  let size ← packets.foldlM (fun sum p => do
    let sum ← checkedAdd sum 6
    checkedAdd sum p.data.length) 4
  guard (¬ size > maxBundle)
  let bytes := magic ++ [UInt8.ofNat packets.length] ++ packets.flatMap encodePacket
  let _ ← decode bytes stripes first
  some bytes

structure StripePacket where
  index : ℕ
  keyframe : Bool
  data : Str

/-- What the loop of `decodeStripeBundle` carries. -/
structure Stripes where
  offset : ℕ
  previous : ℤ
  packets : List StripePacket

/-- `bytes.subarray(start, stop)`. -/
def subarray (bytes : Str) (start stop : ℕ) : Str := (bytes.drop start).take (stop - start)

def decodeStripe (bytes : Str) (count : ℕ) (first : Bool) (s : Stripes) : Option Stripes := do
  guard (¬ s.offset + 6 > bytes.length)
  let index ← bytes[s.offset]?
  let flags ← bytes[s.offset + 1]?
  let length := beNat (subarray bytes (s.offset + 2) (s.offset + 6))
  let offset := s.offset + 6
  guard (¬ ((index.toNat : ℤ) ≤ s.previous ∨ index.toNat ≥ count ∨ flags > 1 ∨
    (first ∧ flags ≠ 1) ∨ length = 0 ∨ offset + length > bytes.length))
  let data := subarray bytes offset (offset + length)
  guard (data[0]? = some 0 ∧ data[1]? = some 0 ∧
    (data[2]? = some 1 ∨ (data[2]? = some 0 ∧ data[3]? = some 1)))
  some ⟨offset + length, index.toNat, s.packets ++ [⟨index.toNat, flags = 1, data⟩]⟩

def decodeStripeBundle (bytes : Str) (count : ℕ) (first : Bool) : Option (List StripePacket) := do
  guard (¬ (count < 1 ∨ count > 2 ∨ bytes.length < 4 ∨ bytes.length > 4 * 1024 * 1024 ∨
    bytes[0]? ≠ some 82 ∨ bytes[1]? ≠ some 83 ∨ bytes[2]? ≠ some 2))
  let head ← bytes[3]?
  let n := head.toNat
  guard (¬ (n = 0 ∨ n > count ∨ (first ∧ n ≠ count)))
  let s ← loop (decodeStripe bytes count first) n ⟨4, -1, []⟩
  guard (s.offset = bytes.length)
  some s.packets

end Rieul.Screen.Stripe
