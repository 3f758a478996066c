import Rieul.Codegen.Rust
import Rieul.Codegen.TypeScript
import Rieul.Web.CborDecode

/-!
# Desktop groups (daemon/core/src/desktop_transport.rs, web/src/protocol/desktop-media.ts)

A stream carries one group: a big-endian length and an object, again and again. The
daemon's validator is given one object after the other, the browser reads the
chunks of the stream.
-/

namespace Rieul.Screen.Transport
open Bytes Fallible Rieul.Cbor
open Rieul.Codegen.Rust (CodecError expectU64 expectText expectBool expectBytes)
open Rieul.Web (CborValue Thrown decodeCbor)

def maxObject : ℕ := 4 * 1024 * 1024
def maxGroupBytes : ℕ := 16 * 1024 * 1024
def maxGroupObjects : ℕ := 240

structure DesktopMediaObject where
  attachId : String
  trackId : UInt64
  layoutEpoch : UInt64
  codecEpoch : UInt64
  groupId : UInt64
  objectId : UInt64
  timestampMicros : UInt64
  keyframe : Bool
  data : Str

def expectMap : Value → Except CodecError Entries
  | .map fields => .ok fields
  | _ => .error .ExpectedMap

def fieldOrDefault {α : Type} (value : Option Value) (decode : Value → Except CodecError α)
    (default : α) : Except CodecError α :=
  match value with
  | some value => decode value
  | none => .ok default

def DesktopMediaObject.decodeValue (value : Value) : Except CodecError DesktopMediaObject := do
  let fields ← expectMap value
  let attachId ← fieldOrDefault (fields.lookup 1) expectText ""
  let trackId ← fieldOrDefault (fields.lookup 2) expectU64 0
  let layoutEpoch ← fieldOrDefault (fields.lookup 3) expectU64 0
  let codecEpoch ← fieldOrDefault (fields.lookup 4) expectU64 0
  let groupId ← fieldOrDefault (fields.lookup 5) expectU64 0
  let objectId ← fieldOrDefault (fields.lookup 6) expectU64 0
  let timestampMicros ← fieldOrDefault (fields.lookup 7) expectU64 0
  let keyframe ← fieldOrDefault (fields.lookup 8) expectBool false
  let data ← fieldOrDefault (fields.lookup 9) expectBytes []
  pure ⟨attachId, trackId, layoutEpoch, codecEpoch, groupId, objectId, timestampMicros, keyframe, data⟩

def DesktopMediaObject.decode (bytes : Str) : Except CodecError DesktopMediaObject :=
  match Cbor.decode bytes with
  | .ok value => decodeValue value
  | .error e => .error (.Cbor e)

inductive Error where
  | Limit
  | Malformed
  | Truncated
  | Discontinuity

structure Group where
  attach : String
  track : UInt64
  layout : UInt64
  codec : UInt64
  group : UInt64
  nextObject : ℕ
  bytes : ℕ
  timestamp : Option UInt64
  failed : Bool

def Group.new (attach : String) (track layout codec group : UInt64) : Group :=
  ⟨attach, track, layout, codec, group, 0, 0, none, false⟩

def Group.Continues (g : Group) (o : DesktopMediaObject) : Prop :=
  ¬ (o.attachId ≠ g.attach ∨ o.trackId ≠ g.track ∨ o.layoutEpoch ≠ g.layout ∨
    o.codecEpoch ≠ g.codec ∨ o.groupId ≠ g.group ∨ o.objectId.toNat ≠ g.nextObject ∨
    (decide (o.objectId = 0) ≠ o.keyframe) ∨ (∃ t ∈ g.timestamp, o.timestampMicros < t) ∨
    o.data = [])

instance (g : Group) (o : DesktopMediaObject) : Decidable (g.Continues o) := by
  unfold Group.Continues
  infer_instance

/-- The closure in `accept`: the group as it is left, and the result. -/
def Group.check (g : Group) (encoded : Str) : Group × Except Error DesktopMediaObject :=
  if g.bytes + encoded.length < 2 ^ 64 then
    let g := { g with bytes := g.bytes + encoded.length }
    if encoded.length > maxObject ∨ g.bytes > maxGroupBytes ∨ g.nextObject ≥ maxGroupObjects then
      (g, .error .Limit)
    else
      match DesktopMediaObject.decode encoded with
      | .error _ => (g, .error .Malformed)
      | .ok o =>
        if g.Continues o then
          ({ g with nextObject := g.nextObject + 1, timestamp := some o.timestampMicros }, .ok o)
        else (g, .error .Discontinuity)
  else (g, .error .Limit)

def Group.accept (g : Group) (encoded : Str) : Group × Except Error DesktopMediaObject :=
  if g.failed then (g, .error .Discontinuity)
  else
    match g.check encoded with
    | (g, .ok o) => (g, .ok o)
    | (g, .error e) => ({ g with failed := true }, .error e)

def Group.feed (g : Group) : List Str → List (Except Error DesktopMediaObject)
  | [] => []
  | encoded :: rest => (g.accept encoded).2 :: (g.accept encoded).1.feed rest

def frame (body : Str) : Str := beBytes 4 body.length ++ body

structure MediaObject where
  attachId : String
  trackId : ℤ
  layoutEpoch : ℤ
  codecEpoch : ℤ
  groupId : ℤ
  objectId : ℤ
  timestampMicros : ℤ
  keyframe : Bool
  data : Str
  deriving DecidableEq

structure DesktopTrackEpoch where
  attachId : String
  trackId : ℤ
  layoutEpoch : ℤ
  codecEpoch : ℤ

inductive Failure where
  | cbor (e : Thrown)
  | codec (message : String)
  | error (message : String)

section
open Rieul.Codegen (TypeScript.Failure)

def emitted {α : Type} : Except TypeScript.Failure α → Except Failure α
  | .ok a => .ok a
  | .error (.thrown message) => .error (.codec message)
  | .error _ => .error (.codec "")

end

/-- `fieldOrDefault(fields.get(id), decode, default)`. -/
def mediaField {α : Type} (value : Option CborValue)
    (decode : CborValue → Except Codegen.TypeScript.Failure α) (default : α) : Except Failure α :=
  match value with
  | some value => emitted (decode value)
  | none => .ok default

def decodeDesktopMediaObjectValue : CborValue → Except Failure MediaObject
  | .map fields => do
    let attachId ← mediaField (fields.lookup 1) Codegen.TypeScript.textValue ""
    let trackId ← mediaField (fields.lookup 2) Codegen.TypeScript.integer 0
    let layoutEpoch ← mediaField (fields.lookup 3) Codegen.TypeScript.integer 0
    let codecEpoch ← mediaField (fields.lookup 4) Codegen.TypeScript.integer 0
    let groupId ← mediaField (fields.lookup 5) Codegen.TypeScript.integer 0
    let objectId ← mediaField (fields.lookup 6) Codegen.TypeScript.integer 0
    let timestampMicros ← mediaField (fields.lookup 7) Codegen.TypeScript.integer 0
    let keyframe ← mediaField (fields.lookup 8) Codegen.TypeScript.boolValue false
    let data ← mediaField (fields.lookup 9) Codegen.TypeScript.bytesValue []
    pure ⟨attachId, trackId, layoutEpoch, codecEpoch, groupId, objectId, timestampMicros, keyframe,
      data⟩
  | _ => .error (.codec "expected CBOR map")

/-- `decodeDesktopMediaObjectValue(decodeCbor(body))`. -/
def readObject (body : Str) : Except Failure MediaObject :=
  match decodeCbor body with
  | .ok value => decodeDesktopMediaObjectValue value
  | .error e => .error (.cbor e)

structure Source where
  chunk : Str
  chunks : List Str

/-- The loop of `read`: `written` bytes are there and `length` more are asked for. The outcome is
`none` where the stream has ended. -/
def fill (written chunk : Str) (length : ℕ) : List Str → Option (Str × Source)
  | [] =>
    if length ≤ chunk.length then some (written ++ chunk.take length, ⟨chunk.drop length, []⟩)
    else none
  | next :: chunks =>
    if length ≤ chunk.length then
      some (written ++ chunk.take length, ⟨chunk.drop length, next :: chunks⟩)
    else fill (written ++ chunk) next (length - chunk.length) chunks

def truncated : Failure := .error "Truncated screen group"

/-- `read(length, allowEof)`; without a result at the end of the stream if that is allowed. -/
def Source.read (s : Source) (length : ℕ) (allowEof : Bool) : Except Failure (Option (Str × Source)) :=
  match fill [] s.chunk length s.chunks with
  | some r => .ok (some r)
  | none =>
    -- nothing has been written when the end comes
    if allowEof ∧ s.chunk = [] ∧ (∀ c ∈ s.chunks, c = []) then .ok none else .error truncated

structure Reading where
  source : Source
  total : ℕ
  count : ℕ
  group : Option ℤ
  timestamp : ℤ
  resolved : Option DesktopTrackEpoch

def Reading.Discontinuous (r : Reading) (resolved : DesktopTrackEpoch) (o : MediaObject) : Prop :=
  o.attachId ≠ resolved.attachId ∨ o.trackId ≠ resolved.trackId ∨
    o.layoutEpoch ≠ resolved.layoutEpoch ∨ o.codecEpoch ≠ resolved.codecEpoch ∨
    o.objectId ≠ r.count ∨ o.keyframe ≠ decide (r.count = 0) ∨ (∃ g ∈ r.group, o.groupId ≠ g) ∨
    o.timestampMicros < r.timestamp ∨ o.data = []

instance (r : Reading) (resolved : DesktopTrackEpoch) (o : MediaObject) :
    Decidable (r.Discontinuous resolved o) := by
  unfold Reading.Discontinuous
  infer_instance

/-- One pass of the loop: an object and the locals after it, or `none` when the group is complete.
An `expected` that is no function has been resolved from the start. -/
def Reading.next (expected : MediaObject → Option DesktopTrackEpoch) (r : Reading) :
    Except Failure (Option (MediaObject × Reading)) := do
  match ← r.source.read 4 true with
  | none => do
    ensure (r.count ≠ 0) (.error "Empty screen group")
    pure none
  | some (header, source) => do
    let length := beNat header
    let total := r.total + length
    ensure (¬ (length = 0 ∨ length > maxObject ∨ total > maxGroupBytes ∨ r.count ≥ 240))
      (.error "Screen media limit exceeded")
    let (body, source) ← require truncated (← source.read length false)
    let object ← readObject body
    let resolved ← require (.error "Unknown screen media track") (r.resolved.or (expected object))
    ensure (¬ r.Discontinuous resolved object) (.error "Screen group discontinuity")
    pure (some (object, {
      source := source
      total := total
      count := r.count + 1
      group := some object.groupId
      timestamp := object.timestampMicros
      resolved := some resolved }))

def Reading.run (expected : MediaObject → Option DesktopTrackEpoch) : ℕ → Reading → List MediaObject
  | 0, _ => []
  | passes + 1, r =>
    match r.next expected with
    | .ok (some (object, r)) => object :: r.run expected passes
    | .ok none => []
    | .error _ => []

def Reading.start (chunks : List Str) (resolved : Option DesktopTrackEpoch) : Reading :=
  ⟨⟨[], chunks⟩, 0, 0, none, 0, resolved⟩

def readDesktopGroup (chunks : List Str) (expected : MediaObject → Option DesktopTrackEpoch)
    (resolved : Option DesktopTrackEpoch) : List MediaObject :=
  (Reading.start chunks resolved).run expected (maxGroupObjects + 1)

end Rieul.Screen.Transport
