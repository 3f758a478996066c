import Mathlib.Algebra.GroupWithZero.Nat
import Mathlib.Data.Finset.Erase
import Mathlib.Data.Finset.Filter
import Mathlib.Data.Finset.Insert
import Mathlib.Data.List.AList
import Mathlib.Data.List.Sort
import Rieul.Lib.Stateful

/-!
# Attachments and control (daemon/host/src/desktop.rs)

At most one attachment holds control. Its frames press keys and buttons through
the input adapter; `keys` and `buttons` record what may be held, and control
changes hands only over a release of everything.
-/

namespace Rieul.Screen
open Stateful

/-- What of an `f64` the code looks at. -/
inductive F64 where
  | finite (value : Rat)
  | infinite (negative : Bool)
  | nan

def F64.beq : F64 → F64 → Bool
  | .finite a, .finite b => a == b
  | .infinite a, .infinite b => a == b
  | _, _ => false

instance : BEq F64 := ⟨F64.beq⟩

/-- `is_finite`, with the value. -/
def F64.finite? : F64 → Option Rat
  | .finite a => some a
  | _ => none

structure DesktopRect where
  x : Int
  y : Int
  width : ℕ
  height : ℕ
  deriving BEq

structure DesktopViewport where
  viewportId : String
  displayId : String
  crop : DesktopRect
  width : ℕ
  height : ℕ
  fps : ℕ
  bitrate : ℕ

inductive DesktopWheelUnit where
  | Pixels | Lines | Pages

inductive DesktopInputEvent where
  | PhysicalKey (usage : ℕ) (down repeats : Bool)
  | TextCommit (text : String)
  | Composition (text : String) (selectionStart selectionEnd : ℕ)
  | AbsolutePointer (viewportId : String) (x y : F64)
  | RelativePointer (dx dy : F64)
  | Button (viewportId : String) (x y : F64) (button : ℕ) (down : Bool)
  | Wheel (viewportId : String) (x y dx dy : F64) (unit : DesktopWheelUnit)
  | ReleaseAll
  | Feedback (trackId codecEpoch groupId decodeMicros renderMicros queueDepth : ℕ)
      (requestKeyframe : Bool) (objectId : Option ℕ)

structure DesktopInputFrame where
  attachId : String
  inputEpoch : ℕ
  sequence : ℕ
  layoutEpoch : ℕ
  event : DesktopInputEvent

inductive DesktopKeyboardMode where
  | Physical | Text
  deriving DecidableEq

inductive DesktopControlAction where
  | Acquire | Release | Takeover
  deriving DecidableEq

inductive Error where
  | Unauthorized | NotFound | Busy | Stale | Invalid | Unsupported | HelperUnavailable
  | HelperAuthentication | Limit | Backend
  deriving DecidableEq

inductive Pressed where
  | key (usage : ℕ)
  | button (button : ℕ)
  deriving DecidableEq

abbrev Held := Finset (Pressed × String)

def Held.press (held : Held) (p : Pressed) (attachId : String) (down : Bool) : Held :=
  if down then insert (p, attachId) held else held.filter (·.1 ≠ p)

/-- What an event of a frame of `attachId` changes at the machine. -/
def DesktopInputEvent.effect (event : DesktopInputEvent) (attachId : String) (held : Held) : Held :=
  match event with
  | .PhysicalKey usage down _ => held.press (.key usage) attachId down
  | .Button _ _ _ button down => held.press (.button button) attachId down
  | .ReleaseAll => ∅
  | _ => held

inductive SendResult where
  | sent
  | failed (effective : Bool)
  deriving DecidableEq

/-- The adapter answers from an arbitrary script. Its generation changes when the helper's channel
is lost; until the next recovery it is not ready. -/
structure Adapter where
  script : ℕ → SendResult
  held : Held
  log : List (DesktopInputEvent × SendResult)
  generation : ℕ
  ready : Bool

def Adapter.send (a : Adapter) (event : DesktopInputEvent) (attachId : String) : Bool × Adapter :=
  let result := a.script a.log.length
  let log := a.log ++ [(event, result)]
  match result with
  | .sent => (true, { a with held := event.effect attachId a.held, log := log })
  | .failed effective => (false, { a with
      held := if effective then event.effect attachId a.held else a.held
      log := log })

def maxSafe : ℕ := 9007199254740991

def leaseMs : ℕ := 15000

def maxViewports : ℕ := 8

/-- `saturating_add` of `u64`. -/
def saturatingAdd (a b : ℕ) : ℕ := min (a + b) (2 ^ 64 - 1)

structure Attachment where
  profile : ℕ
  connection : ℕ
  keyboardMode : DesktopKeyboardMode
  client : String
  deadline : ℕ
  sequence : ℕ
  viewports : AList (fun _ : String => DesktopViewport)
  serverViewports : Bool

structure Desktop where
  input : Adapter
  attachments : AList (fun _ : String => Attachment)
  holder : Option String
  epoch : ℕ
  nextId : ℕ
  layoutEpoch : ℕ
  keys : Finset ℕ
  buttons : Finset ℕ
  poisoned : Bool
  backendGeneration : ℕ

abbrev Call := Op Desktop Error

abbrev Auth := String → Bool

def Desktop.update (d : Desktop) (id : String) (f : Attachment → Attachment) : Desktop :=
  match d.attachments.lookup id with
  | some a => { d with attachments := d.attachments.replace id (f a) }
  | none => d

/-- The attachments with `p`, in the order of their ids. -/
def Desktop.ids (d : Desktop) (p : Attachment → Bool) : List String :=
  (d.attachments.keys.filter fun id => (d.attachments.lookup id).any p).insertionSort (· ≤ ·)

/-- A send of an event of `attachId`. -/
def send (event : DesktopInputEvent) (attachId : String) : Op Desktop Error Bool := do
  let d ← get
  modify fun d => { d with input := (d.input.send event attachId).2 }
  pure (d.input.send event attachId).1

def releaseHeld : Call Unit := do
  let sent ← send .ReleaseAll ""
  if sent then modify fun d => { d with keys := ∅, buttons := ∅ }
  else do
    modify fun d => { d with poisoned := true }
    throw .Backend

def release : Call Unit := do
  modify fun d => { d with holder := none }
  let d ← get
  if d.epoch + 1 ≤ maxSafe then do
    modify fun d => { d with epoch := d.epoch + 1 }
    releaseHeld
  else do
    modify fun d => { d with poisoned := true }
    throw .Limit

/-- A release when `id` holds control. -/
def releaseOf (id : String) : Call Unit := do
  let d ← get
  if d.holder = some id then release else pure ()

def remove (id : String) : Call Unit := do
  let d ← get
  ensure (d.poisoned = false) .Backend
  releaseOf id
  modify fun d => { d with attachments := d.attachments.erase id }

def expire (auth : Auth) (now : ℕ) : Call Unit := do
  let d ← get
  forM (d.ids fun a => a.deadline ≤ now || !auth a.client) remove

def disconnect (connection : ℕ) : Call Unit := do
  let d ← get
  forM (d.ids fun a => a.connection = connection) remove

/-- `admitted` is the answer of the work gate. -/
def attach (auth : Auth) (admitted : Bool) (connection : ℕ) (client : String)
    (keyboardMode : DesktopKeyboardMode) (now : ℕ) : Call String := do
  expire auth now
  ensure (auth client) .Unauthorized
  let d ← get
  ensure (d.poisoned = false) .Backend
  ensure (d.attachments.entries.length < 16) .Limit
  ensure admitted .Busy
  ensure (d.nextId + 1 ≤ maxSafe) .Limit
  let id := "desktop-" ++ toString (d.nextId + 1)
  modify fun d => { d with
    nextId := d.nextId + 1
    attachments := d.attachments.insert id
      ⟨1, connection, keyboardMode, client, saturatingAdd now leaseMs, 0, ∅, false⟩ }
  pure id

def authorize (auth : Auth) (connection : ℕ) (id : String) (now : ℕ) : Call Attachment := do
  expire auth now
  let d ← get
  let a ← require .NotFound (d.attachments.lookup id)
  ensure (a.connection = connection) .Unauthorized
  ensure (d.poisoned = false) .Backend
  pure a

def detach (auth : Auth) (connection : ℕ) (id : String) (now : ℕ) : Call Unit := do
  let _ ← authorize auth connection id now
  remove id

def renew (auth : Auth) (connection : ℕ) (id : String) (now : ℕ) : Call Unit := do
  let _ ← authorize auth connection id now
  modify fun d => d.update id fun a => { a with deadline := saturatingAdd now leaseMs }

def acquire (id : String) : Call Unit := do
  release
  modify fun d => { d with holder := some id }

def setControl (auth : Auth) (connection : ℕ) (id : String) (now : ℕ)
    (action : DesktopControlAction) : Call Unit := do
  let _ ← authorize auth connection id now
  let d ← get
  match action with
  | .Release => releaseOf id
  | .Acquire | .Takeover =>
    if d.holder = some id then pure ()
    else do
      ensure (¬ (d.holder.isSome ∧ action = .Acquire)) .Busy
      acquire id

def viewportValid (v : DesktopViewport) : Bool :=
  ¬ (v.viewportId = "" ∨ 128 < v.viewportId.utf8ByteSize ∨ 128 < v.displayId.utf8ByteSize ∨
    v.width = 0 ∨ v.height = 0 ∨ 8192 < v.width ∨ 8192 < v.height ∨ v.fps = 0 ∨ 120 < v.fps ∨
      v.bitrate = 0 ∨ v.crop.width = 0 ∨ v.crop.height = 0)

def collectViewports : List DesktopViewport → AList (fun _ : String => DesktopViewport) → ℕ →
    Except Error (AList (fun _ : String => DesktopViewport) × ℕ)
  | [], next, total => .ok (next, total)
  | v :: rest, next, total =>
    if ¬ viewportValid v then .error .Invalid
    else if 2 ^ 64 ≤ total + v.bitrate then .error .Limit
    else if v.viewportId ∈ next then .error .Invalid
    else collectViewports rest (next.insert v.viewportId v) (total + v.bitrate)

def configure (auth : Auth) (connection : ℕ) (id : String) (now epoch : ℕ)
    (viewports : List DesktopViewport) (budget : ℕ) : Call Unit := do
  let _ ← authorize auth connection id now
  let d ← get
  ensure (epoch = d.layoutEpoch) .Stale
  ensure (¬ (maxViewports < viewports.length ∨ budget = 0 ∨ 100000000 < budget)) .Limit
  match collectViewports viewports ∅ 0 with
  | .error e => throw e
  | .ok (next, total) => do
    ensure (total ≤ budget) .Limit
    modify fun d => d.update id fun a => { a with viewports := next }

def clearViewports (attachments : AList (fun _ : String => Attachment)) :
    AList (fun _ : String => Attachment) :=
  attachments.keys.foldl (fun as id => match as.lookup id with
    | some a => as.replace id { a with viewports := ∅ }
    | none => as) attachments

def layoutChanged : Call Unit := do
  let d ← get
  ensure (d.layoutEpoch + 1 ≤ maxSafe) .Limit
  modify fun d => { d with
    layoutEpoch := d.layoutEpoch + 1
    attachments := clearViewports d.attachments }

def DesktopInputEvent.point : DesktopInputEvent → Option (String × F64 × F64)
  | .AbsolutePointer viewportId x y => some (viewportId, x, y)
  | .Button viewportId x y _ true => some (viewportId, x, y)
  | .Wheel viewportId x y _ _ _ => some (viewportId, x, y)
  | _ => none

def DesktopViewport.contains (v : DesktopViewport) (x y : F64) : Bool :=
  match x.finite?, y.finite? with
  | some x, some y => ¬ (x < 0 ∨ y < 0 ∨ (v.width : Rat) ≤ x ∨ (v.height : Rat) ≤ y)
  | _, _ => false

def wheelValid (d : F64) : Bool :=
  match d.finite? with
  | some d => ¬ (100000 < d ∨ d < -100000)
  | none => false

def Desktop.record (d : Desktop) (p : Pressed) (down : Bool) : Desktop :=
  match p with
  | .key usage => { d with keys := if down then insert usage d.keys else d.keys.erase usage }
  | .button button =>
    { d with buttons := if down then insert button d.buttons else d.buttons.erase button }

def admitEvent (keyboardMode : DesktopKeyboardMode) (event : DesktopInputEvent) : Call Unit := do
  let d ← get
  match event with
  | .PhysicalKey usage down repeats => do
    ensure (¬ (keyboardMode = .Text ∧ ¬ (224 ≤ usage ∧ usage ≤ 231) ∨ ¬ (4 ≤ usage ∧ usage ≤ 231) ∨
      repeats ∧ (down = false ∨ usage ∉ d.keys))) .Invalid
    modify fun d => d.record (.key usage) down
  | .Button _ _ _ button down => do
    ensure (1 ≤ button ∧ button ≤ 5) .Invalid
    modify fun d => d.record (.button button) down
  | .TextCommit text =>
    ensure (¬ (keyboardMode ≠ .Text ∨ 4096 < text.utf8ByteSize ∨ '\x00' ∈ text.toList ∨
      d.keys ≠ ∅)) .Invalid
  | .Composition .. | .RelativePointer .. => throw .Unsupported
  | .Wheel _ _ _ dx dy _ => ensure (wheelValid dx ∧ wheelValid dy) .Invalid
  | .Feedback .. => throw .Unsupported
  | .ReleaseAll => modify fun d => { d with keys := ∅, buttons := ∅ }
  | .AbsolutePointer .. => pure ()

def admitPoint (a : Attachment) (layoutEpoch : ℕ) (event : DesktopInputEvent) : Call Unit := do
  let d ← get
  match event.point with
  | none => pure ()
  | some (viewportId, x, y) => do
    ensure (layoutEpoch = d.layoutEpoch) .Stale
    let v ← require .Invalid (a.viewports.lookup viewportId)
    ensure (v.contains x y) .Invalid

def deliver (keyboardMode : DesktopKeyboardMode) (event : DesktopInputEvent) (attachId : String) :
    Call Unit := do
  admitEvent keyboardMode event
  let sent ← send event attachId
  if sent then pure ()
  else do
    attempt release
    throw .Backend

def input (auth : Auth) (connection now : ℕ) (frame : DesktopInputFrame) : Call Unit := do
  let a ← authorize auth connection frame.attachId now
  let d ← get
  ensure (d.holder = some frame.attachId ∧ frame.inputEpoch = d.epoch) .Stale
  ensure (frame.sequence = a.sequence + 1 ∧ frame.sequence ≤ maxSafe) .Stale
  -- The sequence is consumed also when the event is rejected.
  modify fun d => d.update frame.attachId fun a => { a with sequence := frame.sequence }
  admitPoint a frame.layoutEpoch frame.event
  deliver a.keyboardMode frame.event frame.attachId

end Rieul.Screen
