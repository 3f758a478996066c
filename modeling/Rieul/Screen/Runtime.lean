import Mathlib.Logic.Function.Basic
import Rieul.Screen.Control

/-!
# The screen runtime (daemon/host/src/desktop.rs)

All controllers share one state machine. Every call is fenced by the generation
of the helper's channel; an input stream holds a guard that remembers the input
epoch at which it was opened.
-/

namespace Rieul.Screen
open Stateful

structure DesktopDisplay where
  displayId : String
  bounds : DesktopRect
  scale : F64
  dpi : F64
  deriving BEq

structure DesktopConfiguration where
  layoutEpoch : ℕ
  tracks : List (ℕ × ℕ)

inductive GuardPhase where
  | reading
  /-- Dropped without completion; its cleanup is still to run. -/
  | dropped
  /-- The first half of the cleanup has run. -/
  | cleaned

structure InputGuard where
  id : String
  epoch : ℕ
  phase : GuardPhase

structure Runtime where
  desktop : Desktop
  layoutDisplays : Option (List DesktopDisplay)
  configurations : AList (fun _ : String => DesktopConfiguration)
  nextCodecEpoch : ℕ
  streams : Finset String
  guards : ℕ → Option InputGuard

abbrev Work := Op Runtime Error

def onDesktop {α : Type} (x : Call α) : Work α :=
  zoom Runtime.desktop (fun r d => { r with desktop := d }) x

def Runtime.retain (r : Runtime) : Runtime :=
  let kept := r.configurations.keys.foldl
    (fun cs id => if id ∈ r.desktop.attachments then cs else cs.erase id) r.configurations
  { r with configurations := kept }

def mutate {α : Type} (x : Work α) : Work α := do
  let r ← get
  ensure (r.desktop.input.generation = r.desktop.backendGeneration) .Backend
  finish x Runtime.retain

def Adapter.lose (a : Adapter) (releases : Bool) : Adapter :=
  { a with generation := a.generation + 1, ready := false, held := if releases then ∅ else a.held }

/-- `Backend::recover`: a fresh helper's first request releases what its predecessor left. -/
def Adapter.recover (a : Adapter) (result : SendResult) : Except Error ℕ × Adapter :=
  match a.ready, result with
  | true, .sent => (.ok a.generation, a)
  | true, .failed _ => (.error .Backend, a)
  | false, .sent => (.ok a.generation, { a with held := ∅, ready := true })
  | false, .failed effective =>
    (.error .Backend, { a with held := if effective then ∅ else a.held })

def recover (result : SendResult) : Call ℕ := do
  let d ← get
  modify fun d => { d with input := (d.input.recover result).2 }
  match (d.input.recover result).1 with
  | .ok generation => pure generation
  | .error e => throw e

def Desktop.renewed (d : Desktop) (generation : ℕ) : Desktop :=
  { d with
    holder := none
    keys := ∅
    buttons := ∅
    attachments := ∅
    poisoned := false
    backendGeneration := generation }

def reconcileBackend (admitted : Bool) (result : SendResult) : Work Unit := do
  ensure admitted .Busy
  let generation ← onDesktop (recover result)
  let r ← get
  if r.desktop.backendGeneration ≠ generation then do
    ensure (r.desktop.epoch + 1 ≤ maxSafe) .Limit
    onDesktop (modify fun d => { d with epoch := d.epoch + 1 })
    ensure (r.desktop.layoutEpoch + 1 ≤ maxSafe) .Limit
    onDesktop (modify fun d => { d with layoutEpoch := d.layoutEpoch + 1 })
    onDesktop (modify fun d => d.renewed generation)
    modify fun r => { r with streams := ∅, configurations := ∅, layoutDisplays := none }
  else pure ()

def releaseIfHeld : Call Unit := do
  let d ← get
  if d.holder.isSome then releaseHeld else pure ()

def relayout : Work Unit := do
  onDesktop releaseIfHeld
  onDesktop layoutChanged
  modify fun r => { r with configurations := ∅ }

/-- `refresh_layout` after its `reconcile_backend`, with the displays of the backend. -/
def refreshLayout (displays : List DesktopDisplay) : Work Unit := do
  let r ← get
  if r.layoutDisplays == some displays then pure ()
  else mutate do
    let r ← get
    if r.layoutDisplays == some displays then pure ()
    else if r.layoutDisplays.isSome then do
      relayout
      modify fun r => { r with layoutDisplays := some displays }
    else modify fun r => { r with layoutDisplays := some displays }

structure ConfigureDesktopViewportsReq where
  attachId : String
  layoutEpoch : ℕ
  viewports : List DesktopViewport
  totalBitrate : ℕ

/-- `configure_impl`, for viewports of the client or of the server and for a change of quality;
`rejected` is the outcome of its checks of quality, codec, profile and displays. -/
def configureImpl (auth : Auth) (connection now : ℕ) (request : ConfigureDesktopViewportsReq)
    (serverOwned : Bool) (rejected : Option Error) : Work Unit := mutate do
  let a ← onDesktop (authorize auth connection request.attachId now)
  ensure (¬ (serverOwned = false ∧ a.serverViewports)) .Invalid
  match rejected with
  | some e => throw e
  | none => do
    let r ← get
    ensure (r.nextCodecEpoch + 1 ≤ maxSafe) .Limit
    modify fun r => { r with nextCodecEpoch := r.nextCodecEpoch + 1 }
    onDesktop (configure auth connection request.attachId now request.layoutEpoch request.viewports
      request.totalBitrate)
    onDesktop (modify fun d => d.update request.attachId fun a =>
      { a with serverViewports := serverOwned })
    modify fun r => { r with
      configurations := r.configurations.insert request.attachId ⟨request.layoutEpoch,
        (List.range request.viewports.length).map fun i => (i + 1, r.nextCodecEpoch)⟩ }

def acceptInput (auth : Auth) (connection now : ℕ) (frame : DesktopInputFrame) : Work Unit :=
  match frame.event with
  | .Feedback trackId codecEpoch groupId decodeMicros renderMicros queueDepth _ _ => mutate do
    let a ← onDesktop (authorize auth connection frame.attachId now)
    let r ← get
    let config ← require .Stale (r.configurations.lookup frame.attachId)
    ensure (frame.layoutEpoch = config.layoutEpoch ∧ (trackId, codecEpoch) ∈ config.tracks) .Stale
    ensure (¬ (groupId = 0 ∨ 60000000 < decodeMicros ∨ 60000000 < renderMicros ∨ 256 < queueDepth))
      .Limit
    ensure (frame.sequence = a.sequence + 1 ∧ frame.sequence ≤ maxSafe) .Stale
    onDesktop (modify fun d => d.update frame.attachId fun a =>
      { a with sequence := frame.sequence })
  | _ => mutate (onDesktop (input auth connection now frame))

def setGuard (n : ℕ) (g : Option InputGuard) : Work Unit :=
  modify fun r => { r with guards := Function.update r.guards n g }

/-- `begin_input` of the stream `n`. -/
def beginInput (n : ℕ) (id : String) : Work Unit := do
  let r ← get
  ensure (r.guards n = none ∧ id ∉ r.streams) .Busy
  modify fun r => { r with streams := insert id r.streams }
  setGuard n (some ⟨id, r.desktop.epoch, .reading⟩)

def endStream (n : ℕ) (id : String) : Work Unit := do
  modify fun r => { r with streams := r.streams.erase id }
  setGuard n none

/-- The drop of the guard of the stream `n`; without completion it only starts the cleanup. -/
def dropGuard (n : ℕ) (complete : Bool) : Work Unit := do
  let r ← get
  match r.guards n with
  | some ⟨id, epoch, .reading⟩ =>
    if complete then endStream n id else setGuard n (some ⟨id, epoch, .dropped⟩)
  | _ => pure ()

def releaseControl (id : String) (epoch : ℕ) : Call Unit := do
  let d ← get
  if d.holder = some id ∧ d.epoch = epoch then release else pure ()

/-- The cleanup of the stream `n`: the release, and later the end of the stream. -/
def cleanup (n : ℕ) : Work Unit := do
  let r ← get
  match r.guards n with
  | some ⟨id, epoch, .dropped⟩ => do
    attempt (mutate (onDesktop (releaseControl id epoch)))
    setGuard n (some ⟨id, epoch, .cleaned⟩)
  | some ⟨id, _, .cleaned⟩ => endStream n id
  | _ => pure ()

inductive Action where
  | attach (auth : Auth) (admitted : Bool) (connection : ℕ) (client : String)
      (keyboardMode : DesktopKeyboardMode) (now profile : ℕ)
  | setControl (auth : Auth) (connection : ℕ) (id : String) (now : ℕ)
      (action : DesktopControlAction)
  | acceptInput (auth : Auth) (connection now : ℕ) (frame : DesktopInputFrame)
  | renew (auth : Auth) (connection : ℕ) (id : String) (now : ℕ)
  | detach (auth : Auth) (connection : ℕ) (id : String) (now : ℕ)
  | close (connection : ℕ)
  | remove (id : String)
  | expire (auth : Auth) (now : ℕ)
  | authorize (auth : Auth) (connection : ℕ) (id : String) (now : ℕ)
  | configure (auth : Auth) (connection now : ℕ) (request : ConfigureDesktopViewportsReq)
      (serverOwned : Bool) (rejected : Option Error)
  | refreshLayout (displays : List DesktopDisplay)
  | reconcile (admitted : Bool) (result : SendResult)
  /-- The channel of the helper is lost. -/
  | lose (releases : Bool)
  | beginInput (n : ℕ) (id : String)
  | dropGuard (n : ℕ) (complete : Bool)
  | cleanup (n : ℕ)

def Action.run : Action → Work Unit
  | .attach auth admitted connection client keyboardMode now profile => mutate <| onDesktop do
    let id ← Screen.attach auth admitted connection client keyboardMode now
    modify fun d => d.update id fun a => { a with profile := profile }
  | .setControl auth connection id now action =>
    mutate (onDesktop (Screen.setControl auth connection id now action))
  | .acceptInput auth connection now frame => Screen.acceptInput auth connection now frame
  | .renew auth connection id now => mutate (onDesktop (Screen.renew auth connection id now))
  | .detach auth connection id now => mutate (onDesktop (Screen.detach auth connection id now))
  | .close connection => mutate (onDesktop (disconnect connection))
  | .remove id => mutate (onDesktop (Screen.remove id))
  | .expire auth now => mutate (onDesktop (Screen.expire auth now))
  | .authorize auth connection id now => mutate (onDesktop do
    let _ ← Screen.authorize auth connection id now)
  | .configure auth connection now request serverOwned rejected =>
    configureImpl auth connection now request serverOwned rejected
  | .refreshLayout displays => Screen.refreshLayout displays
  | .reconcile admitted result => reconcileBackend admitted result
  | .lose releases => onDesktop (modify fun d => { d with input := d.input.lose releases })
  | .beginInput n id => Screen.beginInput n id
  | .dropGuard n complete => Screen.dropGuard n complete
  | .cleanup n => Screen.cleanup n

def Runtime.step (r : Runtime) (a : Action) : Runtime := (exec a.run r).2

/-- `Desktop::new` with an adapter that has not been used. -/
def Desktop.new (script : ℕ → SendResult) : Desktop where
  input := ⟨script, ∅, [], 0, false⟩
  attachments := ∅
  holder := none
  epoch := 1
  nextId := 0
  layoutEpoch := 1
  keys := ∅
  buttons := ∅
  poisoned := false
  backendGeneration := 0

def Runtime.new (script : ℕ → SendResult) : Runtime where
  desktop := .new script
  layoutDisplays := none
  configurations := ∅
  nextCodecEpoch := 0
  streams := ∅
  guards := fun _ => none

end Rieul.Screen
