import Rieul.Lib.Table
import Rieul.Screen.Quality
import Rieul.Screen.Runtime

/-!
# The tables of the screen runtime (daemon/host/src/desktop.rs, desktop_quality.rs)

Beside the attachments the runtime keeps one table for each of their properties. A quality operation
reads and changes them in several steps, between which other calls run; one lock admits a single one
at a time. The steps are the sections under the lock of the attachments.
-/

namespace Rieul.Screen.Tables
open Stateful Ipc Quality

inductive DesktopAvailability where
  | Unsupported | PermissionRequired | Available
  deriving DecidableEq

structure DesktopCapabilities where
  supportedProfiles : Option (List ℕ)
  profile : ℕ
  capture : DesktopAvailability
  codecs : List DesktopCodec

structure AttachDesktopReq where
  profile : ℕ
  codecs : List String
  mediaUniStreams : Bool
  keyboardMode : DesktopKeyboardMode

structure DesktopQualityQuery where
  attachId : String
  candidates : Option (List DesktopQualityTarget)

structure SetDesktopQualityReq where
  attachId : String
  layoutEpoch : ℕ
  revision : ℕ
  policy : DesktopQualityPolicy

structure DesktopQualitySupport where
  layoutEpoch : ℕ
  revision : ℕ
  candidates : List (DesktopQualityTarget × DesktopQualityVerification)
  automaticAvailable : Bool
  policy : DesktopQualityPolicy

inductive Operation where
  | querying (connection now : ℕ) (id : String) (config : Quality.DesktopConfiguration)
      (requested : List DesktopQualityTarget)
  | setting (connection now : ℕ) (request : SetDesktopQualityReq) (config : Quality.DesktopConfiguration)
  | adjusting (connection now : ℕ) (id : String) (config : Quality.DesktopConfiguration)
  | applying (connection now : ℕ) (id : String) (config : Quality.DesktopConfiguration)
      (target : DesktopQualityTarget) (policy : DesktopQualityPolicy) (newPolicy : Bool)

/-- The flow of a track by its epoch; `instant` is the monotonic clock, `operation` stands for the
lock of the quality operations. -/
structure Runtime where
  desktop : Desktop
  layoutDisplays : Option (List DesktopDisplay)
  configurations : Table.Of String Quality.DesktopConfiguration
  codecs : Table.Of String DesktopCodec
  quality : Table.Of String Quality.State
  samples : Table.Of (String × ℕ) Sample
  flow : Table.Of (String × ℕ) ℕ
  feedback : Table.Of (String × ℕ) (ℕ × ℕ)
  nextCodecEpoch : ℕ
  operation : Option Operation
  instant : ℕ

abbrev Work := Op Runtime Error

def onDesktop {α : Type} (x : Call α) : Work α :=
  zoom Runtime.desktop (fun r d => { r with desktop := d }) x

def Runtime.live (r : Runtime) (id : String) : Bool := (r.desktop.attachments.lookup id).isSome

/-- What `mutate` retains. -/
def Runtime.retain (r : Runtime) : Runtime :=
  { r with
    codecs := Table.retain r.live r.codecs
    configurations := Table.retain r.live r.configurations
    feedback := Table.retain (fun key => r.live key.1) r.feedback
    quality := Table.retain r.live r.quality
    samples := Table.retain (fun key => r.live key.1) r.samples
    flow := Table.retain (fun key => r.live key.1) r.flow }

def mutate {α : Type} (x : Work α) : Work α := do
  let r ← get
  ensure (r.desktop.input.generation = r.desktop.backendGeneration) .Backend
  finish x Runtime.retain

def Runtime.renewed (r : Runtime) (generation : ℕ) : Runtime :=
  { r with
    desktop := r.desktop.renewed generation
    codecs := ∅
    configurations := ∅
    feedback := ∅
    quality := ∅
    samples := ∅
    flow := ∅
    layoutDisplays := none }

def reconcileBackend (admitted : Bool) (result : SendResult) : Work Unit := do
  ensure admitted .Busy
  let r ← get
  ensure (r.nextCodecEpoch + 1 < 2 ^ 64) .Limit
  let generation ← onDesktop (recover result)
  let r ← get
  if r.desktop.backendGeneration ≠ generation then do
    ensure (r.desktop.epoch + 1 ≤ maxSafe) .Limit
    onDesktop (modify fun d => { d with epoch := d.epoch + 1 })
    ensure (r.desktop.layoutEpoch + 1 ≤ maxSafe) .Limit
    onDesktop (modify fun d => { d with layoutEpoch := d.layoutEpoch + 1 })
    modify fun r => r.renewed generation
  else pure ()

def relayout : Work Unit := do
  onDesktop releaseIfHeld
  onDesktop layoutChanged
  modify fun r => { r with configurations := ∅ }

/-- `refresh_layout` after its `reconcile_backend`, with the displays of the backend. -/
def refreshLayout (displays : List DesktopDisplay) : Work Unit := do
  let r ← get
  if r.layoutDisplays == some displays then pure ()
  else mutate do
    let r ← get
    if r.layoutDisplays == some displays then pure ()
    else if r.layoutDisplays.isSome then do
      relayout
      modify fun r => { r with layoutDisplays := some displays }
    else modify fun r => { r with layoutDisplays := some displays }

def selectCodec (caps : DesktopCapabilities) (request : AttachDesktopReq) : Option DesktopCodec :=
  request.codecs.findSome? fun wanted => caps.codecs.find? fun c => c.codec = wanted ∧
    (request.profile ≠ 2 ∨ ((avcCode c.codec).isSome ∧ c.description = none))

/-- `attach` after its `refresh_layout`, with the capabilities of the backend and whether it has the
keyboard mode. -/
def attach (auth : Auth) (admitted : Bool) (connection : ℕ) (client : String) (now : ℕ)
    (caps : DesktopCapabilities) (keyboardModeSupported : Bool) (request : AttachDesktopReq) :
    Work String := do
  ensure (request.profile ∈ caps.supportedProfiles.getD [caps.profile] ∧ keyboardModeSupported ∧
    request.mediaUniStreams ∧ caps.capture = .Available) .Unsupported
  let selected ← require .Unsupported (selectCodec caps request)
  mutate do
    let id ← onDesktop (Screen.attach auth admitted connection client request.keyboardMode now)
    onDesktop (modify fun d => d.update id fun a => { a with profile := request.profile })
    modify fun r => { r with codecs := r.codecs.insert id selected }
    pure id

def pixels (viewports : List DesktopViewport) : Option ℕ := do
  let sum ← viewports.foldlM (fun sum v => do
    guard (¬ (3840 < v.width ∨ Quality.layout v.height 2 = none))
    guard (v.width * v.height < 2 ^ 64 ∧ sum + v.width * v.height < 2 ^ 64)
    some (sum + v.width * v.height)) 0
  guard (sum ≤ 32 * 1024 * 1024)
  some sum

def onDisplay (displays : List DesktopDisplay) (v : DesktopViewport) : Bool :=
  (displays.find? (·.displayId = v.displayId)).any fun display =>
    ¬ (v.crop.x < 0 ∨ v.crop.y < 0 ∨ display.bounds.width < v.crop.x.toNat + v.crop.width ∨
      display.bounds.height < v.crop.y.toNat + v.crop.height)

def trackOf (profile : ℕ) (codec : DesktopCodec) (epoch : ℕ) (viewport : DesktopViewport) (i : ℕ) :
    DesktopTrack where
  trackId := i + 1
  viewport := viewport
  codec := codec
  codecEpoch := epoch
  stripes := if profile = 2 then Quality.layout viewport.height 2 else none

def configurationOf (request : ConfigureDesktopViewportsReq) (profile : ℕ) (codec : DesktopCodec)
    (epoch : ℕ) : Quality.DesktopConfiguration where
  layoutEpoch := request.layoutEpoch
  tracks := request.viewports.zipIdx.map fun (v, i) => trackOf profile codec epoch v i
  totalBitrate := request.totalBitrate

structure QualityChange where
  revision : ℕ
  policy : DesktopQualityPolicy
  newPolicy : Bool

def checkChange (id : String) : Option QualityChange → Work Unit
  | none => pure ()
  | some change => do
    let r ← get
    let current ← require .Stale (r.configurations.lookup id)
    ensure (Quality.revision current = change.revision ∧ (r.quality.lookup id).isSome) .Stale

def applyChange (id : String) (config : Quality.DesktopConfiguration) : Option QualityChange → Work Unit
  | none => pure ()
  | some change => do
    let r ← get
    let state ← require .Stale (r.quality.lookup id)
    modify fun r => { r with
      quality := r.quality.insert id
        (state.changed config change.policy change.newPolicy r.instant) }

/-- `configure_impl`, with the displays of the backend. The credentials are looked at twice. -/
def configureImpl (auth later : Auth) (connection now : ℕ) (displays : List DesktopDisplay)
    (request : ConfigureDesktopViewportsReq) (serverOwned : Bool) (change : Option QualityChange) :
    Work Quality.DesktopConfiguration := mutate do
  let a ← onDesktop (authorize auth connection request.attachId now)
  checkChange request.attachId change
  ensure (¬ (serverOwned = false ∧ a.serverViewports)) .Invalid
  ensure (a.profile = 2 → (pixels request.viewports).isSome) .Limit
  ensure (∀ v ∈ request.viewports, onDisplay displays v) .Invalid
  let r ← get
  let codec ← require .NotFound (r.codecs.lookup request.attachId)
  ensure (r.nextCodecEpoch + 1 ≤ maxSafe) .Limit
  modify fun r => { r with nextCodecEpoch := r.nextCodecEpoch + 1 }
  onDesktop (configure later connection request.attachId now request.layoutEpoch request.viewports
    request.totalBitrate)
  onDesktop (modify fun d => d.update request.attachId fun a =>
    { a with serverViewports := serverOwned })
  let config := configurationOf request a.profile codec (r.nextCodecEpoch + 1)
  applyChange request.attachId config change
  modify fun r => { r with configurations := r.configurations.insert request.attachId config }
  pure config

/-- `accept_input` of decoder feedback. -/
def acceptFeedback (auth : Auth) (connection now : ℕ) (frame : DesktopInputFrame)
    (trackId codecEpoch groupId decodeMicros renderMicros queueDepth : ℕ) : Work Unit := mutate do
  let a ← onDesktop (authorize auth connection frame.attachId now)
  let r ← get
  let config ← require .Stale (r.configurations.lookup frame.attachId)
  ensure (frame.layoutEpoch = config.layoutEpoch ∧
    ∃ t ∈ config.tracks, t.trackId = trackId ∧ t.codecEpoch = codecEpoch) .Stale
  ensure (¬ (groupId = 0 ∨ 60000000 < decodeMicros ∨ 60000000 < renderMicros ∨ 256 < queueDepth))
    .Limit
  ensure (frame.sequence = a.sequence + 1 ∧ frame.sequence ≤ maxSafe) .Stale
  onDesktop (modify fun d => d.update frame.attachId fun a => { a with sequence := frame.sequence })
  modify fun r => { r with
    flow := (Table.retain (fun key => key.1 ≠ frame.attachId ∨
      ∃ t ∈ config.tracks, t.trackId = key.2) r.flow).insert (frame.attachId, trackId) codecEpoch
    samples := Table.upsert (frame.attachId, trackId) ⟨none, none⟩
      (·.receive r.instant codecEpoch groupId queueDepth decodeMicros renderMicros) r.samples
    feedback := r.feedback.insert (frame.attachId, trackId) (r.instant, queueDepth) }

def acceptInput (auth : Auth) (connection now : ℕ) (frame : DesktopInputFrame) : Work Unit :=
  match frame.event with
  | .Feedback trackId codecEpoch groupId decodeMicros renderMicros queueDepth _ _ =>
    acceptFeedback auth connection now frame trackId codecEpoch groupId decodeMicros renderMicros
      queueDepth
  | _ => mutate (onDesktop (input auth connection now frame))

/-- `media_flow` of a producer of the track; the configuration fences stale ones. -/
def mediaFlow (id : String) (track : DesktopTrack) : Work Unit := do
  let r ← get
  match r.configurations.lookup id with
  | none => pure ()
  | some config =>
    if ∃ t ∈ config.tracks, t.trackId = track.trackId ∧ t.codecEpoch = track.codecEpoch then
      modify fun r => { r with
        flow := (Table.retain (fun key => key.1 ≠ id ∨ ∃ t ∈ config.tracks, t.trackId = key.2)
          r.flow).insert (id, track.trackId) track.codecEpoch }
    else pure ()

def recordDelivery (id : String) (track : DesktopTrack) (slow : Bool) : Work Unit := do
  let r ← get
  if 128 ≤ r.samples.entries.length ∧ (id, track.trackId) ∉ r.samples then pure ()
  else modify fun r => { r with
    samples := Table.upsert (id, track.trackId) ⟨none, none⟩
      (fun sample => { sample with sent := some ⟨r.instant, track.codecEpoch, slow⟩ }) r.samples }

/-- `quality_snapshot`: the tracks of a configuration that is the server's. -/
def qualitySnapshot (auth : Auth) (connection now : ℕ) (id : String) :
    Work Quality.DesktopConfiguration := mutate do
  let a ← onDesktop (authorize auth connection id now)
  ensure a.serverViewports .Unsupported
  let r ← get
  let config ← require .Stale (r.configurations.lookup id)
  ensure (config.tracks ≠ []) .Unsupported
  pure config

/-- `try_lock` of the quality operations. -/
def tryOperation : Work Unit := do
  let r ← get
  ensure r.operation.isNone .Busy

def setOperation (operation : Option Operation) : Work Unit :=
  modify fun r => { r with operation := operation }

/-- The operation ends with `x`. -/
def finishing {α : Type} (x : Work α) : Work α := finish x fun r => { r with operation := none }

def targetLe (a b : DesktopQualityTarget) : Bool :=
  a.fps < b.fps || (a.fps = b.fps && a.totalBitrate ≤ b.totalBitrate)

/-- `Vec::dedup`. -/
def dedup : List DesktopQualityTarget → List DesktopQualityTarget
  | a :: b :: rest => if a = b then dedup (b :: rest) else a :: dedup (b :: rest)
  | targets => targets

def requestedTargets (candidates : List DesktopQualityTarget)
    (config : Quality.DesktopConfiguration) : List DesktopQualityTarget :=
  dedup ((candidates ++ ladder ++ [target config]).insertionSort fun a b => targetLe a b)

/-- `query_quality` up to its probes. -/
def queryQuality (auth : Auth) (connection now : ℕ) (request : DesktopQualityQuery) :
    Work Unit := do
  tryOperation
  let config ← qualitySnapshot auth connection now request.attachId
  ensure ((request.candidates.getD []).length ≤ 4) .Limit
  let requested := requestedTargets (request.candidates.getD []) config
  ensure (∀ t ∈ requested, 1 ≤ t.fps ∧ t.fps ≤ 120 ∧ 100000 ≤ t.totalBitrate ∧
    t.totalBitrate ≤ 100000000) .Invalid
  setOperation (some (.querying connection now request.attachId config requested))

def retarget (config : Quality.DesktopConfiguration) (target : DesktopQualityTarget) :
    List DesktopTrack :=
  config.tracks.map fun track => { track with
    viewport := { track.viewport with
      fps := target.fps
      bitrate := target.totalBitrate / config.tracks.length } }

/-- What the probes of a target come to; `probe` answers `Unknown` also when time has run out. -/
def verify (probe : DesktopQualityTarget → DesktopTrack → DesktopQualityVerification)
    (config : Quality.DesktopConfiguration) (target : DesktopQualityTarget) :
    DesktopQualityVerification :=
  (retarget config target).foldl (fun verification track =>
    let result := if validateVideoProbe track then probe target track else .Unsupported
    if result = .Unsupported ∨ (result = .Unknown ∧ verification ≠ .Unsupported) then result
    else verification) .Verified

/-- `query_quality` after its probes, which took `elapsed` milliseconds. -/
def answerQuery (auth : Auth) (elapsed : ℕ)
    (probe : DesktopQualityTarget → DesktopTrack → DesktopQualityVerification) :
    Work DesktopQualitySupport := do
  let r ← get
  match r.operation with
  | some (.querying connection now id config requested) => finishing <| mutate do
    let _ ← onDesktop (authorize auth connection id (saturatingAdd now elapsed))
    let r ← get
    ensure (r.configurations.lookup id = some config) .Stale
    let verified := requested.filter fun t => verify probe config t = .Verified
    let state := State.queried (r.quality.lookup id) config verified r.instant
    modify fun r => { r with quality := r.quality.insert id state }
    pure {
      layoutEpoch := config.layoutEpoch
      revision := Quality.revision config
      candidates := requested.map fun t => (t, verify probe config t)
      automaticAvailable := 2 ≤ (ladder.filter (· ∈ verified)).length
      policy := state.policy }
  | _ => throw .Busy

/-- `set_quality` up to its choice of a target. -/
def setQuality (auth : Auth) (connection now : ℕ) (request : SetDesktopQualityReq) :
    Work Unit := do
  tryOperation
  let config ← qualitySnapshot auth connection now request.attachId
  setOperation (some (.setting connection now request config))

def desiredTarget (state : Quality.State) : DesktopQualityPolicy → Option DesktopQualityTarget
  | .Manual target => if target ∈ state.verified then some target else none
  | .Auto =>
    if (levelsOf state.verified).length < 2 then none else (levelsOf state.verified).getLast?

def chooseQuality : Work Unit := do
  let r ← get
  match r.operation with
  | some (.setting connection now request config) => do
    setOperation none
    let state ← require .Stale (r.quality.lookup request.attachId)
    ensure (¬ (state.revision ≠ request.revision ∨ Quality.revision config ≠ request.revision ∨
      state.layout ≠ request.layoutEpoch ∨ config.layoutEpoch ≠ request.layoutEpoch)) .Stale
    let target ← require .Unsupported (desiredTarget state request.policy)
    setOperation
      (some (.applying connection now request.attachId config target request.policy true))
  | _ => throw .Busy

/-- `adjust_quality` up to its evaluation; it gives way to another operation. -/
def adjustQuality (auth : Auth) (connection now : ℕ) (id : String) : Work Unit := do
  let r ← get
  if r.operation.isSome then pure ()
  else do
    let config ← qualitySnapshot auth connection now id
    setOperation (some (.adjusting connection now id config))

structure Evaluation where
  connection : ℕ
  now : ℕ
  id : String
  config : Quality.DesktopConfiguration
  state : Quality.State
  instant : ℕ
  sample : ℕ → Option Sample
  latest : ℕ

def Evaluation.evidence (e : Evaluation) : Evidence := Quality.evidence e.instant e.config e.sample

def Runtime.evaluation (r : Runtime) : Option Evaluation :=
  match r.operation with
  | some (.adjusting connection now id config) => do
    let state ← r.quality.lookup id
    guard (state.due config r.instant)
    let sample := fun trackId => r.samples.lookup (id, trackId)
    let latest ← (Quality.evidence r.instant config sample).news state.lastSample
    some ⟨connection, now, id, config, state, r.instant, sample, latest⟩
  | _ => none

def Runtime.evaluate (r : Runtime) (e : Evaluation) : Runtime :=
  let state := e.state.evaluated e.evidence e.latest
  { r with
    quality := r.quality.insert e.id state
    operation := (state.desired e.evidence e.config).map fun target =>
      .applying e.connection e.now e.id e.config target .Auto false }

def evaluateQuality : Work Unit := do
  let r ← get
  match r.operation, r.evaluation with
  | some (.adjusting _ _ _ _), some e => modify fun r => r.evaluate e
  | some (.adjusting _ _ _ _), none => setOperation none
  | _, _ => throw .Busy

/-- The request of `apply_quality`. -/
def qualityRequest (id : String) (config : Quality.DesktopConfiguration)
    (target : DesktopQualityTarget) : ConfigureDesktopViewportsReq where
  attachId := id
  layoutEpoch := config.layoutEpoch
  viewports := config.tracks.map fun track => { track.viewport with
    fps := target.fps
    bitrate := target.totalBitrate / max config.tracks.length 1 }
  totalBitrate := target.totalBitrate

/-- The configuration that ends `set_quality` or `adjust_quality`. -/
def applyQuality (auth later : Auth) (displays : List DesktopDisplay) :
    Work (String × Quality.DesktopConfiguration) := do
  let r ← get
  match r.operation with
  | some (.applying connection now id config target policy newPolicy) => finishing do
    let next ← configureImpl auth later connection now displays (qualityRequest id config target)
      true (some ⟨Quality.revision config, policy, newPolicy⟩)
    pure (id, next)
  | _ => throw .Busy

inductive Action where
  | attach (auth : Auth) (admitted : Bool) (connection : ℕ) (client : String) (now : ℕ)
      (caps : DesktopCapabilities) (keyboardModeSupported : Bool) (request : AttachDesktopReq)
  | setControl (auth : Auth) (connection : ℕ) (id : String) (now : ℕ)
      (action : DesktopControlAction)
  | acceptInput (auth : Auth) (connection now : ℕ) (frame : DesktopInputFrame)
  | renew (auth : Auth) (connection : ℕ) (id : String) (now : ℕ)
  | detach (auth : Auth) (connection : ℕ) (id : String) (now : ℕ)
  | close (connection : ℕ)
  | remove (id : String)
  | expire (auth : Auth) (now : ℕ)
  /-- The cleanup of an input stream. -/
  | release (id : String) (epoch : ℕ)
  | configure (auth later : Auth) (connection now : ℕ) (displays : List DesktopDisplay)
      (request : ConfigureDesktopViewportsReq) (serverOwned : Bool)
  | refreshLayout (displays : List DesktopDisplay)
  | reconcile (admitted : Bool) (result : SendResult)
  /-- The channel of the helper is lost. -/
  | lose (releases : Bool)
  | mediaFlow (id : String) (track : DesktopTrack)
  | recordDelivery (id : String) (track : DesktopTrack) (slow : Bool)
  | queryQuality (auth : Auth) (connection now : ℕ) (request : DesktopQualityQuery)
  | answerQuery (auth : Auth) (elapsed : ℕ)
      (probe : DesktopQualityTarget → DesktopTrack → DesktopQualityVerification)
  | setQuality (auth : Auth) (connection now : ℕ) (request : SetDesktopQualityReq)
  | chooseQuality
  | adjustQuality (auth : Auth) (connection now : ℕ) (id : String)
  | evaluateQuality
  | applyQuality (auth later : Auth) (displays : List DesktopDisplay)
  /-- Time passes. -/
  | wait (nanos : ℕ)

abbrev Answer := Option (String × Quality.DesktopConfiguration)

def quiet {α : Type} (x : Work α) : Work Answer := do
  let _ ← x
  pure none

def Action.run : Action → Work Answer
  | .attach auth admitted connection client now caps keyboardModeSupported request =>
    quiet (Tables.attach auth admitted connection client now caps keyboardModeSupported request)
  | .setControl auth connection id now action =>
    quiet (mutate (onDesktop (Screen.setControl auth connection id now action)))
  | .acceptInput auth connection now frame => quiet (Tables.acceptInput auth connection now frame)
  | .renew auth connection id now => quiet (mutate (onDesktop (Screen.renew auth connection id now)))
  | .detach auth connection id now =>
    quiet (mutate (onDesktop (Screen.detach auth connection id now)))
  | .close connection => quiet (mutate (onDesktop (disconnect connection)))
  | .remove id => quiet (mutate (onDesktop (Screen.remove id)))
  | .expire auth now => quiet (mutate (onDesktop (Screen.expire auth now)))
  | .release id epoch => quiet (mutate (onDesktop (releaseControl id epoch)))
  | .configure auth later connection now displays request serverOwned => do
    let config ← configureImpl auth later connection now displays request serverOwned none
    pure (some (request.attachId, config))
  | .refreshLayout displays => quiet (Tables.refreshLayout displays)
  | .reconcile admitted result => quiet (Tables.reconcileBackend admitted result)
  | .lose releases =>
    quiet (onDesktop (modify fun d => { d with input := d.input.lose releases }))
  | .mediaFlow id track => quiet (Tables.mediaFlow id track)
  | .recordDelivery id track slow => quiet (Tables.recordDelivery id track slow)
  | .queryQuality auth connection now request =>
    quiet (Tables.queryQuality auth connection now request)
  | .answerQuery auth elapsed probe => quiet (Tables.answerQuery auth elapsed probe)
  | .setQuality auth connection now request =>
    quiet (Tables.setQuality auth connection now request)
  | .chooseQuality => quiet Tables.chooseQuality
  | .adjustQuality auth connection now id => quiet (Tables.adjustQuality auth connection now id)
  | .evaluateQuality => quiet Tables.evaluateQuality
  | .applyQuality auth later displays => do
    let answer ← Tables.applyQuality auth later displays
    pure (some answer)
  | .wait nanos => quiet (modify fun r => { r with instant := r.instant + nanos })

def Runtime.new (script : ℕ → SendResult) : Runtime where
  desktop := .new script
  layoutDisplays := none
  configurations := ∅
  codecs := ∅
  quality := ∅
  samples := ∅
  flow := ∅
  feedback := ∅
  nextCodecEpoch := 0
  operation := none
  instant := 0

structure Change where
  id : String
  config : Quality.DesktopConfiguration
  instant : ℕ

structure Feedback where
  attachId : String
  trackId : ℕ
  epoch : ℕ
  group : ℕ

def feedbackOf (frame : DesktopInputFrame) : Option Feedback :=
  match frame.event with
  | .Feedback trackId codecEpoch groupId _ _ _ _ _ =>
    some ⟨frame.attachId, trackId, codecEpoch, groupId⟩
  | _ => none

/-- A runtime with what has happened; `chosen` are the verified targets of an attachment when its
automatic policy was last chosen. -/
structure Watched where
  runtime : Runtime
  changes : List Change
  evaluations : List Evaluation
  feedbacks : List Feedback
  chosen : String → List DesktopQualityTarget

def Runtime.choosing (r : Runtime) : Option String :=
  match r.operation with
  | some (.applying _ _ id _ _ .Auto true) => some id
  | _ => none

def verifiedOf (r : Runtime) (id : String) : List DesktopQualityTarget :=
  ((r.quality.lookup id).map (·.verified)).getD []

def Watched.noteChanges (w : Watched) : Except Error Answer → List Change
  | .ok (some (id, config)) => w.changes ++ [⟨id, config, w.runtime.instant⟩]
  | _ => w.changes

def Watched.noteEvaluations (w : Watched) : Action → List Evaluation
  | .evaluateQuality => w.evaluations ++ w.runtime.evaluation.toList
  | _ => w.evaluations

def Watched.noteFeedbacks (w : Watched) : Action → Except Error Answer → List Feedback
  | .acceptInput _ _ _ frame, .ok _ => w.feedbacks ++ (feedbackOf frame).toList
  | _, _ => w.feedbacks

def Watched.noteChosen (w : Watched) :
    Action → Except Error Answer → String → List DesktopQualityTarget
  | .applyQuality _ _ _, .ok _, id =>
    if w.runtime.choosing = some id then verifiedOf w.runtime id else w.chosen id
  | _, _, id => w.chosen id

def Watched.step (w : Watched) (a : Action) : Watched :=
  let (answer, next) := exec a.run w.runtime
  { runtime := next
    changes := w.noteChanges answer
    evaluations := w.noteEvaluations a
    feedbacks := w.noteFeedbacks a answer
    chosen := w.noteChosen a answer }

def Watched.new (script : ℕ → SendResult) : Watched where
  runtime := .new script
  changes := []
  evaluations := []
  feedbacks := []
  chosen := fun _ => []

def Watched.run (script : ℕ → SendResult) (actions : List Action) : Watched :=
  actions.foldl Watched.step (.new script)

end Rieul.Screen.Tables
