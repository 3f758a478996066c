import Rieul.Screen.Ipc
import Rieul.Screen.StripeLayout

/-!
# Quality targets (daemon/host/src/desktop_quality.rs)

A quality target changes the encoding only. Under the automatic policy the target moves along the
verified levels of a ladder, on what the receiver reported and the sender recorded within the last
two seconds. Instants are in nanoseconds.
-/

namespace Rieul.Screen.Quality
open Ipc

structure DesktopConfiguration where
  layoutEpoch : ℕ
  tracks : List DesktopTrack
  totalBitrate : ℕ
  deriving DecidableEq

structure DesktopQualityTarget where
  fps : ℕ
  totalBitrate : ℕ
  deriving DecidableEq

inductive DesktopQualityPolicy where
  | Manual (target : DesktopQualityTarget)
  | Auto
  deriving DecidableEq

inductive DesktopQualityVerification where
  | Unknown | Verified | Unsupported
  deriving DecidableEq

/-- So many seconds of an `Instant`. -/
def seconds (n : ℕ) : ℕ := n * 1000000000

def hexDigit (c : Char) : Option ℕ :=
  if '0' ≤ c ∧ c ≤ '9' then some (c.toNat - '0'.toNat)
  else if 'a' ≤ c ∧ c ≤ 'f' then some (c.toNat - 'a'.toNat + 10)
  else if 'A' ≤ c ∧ c ≤ 'F' then some (c.toNat - 'A'.toNat + 10)
  else none

/-- `u32::from_str_radix` of base 16. -/
def fromStrRadix16 (text : List Char) : Option ℕ := do
  let digits := if text.head? = some '+' then text.tail else text
  guard (digits ≠ [])
  digits.foldlM (fun n c => do
    let digit ← hexDigit c
    guard (n * 16 + digit < 2 ^ 32)
    some (n * 16 + digit)) 0

def divCeil (a b : ℕ) : ℕ := (a + b - 1) / b

/-- What stands behind `avc1.` in the name of a codec. -/
def avcCode (codec : String) : Option (List Char) :=
  if "avc1.".toList.isPrefixOf codec.toList then some (codec.toList.drop "avc1.".length) else none

def baseline42Bounds (track : DesktopTrack) : Bool :=
  match (avcCode track.codec.codec).bind fromStrRadix16 with
  | none => true
  | some code =>
    if code / 2 ^ 16 ≠ 66 ∨ code % 256 ≠ 42 then true
    else
      let blocks := divCeil track.viewport.width 16 * divCeil track.viewport.height 16
      blocks ≤ 8704 ∧ blocks * track.viewport.fps ≤ 522240 ∧ track.viewport.bitrate ≤ 50000000

def validateVideoProbe (track : DesktopTrack) : Bool :=
  let v := track.viewport
  2 ≤ v.width ∧ v.width ≤ 4096 ∧ 2 ≤ v.height ∧ v.height ≤ 4096 ∧ v.width % 2 = 0 ∧
    v.height % 2 = 0 ∧ v.width * v.height ≤ 8388608 ∧ 1 ≤ v.fps ∧ v.fps ≤ 120 ∧
    1 ≤ v.bitrate ∧ v.bitrate ≤ 100000000 ∧ track.codec.codec.utf8ByteSize ≤ 128 ∧
    (∀ stripes ∈ track.stripes, (avcCode track.codec.codec).isSome ∧
      Stripe.ValidLayout v.height (stripes.map fun s => ⟨s.y, s.height⟩)) ∧
    baseline42Bounds track

/-- The loop of `layout` from the line `y`; `fuel` bounds its rounds. -/
def stripesFrom (height each : ℕ) : ℕ → ℕ → List DesktopStripe
  | 0, _ => []
  | fuel + 1, y =>
    if y < height then
      ⟨y, min each (height - y)⟩ :: stripesFrom height each fuel (y + min each (height - y))
    else []

/-- `layout` of daemon/core/src/desktop_stripe.rs. -/
def layout (height count : ℕ) : Option (List DesktopStripe) :=
  if height = 0 ∨ 2160 < height ∨ height % 2 ≠ 0 ∨ ¬ (1 ≤ count ∧ count ≤ Stripe.maxStripes) then
    none
  else some (stripesFrom height ((divCeil height count + 15) / 16 * 16) height 0)

def revision (config : DesktopConfiguration) : ℕ := (config.tracks.map (·.codecEpoch)).foldr max 0

def target (config : DesktopConfiguration) : DesktopQualityTarget where
  fps := (config.tracks.head?.map (·.viewport.fps)).getD 60
  totalBitrate := config.totalBitrate

def ladder : List DesktopQualityTarget := [⟨15, 2000000⟩, ⟨30, 5000000⟩, ⟨60, 20000000⟩]

/-- The levels of the ladder among `targets`. -/
def levelsOf (targets : List DesktopQualityTarget) : List DesktopQualityTarget :=
  ladder.filter (· ∈ targets)

structure State where
  revision : ℕ
  layout : ℕ
  verified : List DesktopQualityTarget
  adaptive : List DesktopQualityTarget
  policy : DesktopQualityPolicy
  lastChange : ℕ
  healthy : ℕ
  lastSample : Option ℕ

/-- What `configure_impl` makes of the state with a new configuration. -/
def State.changed (state : State) (config : DesktopConfiguration) (policy : DesktopQualityPolicy)
    (newPolicy : Bool) (instant : ℕ) : State :=
  { state with
    revision := Quality.revision config
    adaptive := if policy ≠ .Auto then [] else if newPolicy then state.verified else state.adaptive
    policy := policy
    lastChange := instant
    healthy := 0 }

/-- What `query_quality` puts in place of a state, with what still holds of the previous one. -/
def State.queried (previous : Option State) (config : DesktopConfiguration)
    (verified : List DesktopQualityTarget) (instant : ℕ) : State :=
  let previous := previous.filter (·.revision = Quality.revision config)
  { revision := Quality.revision config
    layout := config.layoutEpoch
    verified := verified
    adaptive := (previous.map (·.adaptive)).getD []
    policy := (previous.map (·.policy)).getD (.Manual (target config))
    lastChange := (previous.map (·.lastChange)).getD instant
    healthy := (previous.map (·.healthy)).getD 0
    lastSample := previous.bind (·.lastSample) }

/-- `micros` is the time for decoding and rendering. -/
structure Received where
  instant : ℕ
  epoch : ℕ
  group : ℕ
  depth : ℕ
  micros : ℕ

structure Sent where
  instant : ℕ
  epoch : ℕ
  slow : Bool

structure Sample where
  received : Option Received
  sent : Option Sent

def Sample.receive (sample : Sample) (instant epoch group depth decode render : ℕ) : Sample :=
  if sample.received.any fun old => old.epoch = epoch ∧ group ≤ old.group then sample
  else { sample with received := some ⟨instant, epoch, group, depth, saturatingAdd decode render⟩ }

def fresh (now instant : ℕ) : Bool := now - instant < seconds 2

structure Evidence where
  pressure : Bool
  healthy : Bool
  latest : Option ℕ

def later (latest : Option ℕ) (instant : ℕ) : ℕ := (latest.map (max · instant)).getD instant

def Evidence.receive (e : Evidence) (track : DesktopTrack) : Option Received → Evidence
  | some r =>
    { pressure := e.pressure || (3 ≤ r.depth || 2000000 / track.viewport.fps < r.micros)
      healthy := e.healthy && (r.depth = 0 && r.micros < 1000000 / track.viewport.fps)
      latest := some (later e.latest r.instant) }
  | none => { e with healthy := false }

def Evidence.send (e : Evidence) : Option Sent → Evidence
  | some s =>
    { pressure := e.pressure || s.slow
      healthy := e.healthy && !s.slow
      latest := some (later e.latest s.instant) }
  | none => { e with healthy := false }

/-- The receiver's side of a sample, if it counts at `now`. -/
def freshReceived (now : ℕ) (track : DesktopTrack) (sample : Option Sample) : Option Received :=
  (sample.bind (·.received)).filter fun r => fresh now r.instant && r.epoch = track.codecEpoch

/-- The sender's side of a sample, if it counts at `now`. -/
def freshSent (now : ℕ) (track : DesktopTrack) (sample : Option Sample) : Option Sent :=
  (sample.bind (·.sent)).filter fun s => fresh now s.instant && s.epoch = track.codecEpoch

def Evidence.add (e : Evidence) (now : ℕ) (track : DesktopTrack) (sample : Option Sample) :
    Evidence :=
  (e.receive track (freshReceived now track sample)).send (freshSent now track sample)

def evidence (now : ℕ) (config : DesktopConfiguration) (sample : ℕ → Option Sample) : Evidence :=
  config.tracks.foldl (fun e track => e.add now track (sample track.trackId)) ⟨false, true, none⟩

def Evidence.news (e : Evidence) (lastSample : Option ℕ) : Option ℕ :=
  e.latest.filter fun latest => ¬ lastSample.any (latest ≤ ·)

def State.due (state : State) (config : DesktopConfiguration) (now : ℕ) : Bool :=
  ¬ (state.policy ≠ .Auto ∨ state.revision ≠ Quality.revision config ∨
    state.layout ≠ config.layoutEpoch ∨ now - state.lastChange < seconds 2)

def State.evaluated (state : State) (e : Evidence) (latest : ℕ) : State :=
  { state with
    lastSample := some latest
    healthy := if e.healthy ∧ ¬ e.pressure then state.healthy + 1 else 0 }

def State.desired (state : State) (e : Evidence) (config : DesktopConfiguration) :
    Option DesktopQualityTarget := do
  let levels := levelsOf state.adaptive
  let index ← levels.idxOf? (target config)
  if e.pressure ∧ 0 < index then levels[index - 1]?
  else if 5 ≤ state.healthy then levels[index + 1]?
  else none

end Rieul.Screen.Quality
