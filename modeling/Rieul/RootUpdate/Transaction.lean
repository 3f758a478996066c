import Rieul.Lib.Crash
import Rieul.RootUpdate.Migration

/-!
# The update transaction (daemon/macos/src/root_update/transaction.rs)

The journal is saved before each effect. A worker that resumes it looks at what is
installed; the phase alone never proves that an exchange or a launch has happened.
Each file operation and each effect is one action, and any of them may fail.
-/

namespace Rieul.RootUpdate.Transaction
open Crash

structure Version where
  major : ℕ
  minor : ℕ
  patch : ℕ
  deriving DecidableEq

def Version.before (a b : Version) : Bool :=
  a.major < b.major || a.major = b.major && (a.minor < b.minor ||
    a.minor = b.minor && a.patch < b.patch)

structure Identity where
  version : Version
  daemonSha256 : String
  appDev : ℕ
  appIno : ℕ
  deriving DecidableEq

def Identity.app (identity : Identity) : ℕ × ℕ := (identity.appDev, identity.appIno)

inductive Phase where
  | prepared
  | quiescing
  | replacing
  | starting
  | committed
  | rollingBack
  | rolledBack
  deriving DecidableEq

def Phase.terminal (phase : Phase) : Bool := phase = .committed || phase = .rolledBack

def Phase.text : Phase → String
  | prepared => "Prepared"
  | quiescing => "Quiescing"
  | replacing => "Replacing"
  | starting => "Starting"
  | committed => "Committed"
  | rollingBack => "RollingBack"
  | rolledBack => "RolledBack"

structure Journal where
  schema : ℕ
  nonce : String
  old : Identity
  new : Identity
  phase : Phase
  deriving DecidableEq

structure WorkerResult where
  nonce : Option String
  phase : String
  error : Option String
  deferred : Bool
  deriving DecidableEq

structure InstallIntent where
  nonce : String
  confirmed : Bool

structure Dir where
  journal : Option Journal
  lastResult : Option Journal
  cleanupPending : Option Journal
  workerResult : Option WorkerResult
  installRequest : Option InstallIntent
  startRequest : Option Request

/-- `app` and `service` are installed, `incoming` and `stage` the staging beside them: an app entry,
and a runtime bound to the nonce of its transaction. `submitted` is whether launchd has been given
a worker. -/
structure World where
  dir : Dir
  app : ℕ × ℕ
  service : String
  incoming : Option (ℕ × ℕ)
  stage : Option (String × String)
  submitted : Bool

inductive Error where
  | deferred (reason : String)
  | other (text : String)

def Error.text : Error → String
  | deferred reason => "update deferred: " ++ reason
  | other text => text

structure Response where
  nonce : String
  pid : ℕ
  state : String
  remainingMs : ℕ
  monotonicMs : ℕ
  reason : String

structure Poll where
  response : Option Response
  now : ℕ

/-- The loop of `request_exit` for an attempt and a process; the deadline follows the last poll. -/
def awaitExit (attempt : String) (pid : ℕ) : Bool → List Poll → Except Error Unit
  | _, [] => .error (.deferred "no drain acknowledgement")
  | committed, poll :: rest =>
    match poll.response with
    | none => awaitExit attempt pid committed rest
    | some response =>
      if response.nonce = attempt ∧ response.pid = pid then
        if response.state = "busy" then .error (.deferred response.reason)
        else if response.state = "expired" then .error (.deferred "drain lease expired")
        else if response.state = "granted" ∧ ¬ committed then
          if 1000 ≤ poll.now - response.monotonicMs ∨
              response.remainingMs ≤ poll.now - response.monotonicMs + 5000 then
            .error (.deferred "stale drain grant")
          else awaitExit attempt pid true rest
        else if response.state = "exiting" ∧ committed then .ok ()
        else awaitExit attempt pid committed rest
      else awaitExit attempt pid committed rest

/-- What `request_exit` finds: no process that serves, or one that is asked. -/
inductive Drain where
  | stopped
  | asked (attempt : String) (pid : ℕ) (polls : List Poll)

def Drain.outcome : Drain → Except Error Unit
  | stopped => .ok ()
  | asked attempt pid polls => awaitExit attempt pid false polls

/-- How the environment answers an action; one that fails may have been `written`. -/
structure Answer where
  error : Option String := none
  written : Bool := false
  schema : ℕ := DATABASE_SCHEMA
  ready : Bool := true
  allowed : Bool := true
  drain : Drain := .stopped

inductive Label where
  | read
  | verify
  /-- The pessimistic failure of a dispatch. -/
  | mark (nonce : String)
  | intend (manual : Bool)
  | submit
  /-- The failure of a dispatch, after its marker. -/
  | refuse (result : WorkerResult)
  | accept (nonce : String)
  | publish (nonce : String) (result : WorkerResult)
  | journal (j : Journal)
  | result (j : Journal)
  | pending (j : Journal)
  | retire
  | clean
  | quiesce
  | exchange
  | effect
  deriving DecidableEq

inductive Job where
  | prepare
  | dispatch (manual : Bool)
  | cleanup
  | worker
  deriving DecidableEq

abbrev Script (α : Type) := Code World Answer Label Error α

abbrev Log := List (Entry Job World Answer Label)

def Answer.outcome {α : Type} (i : Answer) (r : Except Error α) : Except Error α :=
  match i.error with
  | some e => .error (.other e)
  | none => r

def Answer.done (i : Answer) : Bool := i.error.isNone || i.written

def write (label : Label) (f : World → World) : Script Unit :=
  perform label (fun i w => if i.done then f w else w) fun i _ => i.outcome (.ok ())

def look {α : Type} (label : Label) (f : Answer → World → Except Error α) : Script α :=
  perform label (fun _ w => w) fun i w => i.outcome (f i w)

def load {α : Type} (f : Dir → α) : Script α := look .read fun _ w => .ok (f w.dir)

def save (label : Label) (f : Dir → Dir) : Script Unit :=
  write label fun w => { w with dir := f w.dir }

inductive Installed where
  | old
  | new
  | both
  | unknown
  deriving DecidableEq

def Journal.isApp (j : Journal) (id : ℕ × ℕ) : Bool := id = j.old.app || id = j.new.app

/-- The stage that `validate` leaves: made of the incoming app when there is none. -/
def World.staged (w : World) (j : Journal) : Option (String × String) :=
  match w.stage with
  | some stage => some stage
  | none => if w.incoming = some j.new.app then some (j.nonce, j.new.daemonSha256) else none

/-- `NativeEffects::validate`; the signatures and the contents are in the answer. -/
def World.validated (w : World) (j : Journal) : Except Error Unit :=
  if j.isApp w.app = false ∨ w.incoming.any j.isApp = false then .error (.other "unknown app entry")
  else match w.staged j with
    | none => .error (.other "missing protected runtime staging after replacement")
    | some (nonce, digest) =>
      if nonce ≠ j.nonce then .error (.other "runtime staging belongs to another transaction")
      else if w.service = j.old.daemonSha256 ∧ digest = j.new.daemonSha256 ∨
          w.service = j.new.daemonSha256 ∧ digest = j.old.daemonSha256 then .ok ()
      else .error (.other "unrecognized runtime digest")

def validate (j : Journal) : Script Unit :=
  perform .effect
    (fun i w => if i.done ∧ j.isApp w.app ∧ w.incoming.any j.isApp then
      { w with stage := w.staged j } else w)
    fun i w => i.outcome (w.validated j)

def databaseSchema : Script ℕ := look .effect fun i _ => .ok i.schema

def World.installed (w : World) (j : Journal) : Installed × Installed :=
  (if w.app = j.old.app then .old else if w.app = j.new.app then .new else .unknown,
    if w.service = j.old.daemonSha256 ∧ w.service = j.new.daemonSha256 then .both
    else if w.service = j.old.daemonSha256 then .old
    else if w.service = j.new.daemonSha256 then .new
    else .unknown)

def installed (j : Journal) : Script (Installed × Installed) :=
  look .effect fun _ w => .ok (w.installed j)

/-- `quiesce`: what precedes the drain and what follows it fail with the answer. -/
def quiesce : Script Unit := look .quiesce fun i _ => i.drain.outcome

def World.exchangeApp (w : World) : World :=
  match w.incoming with
  | some id => { w with app := id, incoming := some w.app }
  | none => w

def exchangeApp : Script Unit := write .exchange World.exchangeApp

def World.exchangeService (w : World) : World :=
  match w.stage with
  | some (nonce, digest) => { w with service := digest, stage := some (nonce, w.service) }
  | none => w

def exchangeService : Script Unit := write .exchange World.exchangeService

/-- Whatever is installed on `side` is exchanged, the app first. -/
def exchangeFrom (side : Installed) (here : Installed × Installed) : Script Unit := do
  if here.1 = side then do
    exchangeApp
    if here.2 = side then exchangeService else pure ()
  else if here.2 = side then exchangeService else pure ()

def start (identity : Identity) (nonce : String) : Script Unit := do
  let service ← look .effect fun _ w => .ok w.service
  ensure (service = identity.daemonSha256) (.other "refusing unexpected root executable")
  save .effect fun d => { d with startRequest := some ⟨nonce, identity.daemonSha256⟩ }
  look .effect fun _ _ => .ok ()

def ready : Script Bool := look .effect fun i _ => .ok i.ready

def restoreGuis : Script Unit := look .effect fun _ _ => .ok ()

def ensureServing (identity : Identity) (nonce : String) : Script Unit := do
  if ← ready then pure ()
  else do
    quiesce
    start identity nonce
    let again ← ready
    ensure (again = true) (.other "terminal recovery service not ready")

/-- `save` of the journal in its next phase. -/
def saveJournal (j : Journal) : Script Unit :=
  save (.journal j) fun d => { d with journal := some j }

def known (j : Journal) : Script (Installed × Installed) := do
  let here ← installed j
  ensure ((here.1 = .old ∨ here.1 = .new) ∧ here.2 ≠ .unknown)
    (.other "unrecognized installed artifact; manual recovery required")
  pure here

def atTarget (target : Installed) (j : Journal) : Script Bool := do
  let here ← known j
  ensure (here.2 ≠ .both ∨ j.old.daemonSha256 = j.new.daemonSha256)
    (.other "ambiguous service identity")
  pure (here.1 = target && (here.2 = target || here.2 = .both))

def cleanup : Script Unit := do
  write .clean fun w => { w with incoming := none }
  write .clean fun w => { w with stage := none }
  save .clean fun d => { d with startRequest := none }
  save .clean fun d => { d with installRequest := none }

def cleanupPendingLocked : Script Unit := do
  match ← load (·.cleanupPending) with
  | none => pure ()
  | some pending => do
    let journal ← load (·.journal)
    ensure (journal = none) (.other "active transaction prevents retired cleanup")
    let found ← load (·.lastResult)
    let last ← require (.other "missing cleanup result") found
    ensure (pending.schema = 1 ∧ pending.nonce = last.nonce ∧ pending.phase = last.phase ∧
      pending.phase.terminal) (.other "cleanup transaction mismatch")
    cleanup
    save .clean fun d => { d with cleanupPending := none }

def prepareLocked (old new : Identity) (nonce : String) : Script Unit := do
  let journal ← load (·.journal)
  ensure (journal = none) (.other "unresolved transaction already exists")
  let pending ← load (·.cleanupPending)
  ensure (pending = none) (.other "finalization cleanup pending")
  ensure (old.version.before new.version) (.other "non-increasing update")
  saveJournal ⟨1, nonce, old, new, .prepared⟩

def finalize (j : Journal) : Script Unit := do
  save (.result j) fun d => { d with lastResult := some j }
  save (.pending j) fun d => { d with cleanupPending := some j }
  save .retire fun d => { d with journal := none }
  cleanupPendingLocked

def ensureSchema (text : String) : Script Unit := do
  let schema ← databaseSchema
  ensure (schema = DATABASE_SCHEMA) (.other text)

def rollback (j : Journal) : Script Phase := do
  quiesce
  ensureSchema "rollback cannot downgrade database"
  validate j
  let here ← known j
  exchangeFrom .new here
  let back ← atTarget .old j
  ensure (back = true) (.other "rollback identity mismatch")
  start j.old j.nonce
  let serving ← ready
  ensure (serving = true) (.other "old service failed readiness")
  saveJournal { j with phase := .rolledBack }
  restoreGuis
  finalize { j with phase := .rolledBack }
  pure .rolledBack

def finish (j : Journal) (target : Installed) (identity : Identity) (text : String) :
    Script Phase := do
  let there ← atTarget target j
  ensure (there = true) (.other text)
  ensureServing identity j.nonce
  restoreGuis
  finalize j
  pure j.phase

def launch (j : Journal) : Script Bool := do
  match ← attempt (start j.new j.nonce) with
  | .error _ => pure false
  | .ok _ =>
    match ← attempt ready with
    | .error _ => pure false
    | .ok serving => pure serving

def replace (j : Journal) : Script Phase := do
  quiesce
  ensureSchema "database schema changed during shutdown"
  validate j
  saveJournal { j with phase := .replacing }
  let here ← known j
  exchangeFrom .old here
  let there ← atTarget .new j
  ensure (there = true) (.other "replacement identity mismatch")
  saveJournal { j with phase := .starting }
  if ← launch j then do
    ensureSchema "candidate changed schema; rollback forbidden"
    saveJournal { j with phase := .committed }
    restoreGuis
    finalize { j with phase := .committed }
    pure .committed
  else do
    saveJournal { j with phase := .rollingBack }
    rollback { j with phase := .rollingBack }

def hexDigit (c : Char) : Bool := c.isDigit || ('a' ≤ c && c ≤ 'f') || ('A' ≤ c && c ≤ 'F')

def Journal.valid (j : Journal) : Bool :=
  j.schema = 1 && j.old.version.before j.new.version && j.nonce.utf8ByteSize = 64 &&
    j.nonce.toList.all hexDigit

def resumeLocked : Script Phase := do
  match ← load (·.journal) with
  | none => do
    let found ← load (·.lastResult)
    let last ← require (.other "no transaction") found
    ensure (last.schema = 1 ∧ last.phase.terminal) (.other "invalid final result")
    cleanupPendingLocked
    pure last.phase
  | some j => do
    ensure (j.valid = true) (.other "invalid journal")
    validate j
    ensureSchema "database schema changed; manual recovery required"
    let _ ← known j
    match j.phase with
    | .rolledBack => finish j .old j.old "rolled-back identity changed"
    | .committed => finish j .new j.new "committed identity changed"
    | .rollingBack => rollback j
    | .prepared => do
      saveJournal { j with phase := .quiescing }
      replace { j with phase := .quiescing }
    | .quiescing => replace j
    | .replacing => replace j
    | .starting => replace j

end Rieul.RootUpdate.Transaction
