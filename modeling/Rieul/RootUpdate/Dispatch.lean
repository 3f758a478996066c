import Rieul.Lib.System
import Rieul.RootUpdate.Transaction

/-!
# Dispatch of an update (daemon/macos/src/root_update/runtime.rs, preparation.rs)

Discovery, dispatch, the worker and the cleanup of a starting service each run under
the lock of the state directory. Whoever holds it may end at any action; the files
stay as they are then.
-/

namespace Rieul.RootUpdate.Transaction
open Crash

def WorkerResult.failure (nonce : Option String) (error : Error) : WorkerResult where
  nonce := nonce
  phase := "failed"
  error := some error.text
  deferred := match error with
    | .deferred _ => true
    | .other _ => false

def WorkerResult.accepted (nonce : String) : WorkerResult := ⟨some nonce, "accepted", none, false⟩

def WorkerResult.failed (result : WorkerResult) (j : Journal) : Bool :=
  result.nonce = some j.nonce && result.error.isSome && !result.deferred

def rolledBackCandidate (last : Option Journal) (candidate : Identity) : Bool :=
  last.any fun last => last.schema = 1 && last.phase = .rolledBack &&
    last.new.version = candidate.version && last.new.daemonSha256 = candidate.daemonSha256

def Dir.requiresConfirmedRetry (d : Dir) (j : Journal) : Bool :=
  d.workerResult.any (·.failed j) || rolledBackCandidate d.lastResult j.new

/-- `old` is what is installed, `version` the latest release and `new` its verified candidate. -/
def prepareWithRetry (old : Identity) (version : Version) (new : Identity) (nonce : String)
    (confirmedRetry : Bool) : Script Bool := do
  let allowed ← look .effect fun i _ => .ok i.allowed
  if allowed = false then pure false
  else do
    let journal ← load (·.journal)
    ensure (journal = none) (.other "recover pending transaction before discovery")
    cleanupPendingLocked
    look .effect fun _ _ => .ok ()
    if old.version.before version = false then pure false
    else do
      write .clean fun w => { w with incoming := none }
      write .effect fun w => { w with incoming := some new.app }
      look .effect fun _ _ => .ok ()
      ensure (new.version = version) (.other "verifier returned wrong version")
      let last ← load (·.lastResult)
      if confirmedRetry = false ∧ rolledBackCandidate last new then do
        write .clean fun w => { w with incoming := none }
        pure false
      else do
        prepareLocked old new nonce
        pure true

def requiresConfirmedRetry (j : Journal) : Script Bool := do
  let result ← load (·.workerResult)
  if result.any (·.failed j) then pure true
  else do
    let last ← load (·.lastResult)
    pure (rolledBackCandidate last j.new)

def ensureWorker : Script Unit := write .submit fun w => { w with submitted := true }

def interrupted : Error :=
  .other "dispatch interrupted before completion; explicit retry required"

def saveResult (label : Label) (result : WorkerResult) : Script Unit :=
  save label fun d => { d with workerResult := some result }

def intend (manual : Bool) (j : Journal) : Script Unit :=
  save (.intend manual) fun d => { d with
    installRequest := if manual then some ⟨j.nonce, true⟩ else none }

def dispatchAttempt (manual : Bool) : Script Unit := do
  let found ← load (·.journal)
  let j ← require (.other "no prepared update") found
  let confirm ← (if manual then pure false else requiresConfirmedRetry j : Script Bool)
  ensure (confirm = false) (.other "explicit confirmed retry required")
  -- The failure comes first: what follows may be cut anywhere.
  saveResult (.mark j.nonce) (.failure (some j.nonce) interrupted)
  match ← attempt (do intend manual j; ensureWorker) with
  | .ok _ => pure ()
  | .error e => do
    saveResult (.refuse (.failure (some j.nonce) e)) (.failure (some j.nonce) e)
    throw e

def verifyWorker : Script Unit := look .verify fun _ _ => .ok ()

/-- The journal is still that of `nonce`, or retired under it. -/
def current (nonce : String) : Script Bool := do
  match ← load (·.journal) with
  | some j => pure (j.nonce = nonce)
  | none => do
    let last ← load (·.lastResult)
    pure (last.any fun last => last.nonce = nonce)

def publish (nonce : String) : Except Error Phase → Script Unit
  | .ok phase => do
    let result : WorkerResult := ⟨some nonce, phase.text, none, false⟩
    saveResult (.publish nonce result) result
  | .error e => do
    -- The drain request is removed.
    look .effect fun _ _ => .ok ()
    saveResult (.publish nonce (.failure (some nonce) e)) (.failure (some nonce) e)

def runTransactionWorker (execute : Script Phase) : Script Unit := do
  match ← load (·.journal) with
  | none => do
    verifyWorker
    cleanupPendingLocked
  | some j => do
    let outcome ← attempt (do
      verifyWorker
      saveResult (.accept j.nonce) (.accepted j.nonce)
      execute)
    if ← current j.nonce then publish j.nonce outcome else pure ()

def cleanupRetired : Script Unit := do
  let journal ← load (·.journal)
  if journal.isSome then pure () else cleanupPendingLocked

abbrev Program := Prog World Answer Label (Except Error Unit)

/-- `running` holds the lock. -/
structure Host where
  world : World
  running : Option (Job × Program)
  log : Log

inductive Action where
  | prepare (old : Identity) (version : Version) (new : Identity) (nonce : String)
      (confirmedRetry : Bool)
  | dispatch (manual : Bool)
  | cleanup
  /-- launchd has started a worker: for a dispatch, for a service that parks, or once more. -/
  | worker
  /-- The next action of whoever holds the lock. -/
  | answer (i : Answer)
  /-- Whoever holds the lock ends. -/
  | crash

def Host.enter (h : Host) (job : Job) (program : Script Unit) : Host :=
  match h.running with
  | none => { h with running := some (job, program) }
  | some _ => h

def Host.continue (h : Host) (job : Job) (p : Program) (i : Answer) : Host :=
  let next := p.next job i h.world h.log
  { world := next.2.1
    running := match next.1 with
      | .done _ => none
      | rest => some (job, rest)
    log := next.2.2 }

def Host.step (h : Host) : Action → Host
  | .prepare old version new nonce confirmedRetry => h.enter .prepare do
    let _ ← prepareWithRetry old version new nonce confirmedRetry
  | .dispatch manual => h.enter (.dispatch manual) (dispatchAttempt manual)
  | .cleanup => h.enter .cleanup cleanupRetired
  | .worker => h.enter .worker (runTransactionWorker resumeLocked)
  | .answer i => match h.running with
    | none => h
    | some (job, p) => h.continue job p i
  | .crash => { h with running := none }

def Host.Reached (h : Host) : Prop :=
  System.Reachable (fun h => ∃ world, h = ⟨world, none, []⟩) (fun h t => ∃ a, t = h.step a) h

end Rieul.RootUpdate.Transaction
