import Mathlib.Data.Nat.Notation
import Mathlib.Data.List.Defs

/-!
# The update controller (daemon/macos/src/root_update/control.rs)

One operation runs at a time, on a thread of its own. Whoever launches one holds the
`command` lock; every other access is a section under the lock of `inner`, and a step
here is one such section. Files, downloads and the service manager answer as they like.
-/

namespace Rieul.RootUpdate.Control

inductive UpdatePhase where
  | unavailable
  | idle
  | checking
  | downloading
  | verifying
  | ready
  | deferred
  | installing
  | restarting
  | failed
  deriving DecidableEq

structure UpdateStatus where
  phase : UpdatePhase
  currentVersion : Option String
  targetVersion : Option String
  reason : Option String
  canInstall : Bool

/-- Times are in seconds; `completion` names the channel of the check that was launched last. -/
structure Inner where
  status : UpdateStatus
  completion : Option ℕ
  lastCheck : Option ℕ
  checkRetryAt : Option ℕ
  pendingManual : Bool
  lastDispatch : Option ℕ

inductive Task where
  | check (deferDiscovery : Bool)
  | dispatch (manual : Bool)
  | restart

def Task.phase : Task → UpdatePhase
  | check _ => .checking
  | dispatch _ => .installing
  | restart => .restarting

/-- What an operation does next, in the order of `check_candidate`, `dispatch` and
`restart_service`. -/
inductive Stage where
  | staged
  | announce
  | stamp
  | lock
  | journal
  | ready
  | verifyInstalled
  | latest
  | lookup
  | download (version : String)
  | fetch
  | verify
  | validate
  | finish (prepared : Option String)
  | install
  | submit
  | exit
  | report (phase : UpdatePhase) (reason : String)
  | gaveUp
  | done
  deriving DecidableEq

def Stage.start : Task → Stage
  | .check _ => announce
  | .dispatch true => staged
  | .dispatch false => install
  | .restart => exit

def Stage.checked : Task → Stage
  | .dispatch _ => install
  | _ => done

structure Operation where
  task : Task
  stage : Stage

inductive Caller where
  | tick
  | join
  | restart

/-- The caller has the `command` lock and has taken `running`. -/
inductive Launch where
  | admitted
  | accepted
  | spawning
  | returned
  deriving DecidableEq

structure Command where
  caller : Caller
  task : Task
  launch : Launch

/-- Where `tick` stands. -/
inductive Tick where
  | began (manual blocked due canDispatch : Bool)
  | observed (manual blocked due canDispatch : Bool) (status : UpdateStatus)
  | launching (task : Task)
  | launched

/-- `outcomes` is the value of each channel, `channels` how many there were, `subscribers` the
receivers that `join_check` has returned. -/
structure Controller where
  inner : Inner
  running : Bool
  command : Option Command
  operation : Option Operation
  ticking : Option Tick
  channels : ℕ
  outcomes : ℕ → Option UpdateStatus
  subscribers : List ℕ

/-- `service`. -/
def Controller.initial : Controller where
  inner := ⟨⟨.idle, none, none, none, false⟩, none, none, none, false, none⟩
  running := false
  command := none
  operation := none
  ticking := none
  channels := 0
  outcomes := fun _ => none
  subscribers := []

namespace Controller
variable (host : Controller)

/-- The channel of the check takes the first status that is not `checking`. -/
def publish : Controller :=
  match host.inner.completion with
  | some channel =>
    if host.inner.status.phase ≠ .checking ∧ host.outcomes channel = none then
      { host with outcomes := fun other =>
          if other = channel then some host.inner.status else host.outcomes other }
    else host
  | none => host

def withStatus (status : UpdateStatus) : Controller :=
  { host with inner := { host.inner with status := status } }

def set (phase : UpdatePhase) (reason : Option String) : Controller :=
  (host.withStatus { host.inner.status with phase := phase, reason := reason }).publish

def goOn (operation : Operation) (stage : Stage) : Controller :=
  { host with operation := some { operation with stage := stage } }

def failureText : String :=
  "Update could not complete. The existing service has been preserved where possible."

def restartText (reason : String) : String := "Daemon restart did not complete: " ++ reason

def fail (operation : Operation) (reason : String) : Controller :=
  match operation.task with
  | .restart => host.goOn operation (.report .failed (restartText reason))
  | _ => host.goOn operation (.report .failed failureText)

/-- `compare_exchange`, by a caller that has the `command` lock. -/
def enter (caller : Caller) (task : Task) : Controller :=
  { host with running := true, command := some ⟨caller, task, .admitted⟩ }

/-- The section that follows in `launch_locked`, and after it in its caller. -/
def launchStep (command : Command) : Controller :=
  match command.launch with
  | .admitted =>
    let host := { host with command := some { command with launch := .accepted } }
    match command.task with
    | .check _ => { host with
        inner := { host.inner with completion := some host.channels }
        channels := host.channels + 1 }
    | _ => { host with inner := { host.inner with completion := none } }
  | .accepted =>
    { host with command := some { command with launch := .spawning } }.set command.task.phase none
  | .spawning => { host with
      operation := some ⟨command.task, Stage.start command.task⟩
      command := some { command with launch := .returned } }
  | .returned =>
    let host := { host with command := none }
    match command.caller, command.task with
    | .join, _ => { host with subscribers := host.subscribers ++ host.inner.completion.toList }
    | .tick, .dispatch _ => { host with ticking := some .launched }
    | .tick, _ => { host with ticking := none }
    | .restart, _ => host

/-- `join_check`: the caller launches, or subscribes to the check that runs. -/
def joinCheck : Option Controller :=
  if host.command = none then
    if host.running then
      match host.inner.completion with
      | some channel => some { host with subscribers := host.subscribers ++ [channel] }
      | none => none
    else some (host.enter .join (.check false))
  else none

def sixHours : ℕ := 6 * 60 * 60

def checkDue (inner : Inner) (now : ℕ) : Bool :=
  match inner.checkRetryAt with
  | some retry => retry ≤ now
  | none => inner.lastCheck.all fun last => sixHours ≤ now - last

def dispatchAllowed (status : UpdateStatus) (manual canDispatch blocked : Bool) : Bool :=
  status.canInstall && canDispatch && !blocked && (manual || status.phase ≠ .failed)

def deferredText (manual : Bool) : String :=
  if manual then
    "Waiting for active terminals, commands, transfers and agent runtimes to finish"
  else "Automatic installation waits until all clients disconnect and active work finishes"

/-- `blocks` is `Workload::blocks_update`, `status` what `status` answers from the files. -/
inductive TickStep where
  | begin (blocks : Bool → Bool) (now : ℕ)
  | observe (status : Option UpdateStatus)
  | decide (now : ℕ)
  | launch
  | clear

def tick : TickStep → Option Controller
  | .begin blocks now =>
    if host.running = false ∧ host.ticking = none then
      let manual := host.inner.pendingManual
      some { host with ticking := some (.began manual (blocks manual) (checkDue host.inner now)
        (host.inner.lastDispatch.all fun last => 30 ≤ now - last)) }
    else none
  | .observe status =>
    match host.ticking with
    | some (.began manual blocked due canDispatch) =>
      some (match status with
        | none => { host with ticking := none }
        | some status =>
          if status.phase = .unavailable then { host with ticking := none }
          else
            let host := { host with
              ticking := some (.observed manual blocked due canDispatch status) }
            if status.canInstall && blocked then host.set .deferred (some (deferredText manual))
            else host)
    | _ => none
  | .decide now =>
    match host.ticking with
    | some (.observed manual blocked due canDispatch status) =>
      some (
        if dispatchAllowed status manual canDispatch blocked then
          { host with
            ticking := some (.launching (.dispatch manual))
            inner := { host.inner with lastDispatch := some now } }
        else if due ∧ (status.canInstall = false ∨ status.phase = .failed) ∧
            ¬ (status.phase = .installing ∨ status.phase = .restarting) then
          { host with ticking := some (.launching (.check true)) }
        else { host with ticking := none })
    | _ => none
  | .launch =>
    match host.ticking with
    | some (.launching task) =>
      if host.command = none then
        some (if host.running then { host with ticking := none } else host.enter .tick task)
      else none
    | _ => none
  | .clear =>
    match host.ticking with
    | some .launched =>
      some { host with ticking := none, inner := { host.inner with pendingManual := false } }
    | _ => none

def requestedText : String :=
  "Installation requested; active terminal, command, transfer or agent work must finish first"

/-- `queue_install` with the status that `status` answers. -/
def queueInstall (status : UpdateStatus) : Option Controller :=
  if host.command = none then
    if host.inner.pendingManual ∨ (host.running ∧ host.inner.completion = none) then
      some host.publish
    else if status.canInstall then
      some ({ host with inner := { host.inner with pendingManual := true } }.withStatus
        { status with phase := .deferred, reason := some requestedText }).publish
    else none
  else none

/-- `restart` where no candidate is prepared. -/
def requestRestart : Option Controller :=
  if host.command = none ∧ host.inner.pendingManual = false ∧ host.running = false then
    some (host.enter .restart .restart)
  else none

/-- What an operation is answered; where nothing is asked, `goOn`. -/
inductive Answer where
  | goOn (now : ℕ)
  | error (reason : String) (now : ℕ)
  | held (now : ℕ)
  | acquired
  | noJournal
  | journal (old new : String) (prepared : Bool)
  | installed (version : String)
  | found (version : Option String)
  | prepared (version : Option String)
  | busy (reason : String)

def waitingText : String :=
  "Waiting for the current update operation to finish before checking for releases"

/-- `discovery_lock` where the lock is held. -/
def deferDiscovery (now : ℕ) : Controller :=
  { host with inner := { host.inner with
      checkRetryAt := some (now + 30)
      status := { host.inner.status with phase := .checking, reason := some waitingText } } }

def lockHeld (operation : Operation) (now : ℕ) : Controller :=
  match operation.task with
  | .check true => (host.deferDiscovery now).goOn operation .gaveUp
  | .check false => (host.deferDiscovery now).fail operation "another updater process is finalizing"
  | _ => host.fail operation "Resource temporarily unavailable"

def operationStep (operation : Operation) : Stage → Answer → Option Controller
  | .staged, .noJournal => some (host.goOn operation .announce)
  | .staged, .journal _ _ _ => some (host.goOn operation .install)
  | .announce, .goOn _ => some ((host.set .checking
      (some "Verifying the installed app and protected runtime")).goOn operation .stamp)
  | .stamp, .goOn now => some ({ host with
      inner := { host.inner with
        lastCheck := some now
        checkRetryAt := none } }.goOn operation .lock)
  | .lock, .held now => some (host.lockHeld operation now)
  | .lock, .acquired =>
    let host := match operation.task with
      | .check _ => { host with inner := { host.inner with checkRetryAt := none } }
      | _ => host
    some (host.goOn operation .journal)
  | .journal, .noJournal => some (host.goOn operation .verifyInstalled)
  | .journal, .journal old new prepared =>
    some ((host.withStatus { host.inner.status with
      currentVersion := some old, targetVersion := some new, canInstall := prepared }).goOn
        operation .ready)
  | .ready, .goOn _ => some ((host.set .ready (some "A verified update is already staged")).goOn
      operation (Stage.checked operation.task))
  | .verifyInstalled, .installed version => some ((host.withStatus { host.inner.status with
      currentVersion := some version }).goOn operation .latest)
  -- `prepare_with_retry` may find that the policy is off
  | .latest, .prepared none => some (host.goOn operation (.finish none))
  | .latest, .goOn _ => some ((host.set .checking
      (some "Checking the official GitHub release")).goOn operation .lookup)
  | .lookup, .found none => some (host.goOn operation (.finish none))
  | .lookup, .found (some version) => some ((host.withStatus { host.inner.status with
      targetVersion := some version }).goOn operation (.download version))
  | .download _, .goOn _ => some ((host.set .downloading none).goOn operation .fetch)
  | .fetch, .goOn _ => some (host.goOn operation .verify)
  | .verify, .goOn _ => some ((host.set .verifying none).goOn operation .validate)
  | .validate, .prepared version => some (host.goOn operation (.finish version))
  | .finish version, .goOn now =>
    let status := match version with
      | some version => { host.inner.status with
          targetVersion := some version, phase := .ready, canInstall := true }
      | none => { host.inner.status with
          phase := .idle
          reason := some "No newer stable desktop release is available"
          canInstall := false }
    let host := { host with inner := { host.inner with lastCheck := some now, status := status } }
    some (host.publish.goOn operation (Stage.checked operation.task))
  | .install, .goOn _ => some ((host.set .installing none).goOn operation .submit)
  | .submit, .goOn _ => some (host.goOn operation .done)
  | .exit, .goOn _ => some (host.goOn operation .done)
  | .exit, .busy reason => some (host.goOn operation (.report .deferred
      (restartText ("update deferred: " ++ reason))))
  | .report phase reason, .goOn _ =>
    some ((host.set phase (some reason)).goOn operation .done)
  | .gaveUp, .goOn _ => some { host with running := false, operation := none }
  | .done, .goOn _ => some { host with running := false, operation := none }
  -- every other operation may return an error
  | .finish (some _), .error reason now =>
    some ({ host with inner := { host.inner with lastCheck := some now } }.fail operation reason)
  | .staged, .error reason _ | .lock, .error reason _ | .journal, .error reason _
  | .verifyInstalled, .error reason _ | .latest, .error reason _ | .lookup, .error reason _
  | .fetch, .error reason _ | .validate, .error reason _ | .submit, .error reason _
  | .exit, .error reason _ => some (host.fail operation reason)
  | _, _ => none

end Controller

inductive Step where
  | join
  | tick (step : Controller.TickStep)
  | launch
  | queueInstall (status : UpdateStatus)
  | requestRestart
  | watched (reason : String)
  | operation (answer : Controller.Answer)

namespace Controller

def step (host : Controller) : Step → Option Controller
  | .join => host.joinCheck
  | .tick step => host.tick step
  | .launch => host.command.map host.launchStep
  | .queueInstall status => host.queueInstall status
  | .requestRestart => host.requestRestart
  | .watched reason => some (host.set .failed (some reason))
  | .operation answer => host.operation.bind fun operation =>
      host.operationStep operation operation.stage answer

end Controller

end Rieul.RootUpdate.Control
