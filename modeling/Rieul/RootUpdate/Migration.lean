import Mathlib.Data.List.Sort
import Mathlib.Data.List.Dedup

/-!
# The migration of the service (daemon/macos/src/root_update/migration.rs)

The worker resumes the migration from its record. A daemon that starts looks at the
record before it opens the database. Each reads and writes one file of the directory
at a time, and may end at any place; with a reboot all of them end.
-/

namespace Rieul.RootUpdate

def DATABASE_SCHEMA : ℕ := 2

inductive Phase where
  | prepared
  | stopping
  | registered
  | starting
  | complete
  deriving DecidableEq

def Phase.rank : Phase → ℕ
  | prepared => 0
  | stopping => 1
  | registered => 2
  | starting => 3
  | complete => 4

structure Identity where
  daemonSha256 : String
  deriving DecidableEq

structure Migration where
  schema : ℕ
  phase : Phase
  identity : Identity
  nonce : String
  deriving DecidableEq

structure Request where
  nonce : String
  daemonSha256 : String
  deriving DecidableEq

structure Receipt where
  request : Request
  pid : ℕ
  databaseSchema : ℕ

structure Parked where
  nonce : String
  pid : ℕ
  daemonSha256 : String

structure Policy where
  schema : ℕ
  enabled : Bool
  deriving DecidableEq

/-- `migrationGuis` are the users whose session is still to be started anew. -/
structure Dir where
  migration : Option Migration
  startRequest : Option Request
  ready : Option Receipt
  parked : Option Parked
  migrationGuis : Option (List ℕ)
  policy : Option Policy
  migrationResult : Option Migration

/-- `Request::validate`: 64 digits of a lower case hexadecimal number. -/
def Request.valid (request : Request) : Bool :=
  [request.nonce, request.daemonSha256].all fun value =>
    value.toList.length = 64 && value.toList.all fun c => c.isDigit || ('a' ≤ c && c ≤ 'f')

def Migration.request (m : Migration) : Request := ⟨m.nonce, m.identity.daemonSha256⟩

/-- `receipt::matches`. -/
def Receipt.isFor (receipt : Receipt) (request : Request) (launchdPid : ℕ)
    (observedHash : String) : Bool :=
  receipt.request = request && receipt.pid = launchdPid && 1 < launchdPid &&
    receipt.databaseSchema = DATABASE_SCHEMA && observedHash = request.daemonSha256

/-- `Native::sessions`: the users of the processes but root, each once and in order. -/
def sessions (processes : List ℕ) : List ℕ :=
  ((processes.filter (· ≠ 0)).dedup).insertionSort (· ≤ ·)

def initialGuis (processes : List ℕ) (discovered : ℕ → Bool) (console : ℕ) : List ℕ :=
  let uids := (sessions processes).filter discovered
  if console ≠ 0 ∧ console ∉ uids then uids ++ [console] else uids

/-- Who asks for the process that is ready: `Native::start` or `Native::health`. -/
inductive Use where
  | start
  | health

/-- What `resume` does next, in its order. -/
inductive Stage where
  | validate
  | saveStopping
  | stopLegacy
  | installRegistration
  | saveRegistered
  | saveStarting
  | inspectJob (use : Use)
  | readParked (use : Use) (pid : ℕ)
  | readReady (use : Use) (pid : ℕ)
  | verifyPid (pid : ℕ)
  | stopJob
  | removeReady
  | saveRequest
  | startJob
  | saveComplete
  | installAgent
  | loadGuis
  | discoverGuis
  | saveGuis (pending : List ℕ)
  | session (pending rest errors : List ℕ)
  | savePending (pending rest errors : List ℕ)
  | enable
  | saveResult
  | removeRecord
  | discardApp

inductive Worker where
  | launched
  | resuming (m : Migration) (stage : Stage)

/-- Where a daemon stands in `startup_with`, and then in the callback that writes its receipt;
`ownHash` is the digest of its executable. -/
inductive Daemon where
  | launched (ownHash : String)
  | bound (ownHash : String) (m : Migration)
  | inspected (ownHash : String) (m : Migration) (workerRunning : Bool)
  | allowed (ownHash : String)
  | refused (ownHash : String) (m : Migration)
  | parking (ownHash : String) (m : Migration)
  | waking
  | parked
  | capturing (ownHash : String)
  | serving (request : Option Request)
  | acknowledging (request : Request)
  deriving DecidableEq

/-- What happened in a resume; `tried` is the file of the pending users after all of them. -/
inductive ResumeEvent where
  | counted (pid : ℕ)
  | healthy (pid : ℕ)
  | session (uid : ℕ) (ok : Bool)
  | tried (pending : Option (List ℕ))
  | enabled
  deriving DecidableEq

/-- What a daemon read and did since its launch; `opened` is the record when it opens the
database. -/
inductive StartEvent where
  | read (record : Option Migration)
  | inspected (workerRunning : Bool)
  | requested (request : Option Request)
  | parks
  | opened (record : Option Migration)

/-- `resumed` is what happened in the last resume, `starts` what each process did since its launch,
the newest first. -/
structure Host where
  dir : Dir
  worker : Option Worker
  daemons : ℕ → Option Daemon
  resumed : List ResumeEvent
  starts : ℕ → List StartEvent

def Host.prepared (dir : Dir) (m : Migration) : Host where
  dir := { dir with
    migration := some { m with phase := .prepared }
    migrationGuis := none
    migrationResult := none }
  worker := none
  daemons := fun _ => none
  resumed := []
  starts := fun _ => []

namespace Host
variable (host : Host)

def note (event : ResumeEvent) : Host := { host with resumed := event :: host.resumed }

def goOn (m : Migration) (stage : Stage) : Host :=
  { host with worker := some (.resuming m stage) }

def resume : Option Host :=
  match host.worker with
  | some .launched => some (match host.dir.migration with
    | some m =>
      if m.schema = 1 then { host.goOn m .validate with resumed := [] }
      else { host with worker := none }
    | none => { host with worker := none })
  | _ => none

/-- `phase`. -/
def savePhase (m : Migration) (next : Phase) (stage : Stage) : Host :=
  { host with dir := { host.dir with migration := some { m with phase := next } } }.goOn
    { m with phase := next } stage

def stageOf : Phase → Stage
  | .prepared => .saveStopping
  | .stopping => .stopLegacy
  | .registered => .saveStarting
  | .starting => .inspectJob .start
  | .complete => .inspectJob .start

def absent : Use → Stage
  | .start => .removeReady
  | .health => .inspectJob .health

def unready : Use → Stage
  | .start => .stopJob
  | .health => .inspectJob .health

def readied : Use → ℕ → Stage
  | .start, _ => .inspectJob .health
  | .health, pid => .verifyPid pid

/-- The answer of `inspect(Job::System)`; a job may be there without a process. -/
def inspectJob (m : Migration) (job : Option (Option ℕ)) : Stage → Option Host
  | .inspectJob use => some (host.goOn m (match job with
    | none => absent use
    | some none => unready use
    | some (some pid) => .readParked use pid))
  | _ => none

def discoverGuis (m : Migration) (processes : List ℕ) (discovered : ℕ → Bool) (console : ℕ) :
    Stage → Option Host
  | .discoverGuis =>
    let pending := initialGuis processes discovered console
    if (sessions processes).length ≤ 256 ∧ pending.length ≤ 256 ∧ ∀ uid ∈ pending, 0 < uid then
      some (host.goOn m (.saveGuis pending))
    else none
  | _ => none

/-- A session is started anew, or is gone; `ok` is whether that succeeds. -/
def trySession (m : Migration) (ok : Bool) : Stage → Option Host
  | .session pending (uid :: rest) errors => some ((host.goOn m (
      if ok then .savePending (pending.filter (· ≠ uid)) rest errors
      else .session pending rest (errors ++ [uid]))).note (.session uid ok))
  | _ => none

def work (m : Migration) : Stage → Option Host
  | .validate => some (host.goOn m (stageOf m.phase))
  | .saveStopping => some (host.savePhase m .stopping .stopLegacy)
  | .stopLegacy => some (host.goOn m .installRegistration)
  | .installRegistration => some (host.goOn m .saveRegistered)
  | .saveRegistered => some (host.savePhase m .registered .saveStarting)
  | .saveStarting => some (host.savePhase m .starting (.inspectJob .start))
  | .readParked use pid => some (host.goOn m (
      if host.dir.parked.any fun parked => parked.nonce = m.nonce && parked.pid = pid then
        unready use
      else .readReady use pid))
  | .readReady use pid =>
    if host.dir.ready.any fun ready => ready.isFor m.request pid m.request.daemonSha256 then
      some ((host.goOn m (readied use pid)).note (.counted pid))
    else some (host.goOn m (unready use))
  | .verifyPid pid => some ((host.goOn m .saveComplete).note (.healthy pid))
  | .stopJob => some (host.goOn m .removeReady)
  | .removeReady =>
    some ({ host with dir := { host.dir with ready := none } }.goOn m .saveRequest)
  | .saveRequest =>
    some ({ host with dir := { host.dir with startRequest := some m.request } }.goOn m .startJob)
  | .startJob => some (host.goOn m (.inspectJob .health))
  | .saveComplete => some (host.savePhase m .complete .installAgent)
  | .installAgent => some (host.goOn m .loadGuis)
  | .loadGuis => some (host.goOn m (match host.dir.migrationGuis with
    | some pending => .session pending pending []
    | none => .discoverGuis))
  | .saveGuis pending => some ({ host with
      dir := { host.dir with migrationGuis := some pending } }.goOn m (.session pending pending []))
  | .session _ [] errors =>
    -- with an error the users that are left are tried by the next resume
    if errors = [] then some ((host.goOn m .enable).note (.tried host.dir.migrationGuis))
    else some ({ host with worker := none }.note (.tried host.dir.migrationGuis))
  | .savePending pending rest errors => some ({ host with
      dir := { host.dir with migrationGuis := some pending } }.goOn m
        (.session pending rest errors))
  | .enable => some (({ host with
      dir := { host.dir with policy := some ⟨1, true⟩ } }.goOn m .saveResult).note .enabled)
  | .saveResult => some ({ host with
      dir := { host.dir with migrationResult := some m } }.goOn m .removeRecord)
  | .removeRecord =>
    some ({ host with dir := { host.dir with migration := none } }.goOn m .discardApp)
  | .discardApp => some { host with worker := none }
  | _ => none

def become (pid : ℕ) (daemon : Option Daemon) : Host :=
  { host with daemons := Function.update host.daemons pid daemon }

def tell (pid : ℕ) (event : StartEvent) : Host :=
  { host with starts := Function.update host.starts pid (event :: host.starts pid) }

def ensureWorker : Host :=
  match host.worker with
  | some _ => host
  | none => { host with worker := some .launched }

/-- The next operation of the daemon; `schema` is that of the database it opened. -/
def daemonStep (pid schema : ℕ) : Daemon → Option Host
  | .launched ownHash => some (match host.dir.migration with
    | none => (host.become pid (some (.allowed ownHash))).tell pid (.read none)
    | some m =>
      if m.schema = 1 ∧ m.request.valid ∧ m.request.daemonSha256 = ownHash then
        (host.become pid (some (.bound ownHash m))).tell pid (.read (some m))
      else host.become pid none)
  | .bound ownHash m =>
    let workerRunning := host.worker.isSome
    some ((host.become pid (some (.inspected ownHash m workerRunning))).tell pid
      (.inspected workerRunning))
  | .inspected ownHash m workerRunning => some (
      if m.phase = .starting ∨ m.phase = .complete then
        (host.become pid (some (
          if host.dir.startRequest = some m.request ∧ workerRunning then .allowed ownHash
          else .refused ownHash m))).tell pid (.requested host.dir.startRequest)
      else host.become pid (some (.refused ownHash m)))
  | .allowed ownHash =>
    some ({ host with dir := { host.dir with parked := none } }.become pid
      (some (.capturing ownHash)))
  | .refused ownHash m =>
    some ({ host with dir := { host.dir with ready := none } }.become pid (some (.parking ownHash m)))
  | .parking ownHash m =>
    some (({ host with dir := { host.dir with parked := some ⟨m.nonce, pid, ownHash⟩ } }.become pid
      (some .waking)).tell pid .parks)
  | .waking => some (host.ensureWorker.become pid (some .parked))
  | .parked => none
  | .capturing ownHash => some (
      if host.dir.startRequest.all fun request => request.valid && request.daemonSha256 = ownHash then
        (host.become pid (some (.serving host.dir.startRequest))).tell pid
          (.opened host.dir.migration)
      else host.become pid none)
  | .serving (some request) => some (host.become pid (
      if request.valid ∧ 1 < pid ∧ schema = DATABASE_SCHEMA ∧
        host.dir.startRequest = some request then some (.acknowledging request) else none))
  | .serving none => none
  | .acknowledging request =>
    some ({ host with dir := { host.dir with ready := some ⟨request, pid, DATABASE_SCHEMA⟩ } }.become
      pid (some (.serving none)))

end Host

inductive HostStep where
  | launchWorker
  | endWorker
  | resume
  | work
  | inspectJob (job : Option (Option ℕ))
  | discoverGuis (processes : List ℕ) (discovered : ℕ → Bool) (console : ℕ)
  | trySession (ok : Bool)
  | launchDaemon (pid : ℕ) (ownHash : String)
  | endDaemon (pid : ℕ)
  | daemon (pid schema : ℕ)
  | reboot

namespace Host

def resuming (host : Host) (operation : Migration → Stage → Option Host) : Option Host :=
  match host.worker with
  | some (.resuming m stage) => operation m stage
  | _ => none

def step (host : Host) : HostStep → Option Host
  | .launchWorker => some host.ensureWorker
  | .endWorker => some { host with worker := none }
  | .resume => host.resume
  | .work => host.resuming host.work
  | .inspectJob job => host.resuming fun m stage => host.inspectJob m job stage
  | .discoverGuis processes discovered console =>
    host.resuming fun m stage => host.discoverGuis m processes discovered console stage
  | .trySession ok => host.resuming fun m stage => host.trySession m ok stage
  | .launchDaemon pid ownHash =>
    if host.daemons pid = none then
      some { host.become pid (some (.launched ownHash)) with
        starts := Function.update host.starts pid [] }
    else none
  | .endDaemon pid => some (host.become pid none)
  | .daemon pid schema => (host.daemons pid).bind (host.daemonStep pid schema)
  | .reboot => some { host with worker := none, daemons := fun _ => none }

end Host

end Rieul.RootUpdate
