import Rieul.Web.MachineStore

/-!
# The session of a machine (web/src/state/rpc-session.ts)

The controller opens one transport after the other. Each call runs to its next
`await` without a break; what waits there goes on with a later step, and which one
is next is open. A constructor of a transport that throws is a connection that fails.
-/

namespace Rieul.Web.RpcSession
open Rieul.Web (Machine)

structure Error where
  message : String
  invalidCredentials : Bool := false
  deriving DecidableEq

inductive ConnectionState where
  | idle
  | reachable (rttMs : Option ℕ)
  | offline

structure DaemonInfo where
  instanceId : String
  supportedProcIds : List ℕ

inductive DaemonInfoState where
  | idle
  | loading
  | ready (daemonInfo : DaemonInfo)
  | error (message : String)

/-- `record` is the cluster of the record that came with the status. -/
structure ClusterStatus where
  message : String
  supported : Bool
  record : Option String := none

structure RpcSessionState where
  connection : ConnectionState
  daemonInfo : DaemonInfoState
  cluster : ClusterStatus

def initialRpcSessionState : RpcSessionState :=
  ⟨.idle, .idle, ⟨"Connect to read cluster status.", false, none⟩⟩

def DaemonInfoState.info : DaemonInfoState → Option DaemonInfo
  | ready daemonInfo => some daemonInfo
  | _ => none

structure Write where
  generation : ℕ
  attempt : Option ℕ
  sessionGeneration : ℕ
  rpcSession : Option ℕ

/-- Where `authenticateManagedSession` waits, or how it ended. -/
inductive Authentication where
  | cluster (identity : String)
  | applying
  | credential (clientId : String)
  | done
  | refused (error : Error)
  deriving DecidableEq

/-- Where `openRpcSession` waits, or how it ended. -/
inductive Stage where
  | connecting
  | connected
  | authenticating (authentication : Authentication)
  | renewing
  | renewed
  | returned
  | failed (error : Error)
  deriving DecidableEq

inductive Race where
  | pending
  | resolved
  | rejected (error : Error)
  deriving DecidableEq

inductive Transport where
  | opened
  | closed

/-- `ManagedRpcSession`; the datagram runtime is closed with it. -/
structure Session where
  closed : Bool := false
  authenticatedClientId : Option String := none
  renewalTimer : Bool := false
  clusterTimer : Bool := false
  clusterSyncing : Bool := false
  newPairing : Bool := false
  nextPingId : ℕ := 0
  pendingPing : Option ℕ := none

/-- One run of `openRpcSession`, raced against its deadline. `caught` says that the
handler of the rejection has run. -/
structure Attempt where
  generation : ℕ
  machine : Machine
  aborted : Bool := false
  deadline : Bool := true
  stage : Stage := .connecting
  transport : Transport := .opened
  session : Option Session := none
  race : Race := .pending
  caught : Bool := false

inductive Task where
  | initial (generation : ℕ) (attempt : Option ℕ)
  | orphan (attempt : ℕ)
  | authenticated (attempt : ℕ) (machine : Machine)
  | authenticating (attempt : ℕ) (authentication : Authentication)
  | info (generation attempt : ℕ)
  | infoReply (generation attempt : ℕ)
  | synchronize (attempt : ℕ)
  | applied (attempt : ℕ) (status : ClusterStatus)
  | startPairing (attempt : ℕ)
  | pairingStarted
  | completePairing (attempt : ℕ)
  | credentials
  | paired (attempt : ℕ) (clientId : String)

def Task.awaits : Task → Option ℕ
  | initial _ attempt => attempt
  | orphan a => a
  | authenticated a _ => a
  | info _ a => a
  | startPairing a => a
  | completePairing a => a
  | paired a _ => a
  | _ => none

/-- What a task is answered: `settled` is the promise of the session it waits for. -/
inductive Reply where
  | settled
  | done
  | error (error : Error)
  | info (daemonInfo : DaemonInfo)
  | status (status : ClusterStatus)
  | credentials (clientId : String)

inductive Event where
  | deadline
  | opening (error : Option Error)
  | opened
  | aborted
  | caught
  | failed
  | ping
  | pingTimeout (pingId : ℕ)
  | pong (pingId rttMs : ℕ)
  | clusterTimer

structure Timer where
  id : ℕ
  ceiling : ℕ
  deriving DecidableEq

inductive Step where
  | machine (machine : Option Machine)
  | reconnect
  | closeRpcSession
  | close
  | resume (hidden : Bool) (now : ℤ)
  | webTransport
  | startPairing
  | completePairing
  | refreshCluster
  | retry (timer : Timer)
  | task (index : ℕ) (reply : Reply)
  | attempt (a : ℕ) (event : Event)

structure Controller where
  machine : Option Machine
  closed : Bool := false
  sessionGeneration : ℕ := 0
  pairingStarted : Bool := false
  paused : Bool := false
  retryCount : ℕ := 0
  retryTimer : Option Timer := none
  attempt : Option ℕ := none
  managed : Option ℕ := none
  lastResume : Option ℤ := none
  rpcSession : Option ℕ := none
  state : RpcSessionState := initialRpcSessionState
  timers : List Timer := []
  nextTimer : ℕ := 0
  attempts : List Attempt := []
  tasks : List Task := []
  writes : List Write := []

/-- `nextDatagramPingId`. -/
def Session.nextDatagramPingId (session : Session) : ℕ :=
  if session.nextPingId ≥ 2 ^ 53 - 1 then 1 else session.nextPingId + 1

def Session.sendDatagramPing (session : Session) : Session :=
  if session.closed || session.pendingPing.isSome then session
  else
    let pingId := session.nextDatagramPingId
    { session with nextPingId := pingId, pendingPing := some pingId }

def Session.clearPendingDatagramPing (session : Session) : Session :=
  { session with pendingPing := none }

/-- `manageRpcSession`. -/
def Session.start : Session := Session.sendDatagramPing {}

def Session.close (session : Session) : Session :=
  { session with closed := true, renewalTimer := false, clusterTimer := false, pendingPing := none }

/-- `closeManagedRpcSession`. -/
def Attempt.closeSession (attempt : Attempt) : Attempt :=
  match attempt.session with
  | some session =>
    if session.closed then attempt
    else { attempt with session := some session.close, transport := .closed }
  | none => attempt

def Attempt.onSession (attempt : Attempt) (f : Session → Session) : Attempt :=
  { attempt with session := attempt.session.map f }

namespace Controller

def onAttempt (s : Controller) (a : ℕ) (f : Attempt → Attempt) : Controller :=
  { s with attempts := s.attempts.modify a f }

def onSession (s : Controller) (a : ℕ) (f : Session → Session) : Controller :=
  s.onAttempt a (·.onSession f)

def closeManagedRpcSession (s : Controller) (a : ℕ) : Controller :=
  s.onAttempt a Attempt.closeSession

def session (s : Controller) (a : ℕ) : Option (ℕ × Session) :=
  s.attempts[a]?.bind fun attempt => attempt.session.map (attempt.generation, ·)

def spawn (s : Controller) (task : Task) : Controller := { s with tasks := task :: s.tasks }

def setState (s : Controller) (generation : ℕ) (attempt : Option ℕ)
    (f : RpcSessionState → RpcSessionState) : Controller :=
  { s with
    state := f s.state
    writes := ⟨generation, attempt, s.sessionGeneration, s.rpcSession⟩ :: s.writes }

def setConnectionOffline (s : Controller) (generation : ℕ) (attempt : Option ℕ) : Controller :=
  s.setState generation attempt fun state => { state with connection := .offline, daemonInfo := .idle }

/-- `setDatagramRtt` as the session of the attempt calls it. -/
def setDatagramRtt (s : Controller) (generation a rttMs : ℕ) : Controller :=
  if !s.closed && generation = s.sessionGeneration then
    s.setState generation a fun state =>
      match state.connection with
      | .reachable _ => { state with connection := .reachable (some rttMs) }
      | _ => state
  else s

/-- `clearTimeout(timer)`. -/
def clearTimeout (timers : List Timer) : Option Timer → List Timer
  | some timer => timers.erase timer
  | none => timers

def cancelRetry (s : Controller) : Controller :=
  { s with timers := clearTimeout s.timers s.retryTimer, retryTimer := none }

def scheduleRetry (s : Controller) : Controller :=
  if s.closed || s.paused || s.retryTimer.isSome then s
  else
    let timer := ⟨s.nextTimer, min 10000 (500 * 2 ^ min s.retryCount 5)⟩
    { s with
      retryCount := s.retryCount + 1
      retryTimer := some timer
      timers := timer :: s.timers
      nextTimer := s.nextTimer + 1 }

/-- `attempt?.abort(...)`. -/
def abortAttempt (attempts : List Attempt) : Option ℕ → List Attempt
  | some a => attempts.modify a fun attempt => { attempt with aborted := true }
  | none => attempts

/-- `if (managed) closeManagedRpcSession(managed)`. -/
def closeManaged (attempts : List Attempt) : Option ℕ → List Attempt
  | some a => attempts.modify a Attempt.closeSession
  | none => attempts

/-- `session?.then(closeManagedRpcSession)`. -/
def closeLater (tasks : List Task) : Option ℕ → List Task
  | some a => .orphan a :: tasks
  | none => tasks

/-- `invalidateSession` up to what it shows. -/
def dropSession (s : Controller) : Controller :=
  let s := s.cancelRetry
  let s := { s with sessionGeneration := s.sessionGeneration + 1 }
  let s := { s with attempts := abortAttempt s.attempts s.attempt, attempt := none }
  let s := { s with attempts := closeManaged s.attempts s.managed, managed := none }
  let s := { s with pairingStarted := false }
  { s with tasks := closeLater s.tasks s.rpcSession, rpcSession := none }

def invalidateSession (s : Controller) : Controller :=
  let s := s.dropSession
  if s.closed then s else s.setConnectionOffline s.sessionGeneration none

def loseSession (s : Controller) (generation : ℕ) (error : Option Error) : Controller :=
  if s.closed || generation ≠ s.sessionGeneration then s
  else
    let s := s.invalidateSession
    let s := if error.any (·.invalidCredentials) then { s with paused := true } else s
    s.scheduleRetry

/-- The promise is that of an attempt, or was rejected. The throw for a machine that
is missing is a rejection here; the callers that tell them apart say so. -/
def getRpcSession (s : Controller) : Controller × Except Error ℕ :=
  if s.closed || s.paused then (s, .error ⟨"RPC session is disconnected", false⟩)
  else
    match s.rpcSession with
    | some a => (s, .ok a)
    | none =>
      let s := s.cancelRetry
      match s.machine with
      | none => (s, .error ⟨"missing machine", false⟩)
      | some machine =>
        let a := s.attempts.length
        let attempts := s.attempts ++ [{ generation := s.sessionGeneration, machine }]
        ({ s with attempts, attempt := some a, rpcSession := some a }, .ok a)

/-- The `catch` of `openInitialSession`. -/
def openFailed (s : Controller) (generation : ℕ) (attempt : Option ℕ) : Controller :=
  if !s.closed && generation = s.sessionGeneration then s.setConnectionOffline generation attempt else s

def openInitialSession (s : Controller) : Controller :=
  let generation := s.sessionGeneration
  let disconnected := s.closed || s.paused
  match s.getRpcSession with
  | (s, .ok a) => s.spawn (.initial generation (some a))
  | (s, .error _) =>
    if disconnected then s.spawn (.initial generation none) else s.openFailed generation none

def closeRpcSession (s : Controller) : Controller := { s with paused := true }.invalidateSession

def close (s : Controller) : Controller :=
  if s.closed then s else { s with closed := true }.closeRpcSession

def reconnect (s : Controller) : Controller :=
  if s.closed then s
  else { s.invalidateSession with paused := false, retryCount := 0 }.openInitialSession

def resume (s : Controller) (hidden : Bool) (now : ℤ) : Controller :=
  if s.closed || s.paused || hidden then s
  else if s.lastResume.any (now - · < 250) then s
  else
    let s := { s with lastResume := some now }
    match s.managed.bind fun a => (s.session a).map (a, ·.2), s.state.connection with
    | some (a, session), .reachable _ =>
      if session.closed then s.reconnect
      else s.onSession a fun session => session.clearPendingDatagramPing.sendDatagramPing
    | _, _ => s.reconnect

/-- `instantiateController` for a machine that is there. -/
def instantiate (machine : Machine) : Controller := { machine := some machine : Controller }.reconnect

def refreshCluster (s : Controller) (daemonInfoOverride : Option DaemonInfo) : Controller :=
  let info := daemonInfoOverride <|> s.state.daemonInfo.info
  match s.managed with
  | none => s
  | some a =>
    match s.session a with
    | none => s
    | some (_, session) =>
      if session.closed || s.closed || session.clusterSyncing ||
          session.authenticatedClientId.isNone || s.machine.isNone || info.isNone then s
      else
        (s.onSession a fun session => { session with clusterTimer := false, clusterSyncing := true }).spawn
          (.synchronize a)

/-- `!closed && !session.closed && session.generation === sessionGeneration`. -/
def valid (s : Controller) (a : ℕ) : Bool :=
  !s.closed && (s.session a).any fun (generation, session) =>
    !session.closed && generation = s.sessionGeneration

/-- The `finally` of `refreshCluster`. -/
def endRefresh (s : Controller) (a : ℕ) : Controller :=
  let s := s.onSession a fun session => { session with clusterSyncing := false }
  if s.valid a then s.onSession a fun session => { session with clusterTimer := true } else s

def setCluster (s : Controller) (a : ℕ) (f : ClusterStatus → ClusterStatus) : Controller :=
  match s.session a with
  | some (generation, _) => s.setState generation a fun state => { state with cluster := f state.cluster }
  | none => s

/-- The `catch` of `refreshCluster`, and its `finally`. -/
def refreshFailed (s : Controller) (a : ℕ) (message : String) : Controller :=
  let s := if s.valid a then s.setCluster a fun cluster =>
      { cluster with message := "Cluster sync: " ++ message ++ ". Local pairing is unchanged." } else s
  s.endRefresh a

def refreshed (s : Controller) (a : ℕ) (status : ClusterStatus) : Controller :=
  let s := if s.valid a then s.setCluster a fun _ => status else s
  s.endRefresh a

/-- `synchronizeCluster` was answered. -/
def synchronized (s : Controller) (a : ℕ) : Except String ClusterStatus → Controller
  | .error message => s.refreshFailed a message
  | .ok status =>
    if s.valid a then
      match status.record with
      | some _ =>
        (s.onSession a fun session => { session with newPairing := false }).spawn (.applied a status)
      | none => s.refreshed a status
    else s.endRefresh a

end Controller

def truthy (value : Option String) : Option String := value.filter (· ≠ "")

def pairedClient (machine : Machine) : Option String := do
  let clientId ← truthy machine.clientId
  let _ ← truthy machine.clientSecret
  some clientId

namespace Controller

def stale : Error := ⟨"RPC session was closed", false⟩

def authenticateManagedSessionWithCredential (s : Controller) (a : ℕ) (clientId : String) :
    Authentication :=
  if !s.valid a then .refused stale
  else if (s.session a).any (·.2.authenticatedClientId = some clientId) then .done
  else .credential clientId

def authenticateManagedSession (s : Controller) (a : ℕ) (machine : Machine) : Authentication :=
  match pairedClient machine, machine.cluster with
  | some clientId, _ => s.authenticateManagedSessionWithCredential a clientId
  | none, some cluster =>
    let identity := "cluster:" ++ cluster.id ++ ":" ++ cluster.admissionId
    if (s.session a).any (·.2.authenticatedClientId = some identity) then .done else .cluster identity
  | none, none => .refused ⟨"missing paired client credentials", false⟩

/-- What `authenticateManagedSession` waits for was answered. -/
def answerAuthentication (s : Controller) (a : ℕ) (authentication : Authentication)
    (error : Option Error) : Controller × Authentication :=
  match authentication, error with
  | .cluster _, some error => (s, .refused error)
  | .cluster identity, none =>
    if s.valid a then
      (s.onSession a fun session => { session with authenticatedClientId := some identity }, .applying)
    else (s, .refused stale)
  | .applying, some error => (s, .refused error)
  | .applying, none => (s, .done)
  | .credential _, some error => (s, .refused error)
  | .credential clientId, none =>
    if s.valid a then
      let s := s.onSession a fun session =>
        { session with authenticatedClientId := some clientId, renewalTimer := true }
      (s.refreshCluster none, .done)
    else (s, .refused stale)
  | .done, _ => (s, .done)
  | .refused error, _ => (s, .refused error)

/-- `closed || generation !== sessionGeneration`. -/
def superseded (s : Controller) (generation : ℕ) : Bool :=
  s.closed || generation ≠ s.sessionGeneration

/-- `closeManagedRpcSession(session); throw error`. -/
def throwClosed (s : Controller) (a : ℕ) (error : Error) : Controller :=
  s.onAttempt a fun attempt => { attempt.closeSession with stage := .failed error }

def await (s : Controller) (a : ℕ) (stage : Stage) : Controller :=
  s.onAttempt a fun attempt => { attempt with stage }

/-- `refreshDaemonInfoForCurrentMachine`, with the loading state already set. -/
def refreshDaemonInfo (s : Controller) (a : ℕ) : Controller :=
  let generation := s.sessionGeneration
  match s.getRpcSession with
  | (s, .ok b) => s.spawn (.info generation b)
  | (s, .error error) =>
    if s.superseded generation then s
    else s.setState generation a fun state => { state with daemonInfo := .error error.message }

/-- The end of `openRpcSession`. -/
def reach (s : Controller) (a generation : ℕ) : Controller :=
  let s := { s with retryCount := 0 }
  let s := s.setState generation a fun state =>
    { state with connection := .reachable none, daemonInfo := .loading }
  (s.refreshDaemonInfo a).await a .returned

/-- `openRpcSession` goes on: what it waits for was answered, or failed with `error`. -/
def continueOpening (s : Controller) (a : ℕ) (attempt : Attempt) (error : Option Error) :
    Option Controller :=
  match attempt.stage, error with
  | .connecting, none => some (s.await a .connected)
  | .connecting, some error =>
    some (s.onAttempt a fun attempt => { attempt with transport := .closed, stage := .failed error })
  | .connected, _ =>
    let s := s.onAttempt a fun attempt => { attempt with session := some Session.start }
    if s.superseded attempt.generation then some (s.throwClosed a stale)
    else
      let s := { s with managed := some a }
      if attempt.machine.cluster.isSome || (pairedClient attempt.machine).isSome then
        some (s.await a (.authenticating (s.authenticateManagedSession a attempt.machine)))
      else some (s.reach a attempt.generation)
  | .authenticating .done, _ =>
    if s.superseded attempt.generation then some (s.throwClosed a stale)
    else if s.machine.any fun machine => (pairedClient machine).isSome then some (s.await a .renewing)
    else some (s.await a .renewed)
  | .authenticating (.refused error), _ => some (s.throwClosed a error)
  | .authenticating authentication, error =>
    let (s, authentication) := s.answerAuthentication a authentication error
    some (s.await a (.authenticating authentication))
  | .renewing, _ => some (s.await a .renewed)
  | .renewed, _ =>
    if s.superseded attempt.generation then some (s.throwClosed a stale)
    else some (s.reach a attempt.generation)
  | .returned, _ => none
  | .failed _, _ => none

def settle (s : Controller) (a : ℕ) (race : Race) : Controller :=
  s.onAttempt a fun attempt => { attempt with race, deadline := false }

/-- `openRpcSession` ended first. -/
def settleOpened (s : Controller) (a : ℕ) (attempt : Attempt) : Option Controller :=
  match attempt.race, attempt.stage with
  | .pending, .returned => some (s.settle a .resolved)
  | .pending, .failed error => some (s.settle a (.rejected error))
  | _, _ => none

def settleAborted (s : Controller) (a : ℕ) (attempt : Attempt) : Option Controller :=
  match attempt.race, attempt.aborted with
  | .pending, true => some (s.settle a (.rejected ⟨"RPC connection timed out", false⟩))
  | _, _ => none

/-- `session.catch`. -/
def catchRejection (s : Controller) (a : ℕ) (attempt : Attempt) : Option Controller :=
  match attempt.race, attempt.caught with
  | .rejected error, false =>
    let s := s.onAttempt a fun attempt => { attempt with caught := true }
    some (if s.rpcSession = some a then s.loseSession attempt.generation (some error) else s)
  | _, _ => none

/-- `fail` of `manageRpcSession`: the transport ended or its datagrams failed. -/
def failSession (s : Controller) (a : ℕ) (attempt : Attempt) : Option Controller := do
  let session ← attempt.session
  guard (session.closed = false)
  some ((s.closeManagedRpcSession a).loseSession attempt.generation none)

/-- `authenticatedWebTransport`. -/
def webTransport (s : Controller) : Controller :=
  match s.machine with
  | none => s
  | some machine =>
    if machine.cluster.isNone && (pairedClient machine).isNone then s
    else
      match s.getRpcSession with
      | (s, .ok a) => s.spawn (.authenticated a machine)
      | (s, .error _) => s

def startPairingSession (s : Controller) : Controller :=
  match s.machine with
  | none => s
  | some _ =>
    match { s with pairingStarted := false }.getRpcSession with
    | (s, .ok a) => s.spawn (.startPairing a)
    | (s, .error _) => s

def completePairingSession (s : Controller) : Controller :=
  match s.pairingStarted, s.rpcSession with
  | true, some a => s.spawn (.completePairing a)
  | _, _ => s

/-- `withControllerRpcSession` has the session. -/
def withControllerRpcSession (s : Controller) (a : ℕ) (task : Task) : Controller :=
  if s.closed || s.rpcSession ≠ some a then s.closeManagedRpcSession a else s.spawn task

def spawnAuthentication (s : Controller) (a : ℕ) (authentication : Authentication) : Controller :=
  match authentication with
  | .done | .refused _ => s
  | authentication => s.spawn (.authenticating a authentication)

def infoFailed (s : Controller) (generation a : ℕ) (error : Error) : Controller :=
  if s.superseded generation then s
  else s.setState generation a fun state => { state with daemonInfo := .error error.message }

def resumeTask (s : Controller) (task : Task) (error : Option Error) : Controller :=
  match task, error with
  | .initial generation attempt, some _ => s.openFailed generation attempt
  | .orphan a, none => s.closeManagedRpcSession a
  | .authenticated a machine, none =>
    s.spawnAuthentication a (s.authenticateManagedSession a machine)
  | .info generation a, none =>
    if s.superseded generation then s else s.spawn (.infoReply generation a)
  | .info generation a, some error => s.infoFailed generation a error
  | .startPairing a, none => s.withControllerRpcSession a .pairingStarted
  | .completePairing a, none => s.withControllerRpcSession a .credentials
  | .paired a clientId, none =>
    let s := s.onSession a fun session => { session with newPairing := true }
    s.spawnAuthentication a (s.authenticateManagedSessionWithCredential a clientId)
  | _, _ => s

def answerTask (s : Controller) (task : Task) (reply : Reply) : Option Controller :=
  match task, reply with
  | .initial generation none, .settled => some (s.openFailed generation none)
  | .authenticating a authentication, .done =>
    let (s, authentication) := s.answerAuthentication a authentication none
    some (s.spawnAuthentication a authentication)
  | .authenticating a authentication, .error error =>
    let (s, authentication) := s.answerAuthentication a authentication (some error)
    some (s.spawnAuthentication a authentication)
  | .infoReply generation a, .info daemonInfo =>
    if s.superseded generation then some s
    else
      let s := s.setState generation a fun state => { state with daemonInfo := .ready daemonInfo }
      some (s.refreshCluster daemonInfo)
  | .infoReply generation a, .error error => some (s.infoFailed generation a error)
  | .synchronize a, .status status => some (s.synchronized a (.ok status))
  | .synchronize a, .error error => some (s.synchronized a (.error error.message))
  | .applied a status, .done => some (s.refreshed a status)
  | .applied a _, .error error => some (s.refreshFailed a error.message)
  | .pairingStarted, .done => some { s with pairingStarted := true }
  | .pairingStarted, .error _ => some s
  | .credentials, .credentials clientId =>
    match s.rpcSession with
    | some a => some (s.spawn (.paired a clientId))
    | none => some s
  | .credentials, .error _ => some s
  | task, .settled => do
    let a ← task.awaits
    let attempt ← s.attempts[a]?
    match attempt.race with
    | .pending => none
    | .resolved => some (s.resumeTask task none)
    | .rejected error => some (s.resumeTask task error)
  | _, _ => none

/-- The step of the task at `index`. -/
def runTask (s : Controller) (index : ℕ) (reply : Reply) : Option Controller := do
  let task ← s.tasks[index]?
  { s with tasks := s.tasks.eraseIdx index }.answerTask task reply

def retry (s : Controller) (timer : Timer) : Option Controller := do
  guard (timer ∈ s.timers)
  some { s with timers := s.timers.erase timer, retryTimer := none }.openInitialSession

def expire (s : Controller) (a : ℕ) (attempt : Attempt) : Option Controller := do
  guard (attempt.deadline = true)
  some (s.onAttempt a fun attempt => { attempt with aborted := true, deadline := false })

def timeOut (s : Controller) (a pingId : ℕ) (attempt : Attempt) : Option Controller := do
  let session ← attempt.session
  guard (session.pendingPing = some pingId)
  s.failSession a attempt

def pong (s : Controller) (a pingId rttMs : ℕ) (attempt : Attempt) : Option Controller := do
  let session ← attempt.session
  guard (session.closed = false)
  if session.pendingPing = some pingId then
    let s := s.onSession a Session.clearPendingDatagramPing
    some (s.setDatagramRtt attempt.generation a rttMs)
  else some s

def clusterTimer (s : Controller) (a : ℕ) (attempt : Attempt) : Option Controller := do
  let session ← attempt.session
  guard (session.clusterTimer = true)
  some ((s.onSession a fun session => { session with clusterTimer := false }).refreshCluster none)

def step (s : Controller) : Step → Option Controller
  | .machine machine => some { s with machine }
  | .reconnect => some s.reconnect
  | .closeRpcSession => some s.closeRpcSession
  | .close => some s.close
  | .resume hidden now => some (s.resume hidden now)
  | .webTransport => some s.webTransport
  | .startPairing => some s.startPairingSession
  | .completePairing => some s.completePairingSession
  | .refreshCluster => some (s.refreshCluster none)
  | .retry timer => s.retry timer
  | .task index reply => s.runTask index reply
  | .attempt a event => do
    let attempt ← s.attempts[a]?
    match event with
    | .deadline => s.expire a attempt
    | .opening error => s.continueOpening a attempt error
    | .opened => s.settleOpened a attempt
    | .aborted => s.settleAborted a attempt
    | .caught => s.catchRejection a attempt
    | .failed => s.failSession a attempt
    | .ping => some (s.onSession a Session.sendDatagramPing)
    | .pingTimeout pingId => s.timeOut a pingId attempt
    | .pong pingId rttMs => s.pong a pingId rttMs attempt
    | .clusterTimer => s.clusterTimer a attempt

end Controller
end Rieul.Web.RpcSession
