import Rieul.Terminal.Replay
import Rieul.Lib.Replica
import Rieul.Lib.System

/-!
# The table of terminal sessions (daemon/host/src/terminal.rs, server.rs)

An operation finds its session under the lock of the table, changes it under the
session's own lock and broadcasts what it became when it holds no lock. A
subscription takes a snapshot, writes it and subscribes to the broadcasts after.
The host's calls, whose outcome nothing reads, are left out.
-/

namespace Rieul.Terminal
open Bytes Fallible Broadcast Replica

inductive TerminalSessionsTableEvent where
  | snapshot (rows : List TerminalSessionInfo)
  | patch (removes : List ℕ) (upserts : List TerminalSessionInfo)

abbrev Table := ℕ → Option TerminalSessionInfo

def rowsTable (rows : List TerminalSessionInfo) : Table :=
  fun id => rows.find? fun row => row.terminalSessionId = id

def TerminalSessionsTableEvent.apply (table : Table) : TerminalSessionsTableEvent → Table
  | .snapshot rows => rowsTable rows
  | .patch removes upserts =>
    settle (removes.map (⟨·, none⟩) ++ upserts.map fun info => ⟨info.terminalSessionId, some info⟩)
      table

/-- `broadcast_table_upsert` and `broadcast_table_remove`, with what they are called for. -/
inductive TableBroadcast where
  | upsert (info : TerminalSessionInfo)
  | remove (terminalSessionId : ℕ)

def TableBroadcast.event : TableBroadcast → TerminalSessionsTableEvent
  | .upsert info => .patch [] [info]
  | .remove terminalSessionId => .patch [terminalSessionId] []

def TableBroadcast.change : TableBroadcast → Change ℕ TerminalSessionInfo
  | .upsert info => ⟨info.terminalSessionId, some info⟩
  | .remove terminalSessionId => ⟨terminalSessionId, none⟩

theorem TableBroadcast.event_apply (broadcast : TableBroadcast) (table : Table) :
    broadcast.event.apply table = broadcast.change.apply table := by
  cases broadcast <;> rfl

inductive Subscription where
  | idle
  | taken (rows : List TerminalSessionInfo)
  | written (table : Table)
  | following (next : ℕ) (table : Table)

structure TerminalManager where
  sessions : ℕ → Option TerminalSession
  listed : List ℕ
  nextSessionId : ℕ
  nextAttachId : ℕ
  tableEvents : List TableBroadcast
  /-- The operations that found their session. -/
  located : List (ℕ × SessionOp)
  /-- The broadcasts to be made, in the order of the changes. -/
  broadcasts : List TableBroadcast
  subscriptions : ℕ → Subscription

def TerminalManager.new : TerminalManager where
  sessions := fun _ => none
  listed := []
  nextSessionId := 1
  nextAttachId := 1
  tableEvents := []
  located := []
  broadcasts := []
  subscriptions := fun _ => .idle

def TerminalManager.sessionsSnapshot (manager : TerminalManager) : List TerminalSessionInfo :=
  manager.listed.filterMap fun id => (manager.sessions id).map (·.info)

inductive Action where
  | create (request : CreateTerminalSessionReq) (creatorClientId : String)
      (spawned : Except ServiceError (Option String)) (now : ℕ)
  | attach (id rpcSessionId cols rows : ℕ) (afterSeq : Option ℕ) (now : ℕ)
  | detach (id attachId now : ℕ)
  | takeControl (id attachId rpcSessionId cols rows : ℕ) (resize : Except ServiceError Unit)
  | output (id : ℕ) (bytes : Str) (now : ℕ)
  | exited (id : ℕ) (code : Option Int) (signal : Option String) (now : ℕ)
  | close (id : ℕ)
  | hostClosed (id : ℕ) (message : String)
  | update (k : ℕ)
  | broadcast (k : ℕ)
  | take (n : ℕ)
  | write (n : ℕ)
  | follow (n : ℕ)
  | receive (n : ℕ)

/-- `get_session`: without it the operation ends there. -/
def TerminalManager.locate (manager : TerminalManager) (id : ℕ) (op : SessionOp) : TerminalManager :=
  if id ∈ manager.listed then { manager with located := manager.located ++ [(id, op)] }
  else manager

def TerminalManager.remove (manager : TerminalManager) (id : ℕ) (op : SessionOp) : TerminalManager :=
  if id ∈ manager.listed then { manager with
    listed := manager.listed.filter (· ≠ id)
    located := manager.located ++ [(id, op)] }
  else manager

section
variable (parseOscMetadata : Str → Option TerminalMetadata)

def TerminalSession.update (session : TerminalSession) :
    SessionOp → TerminalSession × Option TableBroadcast
  | .output bytes now =>
    match session.recordOutput parseOscMetadata bytes now with
    | none => (session, none)
    | some (recorded, updatedInfo) => (recorded, updatedInfo.map .upsert)
  | .attach attachId rpcSessionId afterSeq now =>
    match session.attach attachId rpcSessionId afterSeq now with
    | .error _ => (session, none)
    | .ok (attached, _) => (attached, some (.upsert attached.info))
  | .detach attachId now =>
    let detached := session.detach attachId now
    (detached, some (.upsert detached.info))
  | .takeControl attachId rpcSessionId cols rows resize =>
    match session.takeControl attachId rpcSessionId cols rows resize with
    | (controlled, .error _) => (controlled, none)
    | (controlled, .ok info) => (controlled, some (.upsert info))
  | .close => (session.close, some (.remove session.info.terminalSessionId))
  | .exited code signal now =>
    match session.markExited code signal now with
    | none => (session, none)
    | some exited => (exited, some (.upsert exited.info))
  | .hostClosed message =>
    match session.markHostClosed message with
    | none => (session, none)
    | some closed => (closed, some (.remove session.info.terminalSessionId))

/-- `create_session`: the session is in the table before it is broadcast. -/
def TerminalManager.create (manager : TerminalManager) (request : CreateTerminalSessionReq)
    (creatorClientId : String) (spawned : Except ServiceError (Option String)) (now : ℕ) :
    Except ServiceError TerminalManager := do
  validateSize request.cols request.rows
  let initialCwd ← spawned
  let id := manager.nextSessionId
  let session := TerminalSession.new request id creatorClientId initialCwd now
  .ok { manager with
    nextSessionId := id + 1
    sessions := Function.update manager.sessions id (some session)
    listed := manager.listed ++ [id]
    broadcasts := manager.broadcasts ++ [.upsert session.info] }

def TerminalManager.receive (manager : TerminalManager) (next : ℕ) (table : Table) :
    Option Subscription :=
  match recv TERMINAL_TABLE_CHANNEL_CAPACITY manager.tableEvents next with
  | none => none
  | some (.value event, next) => some (.following next (event.event.apply table))
  | some (.lagged, next) =>
    some (.following next
      (TerminalSessionsTableEvent.apply table (.snapshot manager.sessionsSnapshot)))

def TerminalManager.step (manager : TerminalManager) : Action → Option TerminalManager
  | .create request creatorClientId spawned now =>
    match manager.create request creatorClientId spawned now with
    | .error _ => some manager
    | .ok created => some created
  | .attach id rpcSessionId cols rows afterSeq now =>
    match validateSize cols rows with
    | .error _ => some manager
    | .ok () =>
      let located := manager.locate id (.attach manager.nextAttachId rpcSessionId afterSeq now)
      some (if id ∈ manager.listed then { located with nextAttachId := manager.nextAttachId + 1 }
        else located)
  | .detach id attachId now => some (manager.locate id (.detach attachId now))
  | .takeControl id attachId rpcSessionId cols rows resize =>
    match validateSize cols rows with
    | .error _ => some manager
    | .ok () => some (manager.locate id (.takeControl attachId rpcSessionId cols rows resize))
  | .output id bytes now => some (manager.locate id (.output bytes now))
  | .exited id code signal now => some (manager.locate id (.exited code signal now))
  | .close id => some (manager.remove id .close)
  | .hostClosed id message => some (manager.remove id (.hostClosed message))
  | .update k => do
    let (id, op) ← manager.located[k]?
    let session ← manager.sessions id
    let (updated, event) := session.update parseOscMetadata op
    some { manager with
      sessions := Function.update manager.sessions id (some updated)
      located := manager.located.eraseIdx k
      broadcasts := manager.broadcasts ++ event.toList }
  | .broadcast k => do
    let event ← manager.broadcasts[k]?
    some { manager with
      broadcasts := manager.broadcasts.eraseIdx k
      tableEvents := manager.tableEvents ++ [event] }
  | .take n =>
    match manager.subscriptions n with
    | .idle => some { manager with
        subscriptions := Function.update manager.subscriptions n (.taken manager.sessionsSnapshot) }
    | _ => none
  | .write n =>
    match manager.subscriptions n with
    | .taken rows => some { manager with
        subscriptions := Function.update manager.subscriptions n (.written (rowsTable rows)) }
    | _ => none
  | .follow n =>
    match manager.subscriptions n with
    | .written table => some { manager with
        subscriptions := Function.update manager.subscriptions n
          (.following manager.tableEvents.length table) }
    | _ => none
  | .receive n =>
    match manager.subscriptions n with
    | .following next table => (manager.receive next table).map fun subscription => { manager with
        subscriptions := Function.update manager.subscriptions n subscription }
    | _ => none

end

structure Shown where
  title : Option String
  cwd : Option String
  cols : ℕ
  rows : ℕ
  primaryAttachId : Option ℕ
  exit : Option TerminalExit
  deriving DecidableEq

def TerminalSessionInfo.shown (info : TerminalSessionInfo) : Shown where
  title := info.lastKnownTitle
  cwd := info.lastKnownCwd
  cols := info.cols
  rows := info.rows
  primaryAttachId := info.primaryAttachId
  exit := info.exit

def TerminalManager.Quiet (manager : TerminalManager) : Prop :=
  manager.located = [] ∧ manager.broadcasts = [] ∧
    ∀ n next table, manager.subscriptions n = .following next table →
      next = manager.tableEvents.length

def TerminalManager.Converged (manager : TerminalManager) : Prop :=
  ∀ n next table, manager.subscriptions n = .following next table →
    ∀ id, (table id).map (·.shown) = (rowsTable manager.sessionsSnapshot id).map (·.shown)

/-- What the operation must find for its change to be broadcast and to stay right: a session that is
open, a host that resizes, no exit before the host's failure. -/
def SessionOp.Heard (session : TerminalSession) : SessionOp → Prop
  | .detach _ _ => session.closed = false
  | .takeControl attachId rpcSessionId _ _ resize =>
    validateAttachOwner session attachId rpcSessionId = .ok () →
      session.closed = false ∧ resize = .ok ()
  | .hostClosed _ => session.info.exit = none
  | _ => True

/-- Broadcasts of one session leave in the order of its changes, none of them leaves while a
subscription is between its snapshot and its subscribing, and every change is heard. -/
def TerminalManager.Orderly (manager : TerminalManager) : Action → Prop
  | .update k => ∀ id op session, manager.located[k]? = some (id, op) →
      manager.sessions id = some session → op.Heard session
  | .broadcast k => (∀ event, manager.broadcasts[k]? = some event →
        ∀ before ∈ manager.broadcasts.take k, before.change.key ≠ event.change.key) ∧
      ∀ n, (∀ rows, manager.subscriptions n ≠ .taken rows) ∧
        ∀ table, manager.subscriptions n ≠ .written table
  | _ => True

end Rieul.Terminal
