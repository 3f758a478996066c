import Rieul.Command.JobOutput

/-!
# Jobs in memory and in the database (daemon/host/src/command.rs, state_db.rs)

The manager changes its memory under a lock and writes to the database after it
released the lock; writes that are still to be made stand among the calls. This
is one job with the database rows that are its own.
-/

namespace Rieul.Command
open Bytes

inductive JobOutputStream where
  | stdout
  | stderr
  deriving DecidableEq

structure Streams (α : Type) where
  stdout : α
  stderr : α

def Streams.get {α : Type} (streams : Streams α) : JobOutputStream → α
  | .stdout => streams.stdout
  | .stderr => streams.stderr

def Streams.set {α : Type} (streams : Streams α) (stream : JobOutputStream) (a : α) : Streams α :=
  match stream with
  | .stdout => { streams with stdout := a }
  | .stderr => { streams with stderr := a }

def Streams.map {α β : Type} (f : α → β) (streams : Streams α) : Streams β :=
  ⟨f streams.stdout, f streams.stderr⟩

@[simp] theorem Streams.get_set_self {α : Type} (streams : Streams α) (stream : JobOutputStream)
    (a : α) : (streams.set stream a).get stream = a := by
  cases stream <;> rfl

theorem Streams.get_set_of_ne {α : Type} (streams : Streams α) (stream other : JobOutputStream)
    (a : α) (h : other ≠ stream) : (streams.set stream a).get other = streams.get other := by
  cases stream <;> cases other <;> first | rfl | exact absurd rfl h

@[simp] theorem Streams.get_map {α β : Type} (f : α → β) (streams : Streams α)
    (stream : JobOutputStream) : (streams.map f).get stream = f (streams.get stream) := by
  cases stream <;> rfl

inductive JobStatus where
  | running
  | exited (exit : CommandExit)
  deriving DecidableEq

structure JobInfo where
  status : JobStatus
  finishedAtMs : Option ℕ
  log : Streams JobOutputState

/-- `kill` and `task` tell whether the sender and the handle are still there. -/
structure JobRecord where
  info : JobInfo
  outputs : Streams RetainedOutput
  kill : Bool
  task : Bool

structure OutputRows where
  state : Option JobOutputState
  chunks : List OutputChunk

structure JobRows where
  job : Option JobInfo
  outputs : Streams OutputRows

def noOutput : OutputRows := ⟨none, []⟩

def JobRows.saveJob (rows : JobRows) (job : JobInfo) : JobRows := { rows with job := some job }

def JobRows.deleteJob (_ : JobRows) : JobRows := ⟨none, ⟨noOutput, noOutput⟩⟩

def OutputRows.saveState (rows : OutputRows) (state : JobOutputState) : OutputRows where
  state := some state
  chunks := if state.oldestSeq > 0 then
      rows.chunks.filter fun chunk => ¬ chunk.seq < state.oldestSeq
    else []

def JobRows.saveJobOutputState (rows : JobRows) (stream : JobOutputStream)
    (state : JobOutputState) : JobRows :=
  match rows.job with
  | none => rows
  | some _ => { rows with outputs := rows.outputs.set stream ((rows.outputs.get stream).saveState state) }

def insertOrReplace (chunk : OutputChunk) : List OutputChunk → List OutputChunk
  | [] => [chunk]
  | row :: rows =>
    if chunk.seq < row.seq then chunk :: row :: rows
    else if chunk.seq = row.seq then chunk :: rows
    else row :: insertOrReplace chunk rows

def OutputRows.appendChunk (rows : OutputRows) (chunk : OutputChunk) : OutputRows :=
  if rows.state.any fun state => state.enabled ∧ state.oldestSeq > 0 ∧
      chunk.seq ≥ state.oldestSeq ∧ chunk.seq ≤ state.latestSeq then
    { rows with chunks := insertOrReplace chunk rows.chunks }
  else rows

def JobRows.appendJobOutputChunk (rows : JobRows) (stream : JobOutputStream)
    (chunk : OutputChunk) : JobRows :=
  { rows with outputs := rows.outputs.set stream ((rows.outputs.get stream).appendChunk chunk) }

def RetainedOutput.fromPersisted (enabled : Bool) (persisted : OutputRows) : RetainedOutput :=
  match persisted.state with
  | none => .new enabled none
  | some state => ⟨state.enabled, DEFAULT_JOB_OUTPUT_LIMIT, persisted.chunks, state⟩

/-- What `CommandManager::open` makes of the rows of a job. -/
def JobRows.open (rows : JobRows) (now : ℕ) : Option JobRecord :=
  rows.job.map fun info =>
    let outputs : Streams RetainedOutput :=
      ⟨.fromPersisted info.log.stdout.enabled rows.outputs.stdout,
        .fromPersisted info.log.stderr.enabled rows.outputs.stderr⟩
    let log := outputs.map (·.state)
    ⟨if info.status = .running then ⟨.exited ⟨none, none, now⟩, some now, log⟩
      else { info with log := log }, outputs, false, false⟩

inductive DeleteJobOutcome where
  | deleted
  | killedAndDeleted
  deriving DecidableEq

inductive JobCall where
  | persistOutputState (stream : JobOutputStream) (state : JobOutputState)
      (chunk : Option OutputChunk)
  | persistOutputChunk (stream : JobOutputStream) (chunk : OutputChunk)
  | persistJob (job : JobInfo)
  | awaitTask
  | deleteRow (killed : Bool)
  | removeRecord (killed : Bool)

/-- One job of the manager. `finished` tells that the job's task was in `finish_job`; `deletions`
are the results of `delete_job`. -/
structure Manager where
  record : Option JobRecord
  rows : JobRows
  calls : List JobCall
  finished : Bool
  deletions : List (Except CommandErrorKind DeleteJobOutcome)

/-- What `create_job` leaves. -/
def Manager.created (enabled : Streams Bool) (maxBytes : Streams (Option ℕ)) : Manager :=
  let outputs : Streams RetainedOutput :=
    ⟨.new enabled.stdout maxBytes.stdout, .new enabled.stderr maxBytes.stderr⟩
  let info : JobInfo := ⟨.running, none, outputs.map (·.state)⟩
  { record := some ⟨info, outputs, true, true⟩
    rows := ⟨some info, ⟨noOutput, noOutput⟩⟩
    calls := []
    finished := false
    deletions := [] }

/-- `append_output` under the lock. -/
def Manager.appendOutput (manager : Manager) (stream : JobOutputStream) (bytes : Str) : Manager :=
  match manager.record with
  | none => manager
  | some record =>
    let (output, chunk) := (record.outputs.get stream).append bytes
    let outputs := record.outputs.set stream output
    if chunk.isSome ∨ output.state.latestSeq > 0 then
      { manager with
        record := some { record with
          outputs := outputs
          info := { record.info with log := outputs.map (·.state) } }
        calls := manager.calls ++ [.persistOutputState stream output.state chunk] }
    else { manager with record := some { record with outputs := outputs } }

/-- `finish_job` under the lock. -/
def Manager.finishJob (manager : Manager) (exit : CommandExit) : Manager :=
  match manager.record with
  | none => { manager with finished := true }
  | some record =>
    let info : JobInfo := ⟨.exited exit, some exit.exitedAtMs, record.outputs.map (·.state)⟩
    { manager with
      record := some { record with info := info, kill := false, task := false }
      calls := manager.calls ++ [.persistJob info]
      finished := true }

/-- `delete_job` under its first lock. -/
def Manager.deleteJob (manager : Manager) (killRunning : Bool) : Manager :=
  match manager.record with
  | none => { manager with deletions := .error .notFound :: manager.deletions }
  | some record =>
    if record.info.status = .running then
      if killRunning then
        { manager with
          record := some { record with kill := false, task := false }
          calls := manager.calls ++ [if record.task then .awaitTask else .deleteRow true] }
      else { manager with deletions := .error .failed :: manager.deletions }
    else { manager with calls := manager.calls ++ [.deleteRow false] }

def Manager.taskEnded (manager : Manager) : Bool :=
  manager.finished && manager.calls.all fun call => match call with
    | .persistJob _ => false
    | _ => true

/-- A call goes on. A write that fails (`ok` is false) changes nothing. -/
def Manager.resume (manager : Manager) (ok : Bool) : JobCall → Option Manager
  | .persistOutputState stream state chunk =>
    some { manager with
      rows := if ok then manager.rows.saveJobOutputState stream state else manager.rows
      calls := manager.calls ++ (chunk.map (.persistOutputChunk stream)).toList }
  | .persistOutputChunk stream chunk =>
    some { manager with
      rows := if ok then manager.rows.appendJobOutputChunk stream chunk else manager.rows }
  | .persistJob job =>
    some { manager with rows := if ok then manager.rows.saveJob job else manager.rows }
  | .awaitTask =>
    if manager.taskEnded then some { manager with calls := manager.calls ++ [.deleteRow true] }
    else none
  | .deleteRow killed =>
    some (if ok then
      { manager with
        rows := manager.rows.deleteJob
        calls := manager.calls ++ [.removeRecord killed] }
    else { manager with deletions := .error .failed :: manager.deletions })
  | .removeRecord killed =>
    some { manager with
      record := none
      deletions := .ok (if killed then .killedAndDeleted else .deleted) :: manager.deletions }

inductive ManagerStep where
  | appendOutput (stream : JobOutputStream) (bytes : Str)
  | finishJob (exit : CommandExit)
  | deleteJob (killRunning : Bool)
  | resume (index : ℕ) (ok : Bool)

def Manager.step (manager : Manager) : ManagerStep → Option Manager
  | .appendOutput stream bytes => some (manager.appendOutput stream bytes)
  | .finishJob exit => if manager.finished then none else some (manager.finishJob exit)
  | .deleteJob killRunning => some (manager.deleteJob killRunning)
  | .resume index ok =>
    (manager.calls[index]?).bind
      ({ manager with calls := manager.calls.eraseIdx index }.resume ok)

end Rieul.Command
