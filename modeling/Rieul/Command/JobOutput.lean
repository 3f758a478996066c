import Rieul.Lib.Bytes
import Rieul.Lib.Fallible
import Rieul.Lib.Retention

/-!
# Output of a job (daemon/host/src/command.rs, server.rs)

A stream of a job retains the last chunks of its output. A subscription gets
those above its cursor when it attaches and then what is appended; the job's
other data is left out. The saturating counters are naturals: no run appends 2^64
chunks or bytes.
-/

namespace Rieul.Command
open Bytes Fallible

def DEFAULT_JOB_OUTPUT_LIMIT : ℕ := 1024 * 1024

structure JobOutputState where
  enabled : Bool
  oldestSeq : ℕ
  latestSeq : ℕ
  retainedBytes : ℕ
  truncated : Bool

structure OutputChunk where
  seq : ℕ
  bytes : Str
  deriving DecidableEq

def OutputChunk.size (chunk : OutputChunk) : ℕ := chunk.bytes.length

structure RetainedOutput where
  enabled : Bool
  maxBytes : ℕ
  chunks : List OutputChunk
  state : JobOutputState

def RetainedOutput.new (enabled : Bool) (maxBytes : Option ℕ) : RetainedOutput where
  enabled := enabled
  maxBytes := maxBytes.getD DEFAULT_JOB_OUTPUT_LIMIT
  chunks := []
  state := ⟨enabled, 0, 0, 0, false⟩

/-- The loop of `append`: the oldest chunks go while the rest is above the limit. -/
def evictChunks (maxBytes : ℕ) : JobOutputState → List OutputChunk →
    JobOutputState × List OutputChunk
  | state, [] => (state, [])
  | state, removed :: chunks =>
    if state.retainedBytes > maxBytes then
      evictChunks maxBytes { state with
        retainedBytes := state.retainedBytes - removed.bytes.length
        truncated := true
        oldestSeq := (chunks.head?.map (·.seq)).getD 0 } chunks
    else (state, removed :: chunks)

def RetainedOutput.append (output : RetainedOutput) (bytes : Str) :
    RetainedOutput × Option OutputChunk :=
  if output.enabled = false ∨ bytes = [] then (output, none)
  else
    let seq := output.state.latestSeq + 1
    let state := { output.state with
      latestSeq := seq
      oldestSeq := if output.state.oldestSeq = 0 then seq else output.state.oldestSeq
      retainedBytes := output.state.retainedBytes + bytes.length }
    let (state, chunks) := evictChunks output.maxBytes state (output.chunks ++ [⟨seq, bytes⟩])
    ({ output with chunks := chunks, state := state },
      chunks.getLast?.filter fun retained => retained.seq = seq)

def RetainedOutput.chunksAfter (output : RetainedOutput) (afterSeq : Option ℕ) :
    Bool × List OutputChunk :=
  let explicitCursor := afterSeq.isSome
  let after := afterSeq.getD 0
  let gap := explicitCursor &&
    if output.state.oldestSeq > 0 then after < output.state.oldestSeq
    else output.state.truncated && after < output.state.latestSeq
  (gap, output.chunks.filter fun chunk => after < chunk.seq)

def outputGapNextSeq (output : RetainedOutput) (afterSeq : ℕ) : ℕ :=
  if output.state.oldestSeq > 0 then output.state.oldestSeq
  else max output.state.latestSeq (afterSeq + 1)

structure CommandExit where
  code : Option Int
  signal : Option String
  exitedAtMs : ℕ
  deriving DecidableEq

inductive JobOutputEvent where
  | attached (oldestSeq latestSeq : ℕ)
  | historyGap (nextSeq : ℕ)
  | chunk (seq : ℕ) (bytes : Str)
  | truncated
  | jobExited (exit : CommandExit)
  deriving DecidableEq

def OutputChunk.event (chunk : OutputChunk) : JobOutputEvent := .chunk chunk.seq chunk.bytes

structure JobStream where
  output : RetainedOutput
  history : List OutputChunk
  exit : Option CommandExit

def JobStream.new (enabled : Bool) (maxBytes : Option ℕ) : JobStream where
  output := RetainedOutput.new enabled maxBytes
  history := []
  exit := none

def JobStream.append (stream : JobStream) (bytes : Str) : JobStream :=
  { stream with
    output := (stream.output.append bytes).1
    history := if stream.output.enabled = false ∨ bytes = [] then stream.history
      else stream.history ++ [⟨stream.output.state.latestSeq + 1, bytes⟩] }

inductive CommandErrorKind where
  | notFound
  | failed
  | logDisabled
  deriving DecidableEq

def outputAttached (stream : JobStream) (afterSeq : Option ℕ) :
    Except CommandErrorKind (List JobOutputEvent) := do
  ensure (stream.output.enabled = true) .logDisabled
  let (gap, chunks) := stream.output.chunksAfter afterSeq
  .ok (.attached stream.output.state.oldestSeq stream.output.state.latestSeq ::
    (if gap then [.historyGap (outputGapNextSeq stream.output (afterSeq.getD 0))] else []) ++
    chunks.map (·.event) ++
    (if stream.output.state.truncated then [.truncated] else []) ++
    stream.exit.toList.map .jobExited)

def outputChunksAfter (stream : JobStream) (afterSeq : ℕ) : List JobOutputEvent :=
  let (gap, chunks) := stream.output.chunksAfter (some afterSeq)
  let events := (if gap then [.historyGap (outputGapNextSeq stream.output afterSeq)] else []) ++
    chunks.map (·.event)
  let late := if chunks.isEmpty ∧ stream.output.state.truncated ∧
      afterSeq < stream.output.state.latestSeq then
    (if events.isEmpty then [.historyGap stream.output.state.latestSeq] else []) ++ [.truncated]
  else []
  events ++ late ++ stream.exit.toList.map .jobExited

/-- `update_job_output_cursor`, with the cursor and whether the job exited. -/
def updateJobOutputCursor (cursor : ℕ × Bool) : JobOutputEvent → ℕ × Bool
  | .attached _ latestSeq => (max cursor.1 latestSeq, cursor.2)
  | .chunk seq _ => (max cursor.1 seq, cursor.2)
  | .jobExited _ => (cursor.1, true)
  | .historyGap nextSeq => (max cursor.1 nextSeq, cursor.2)
  | .truncated => cursor

/-- What happens to a stream that is subscribed to; `changed` is the subscription's notice of a
change. -/
inductive JobStep where
  | append (bytes : Str)
  | exit (exit : CommandExit)
  | changed

def JobStream.apply (stream : JobStream) : JobStep → JobStream
  | .append bytes => stream.append bytes
  | .exit exit => { stream with exit := some exit }
  | .changed => stream

structure Answer where
  stream : JobStream
  after : Option ℕ
  events : List JobOutputEvent

/-- The loop of `stream_job_output_subscription`. -/
def followOutput : JobStream → ℕ × Bool → List JobStep → List Answer
  | _, _, [] => []
  | stream, cursor, .append bytes :: steps => followOutput (stream.append bytes) cursor steps
  | stream, cursor, .exit exit :: steps => followOutput (stream.apply (.exit exit)) cursor steps
  | stream, cursor, .changed :: steps =>
    if cursor.2 then []
    else
      let events := outputChunksAfter stream cursor.1
      ⟨stream, some cursor.1, events⟩ ::
        followOutput stream (events.foldl updateJobOutputCursor cursor) steps

/-- `stream_job_output_subscription`; without output there is no answer. -/
def subscribeOutput (stream : JobStream) (afterSeq : Option ℕ) (steps : List JobStep) :
    List Answer :=
  match outputAttached stream afterSeq with
  | .error _ => []
  | .ok events => ⟨stream, afterSeq, events⟩ ::
      followOutput stream (events.foldl updateJobOutputCursor (afterSeq.getD 0, false)) steps

end Rieul.Command
