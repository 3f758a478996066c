import Rieul.Terminal.Replay

/-!
# The stream of an attach (daemon/host/src/server.rs, terminal.rs)

A stream delivers the session's events until its exit or its close. A receiver that
fell behind goes on with the oldest event that is kept, after a gap. The host's
events reach the session through a reader that stops at the exit.
-/

namespace Rieul.Terminal
open Bytes Fallible Broadcast

structure TerminalView where
  primaryAttachId : Option ℕ
  cols : ℕ
  rows : ℕ
  lastKnownTitle : Option String
  lastKnownCwd : Option String
  exit : Option TerminalExit

def TerminalSessionInfo.view (info : TerminalSessionInfo) : TerminalView where
  primaryAttachId := info.primaryAttachId
  cols := info.cols
  rows := info.rows
  lastKnownTitle := info.lastKnownTitle
  lastKnownCwd := info.lastKnownCwd
  exit := info.exit

def TerminalView.apply (view : TerminalView) : TerminalEvent → TerminalView
  | .controlChanged primaryAttachId => { view with primaryAttachId := some primaryAttachId }
  | .pseudoTerminalResized cols rows => { view with cols := cols, rows := rows }
  | .titleChanged title => { view with lastKnownTitle := some title }
  | .workingDirectoryChanged cwd => { view with lastKnownCwd := some cwd }
  | .sessionExited exit => { view with exit := some exit }
  | _ => view

def TerminalView.applyAll (view : TerminalView) (events : List TerminalEvent) : TerminalView :=
  events.foldl (·.apply) view

/-- The number of the next chunk, when `expected` is that of the next one if none is missing; `none`
for a chunk that is not the next. -/
def TerminalEvent.follow (expected : ℕ) : TerminalEvent → Option ℕ
  | outputChunk seq _ => if seq = expected then some (seq + 1) else none
  | historyGap nextSeq => some nextSeq
  | _ => some expected

/-- `delivered` is what follows the replay. -/
structure TerminalStream where
  attached : AttachedTerminal
  next : ℕ
  delivered : List TerminalEvent
  finished : Bool

def AttachedTerminal.stream (attached : AttachedTerminal) : TerminalStream where
  attached := attached
  next := attached.receiver
  delivered := attached.session.exit.toList.map .sessionExited
  finished := attached.session.exit.isSome

def TerminalEvent.terminalDone : TerminalEvent → Bool
  | sessionExited _ => true
  | sessionClosed _ => true
  | _ => false

/-- The loop of `stream_attached_terminal` goes around once. -/
def TerminalStream.read (stream : TerminalStream) (sent : List TerminalEvent) :
    Option TerminalStream :=
  if stream.finished then none
  else (recv TERMINAL_EVENT_CHANNEL_CAPACITY sent stream.next).map fun
    | (.value event, next) => { stream with
        next := next
        delivered := stream.delivered ++ [event]
        finished := event.terminalDone }
    | (.lagged, next) => { stream with
        next := next
        delivered := stream.delivered ++
          [.historyGap (stream.attached.session.latestOutputSeq + 1)] }

def TerminalStream.view (stream : TerminalStream) : TerminalView :=
  stream.attached.session.view.applyAll stream.delivered

structure StreamedSession where
  session : TerminalSession
  reading : Bool
  stream : Option TerminalStream

def StreamedSession.created (request : CreateTerminalSessionReq) (terminalSessionId : ℕ)
    (creatorClientId : String) (initialCwd : Option String) (now : ℕ) : StreamedSession :=
  ⟨.new request terminalSessionId creatorClientId initialCwd now, true, none⟩

inductive StreamedStep where
  | op (op : SessionOp)
  | stream (attachId rpcSessionId : ℕ) (afterSeq : Option ℕ) (now : ℕ)
  | read

/-- The operations of `spawn_host_event_reader`. -/
def SessionOp.ofReader : SessionOp → Bool
  | output _ _ => true
  | exited _ _ _ => true
  | hostClosed _ => true
  | _ => false

def SessionOp.goesOn (session : TerminalSession) : SessionOp → Bool
  | output bytes _ => !session.closed && bytes ≠ []
  | op => !op.ofReader

variable (parseOscMetadata : Str → Option TerminalMetadata)

def StreamedSession.step (streamed : StreamedSession) : StreamedStep → Option StreamedSession
  | .op op =>
    if op.ofReader && !streamed.reading then none
    else some { streamed with
      session := streamed.session.apply parseOscMetadata op
      reading := streamed.reading && op.goesOn streamed.session }
  | .stream attachId rpcSessionId afterSeq now =>
    if streamed.stream.isSome then none
    else match streamed.session.attach attachId rpcSessionId afterSeq now with
      | .error _ => some streamed
      | .ok (session, attached) => some { streamed with
          session := session
          stream := some attached.stream }
  | .read => streamed.stream.bind fun stream =>
      (stream.read streamed.session.sent).map fun stream => { streamed with stream := some stream }

end Rieul.Terminal
