import Rieul.Lib.Bytes
import Rieul.Lib.Fallible
import Rieul.Lib.Retention
import Rieul.Lib.Broadcast

/-!
# A terminal session (daemon/host/src/terminal.rs)

What the manager's operations do to a session under its lock. `sent` is all that
went to the session's event channel. How the text of an operating system command
is read, is a parameter.
-/

namespace Rieul.Terminal
open Bytes Fallible Broadcast

def TERMINAL_OUTPUT_RETENTION_BYTES : ℕ := 1024 * 1024

def TERMINAL_EVENT_CHANNEL_CAPACITY : ℕ := 4096

def TERMINAL_TABLE_CHANNEL_CAPACITY : ℕ := 256

def MAX_OSC_METADATA_BYTES : ℕ := 4096

inductive ServiceError where
  | notFound
  | permissionDenied
  | operationFailed (message : String)

inductive TerminalMetadata where
  | title (text : String)
  | cwd (path : String)

inductive TerminalMetadataParser where
  | normal
  | escape
  | osc (buffer : Str) (escape : Bool)

def pushOscByte (buffer : Str) (byte : UInt8) : Str :=
  if buffer.length < MAX_OSC_METADATA_BYTES then buffer ++ [byte] else buffer

variable (parseOscMetadata : Str → Option TerminalMetadata)

def TerminalMetadataParser.pushByte (byte : UInt8) :
    TerminalMetadataParser → TerminalMetadataParser × Option TerminalMetadata
  | .normal => (if byte = 0x1b then .escape else .normal, none)
  | .escape =>
    if byte = 0x5d then (.osc [] false, none)
    else if byte = 0x1b then (.escape, none)
    else (.normal, none)
  | .osc buffer true =>
    if byte = 0x5c then (.normal, parseOscMetadata buffer)
    else (.osc (pushOscByte (pushOscByte buffer 0x1b) byte) false, none)
  | .osc buffer false =>
    if byte = 0x07 then (.normal, parseOscMetadata buffer)
    else if byte = 0x1b then (.osc buffer true, none)
    else if buffer.length < MAX_OSC_METADATA_BYTES then (.osc (buffer ++ [byte]) false, none)
    else (.normal, none)

def TerminalMetadataParser.push :
    TerminalMetadataParser → Str → TerminalMetadataParser × List TerminalMetadata
  | parser, [] => (parser, [])
  | parser, byte :: bytes =>
    let (next, event) := parser.pushByte parseOscMetadata byte
    let (last, events) := next.push bytes
    (last, event.toList ++ events)

structure TerminalExit where
  code : Option Int
  signal : Option String
  exitedAtMs : ℕ
  deriving DecidableEq

inductive TerminalSessionCloseReason where
  | closedByClient
  | failed (message : String)
  deriving DecidableEq

inductive TerminalEvent where
  | outputChunk (seq : ℕ) (bytes : Str)
  | historyGap (nextSeq : ℕ)
  | controlChanged (primaryAttachId : ℕ)
  | pseudoTerminalResized (cols rows : ℕ)
  | titleChanged (title : String)
  | workingDirectoryChanged (cwd : String)
  | sessionExited (exit : TerminalExit)
  | sessionClosed (reason : TerminalSessionCloseReason)

structure TerminalSessionInfo where
  terminalSessionId : ℕ
  creatorClientId : String
  createdAtMs : ℕ
  lastAttachedAtMs : Option ℕ
  lastDetachedAtMs : Option ℕ
  lastOutputAtMs : Option ℕ
  cols : ℕ
  rows : ℕ
  primaryAttachId : Option ℕ
  latestOutputSeq : ℕ
  lastKnownTitle : Option String
  exit : Option TerminalExit
  lastKnownCwd : Option String
  deriving DecidableEq

structure OutputRecord where
  seq : ℕ
  bytes : Str

structure TerminalSession where
  info : TerminalSessionInfo
  sent : List TerminalEvent
  outputBuffer : List OutputRecord
  retainedOutputBytes : ℕ
  metadataParser : TerminalMetadataParser
  attachOwners : List (ℕ × ℕ)
  closed : Bool

def validateSize (cols rows : ℕ) : Except ServiceError Unit :=
  ensure (¬ (cols = 0 ∨ rows = 0 ∨ 65535 < cols ∨ 65535 < rows))
    (.operationFailed "terminal size is invalid")

structure CreateTerminalSessionReq where
  cols : ℕ
  rows : ℕ
  title : Option String

/-- The session that `create_session` puts into the table. -/
def TerminalSession.new (request : CreateTerminalSessionReq) (terminalSessionId : ℕ)
    (creatorClientId : String) (initialCwd : Option String) (now : ℕ) : TerminalSession where
  info := {
    terminalSessionId := terminalSessionId
    creatorClientId := creatorClientId
    createdAtMs := now
    lastAttachedAtMs := none
    lastDetachedAtMs := none
    lastOutputAtMs := none
    cols := request.cols
    rows := request.rows
    primaryAttachId := none
    latestOutputSeq := 0
    lastKnownTitle := request.title
    exit := none
    lastKnownCwd := initialCwd }
  sent := []
  outputBuffer := []
  retainedOutputBytes := 0
  metadataParser := .normal
  attachOwners := []
  closed := false

def OutputRecord.size (record : OutputRecord) : ℕ := record.bytes.length

def OutputRecord.event (record : OutputRecord) : TerminalEvent :=
  .outputChunk record.seq record.bytes

def TerminalMetadata.event : TerminalMetadata → TerminalEvent
  | .title text => .titleChanged text
  | .cwd path => .workingDirectoryChanged path

def TerminalSessionInfo.note (info : TerminalSessionInfo) : TerminalMetadata → TerminalSessionInfo
  | .title text => { info with lastKnownTitle := some text }
  | .cwd path => { info with lastKnownCwd := some path }

def TerminalSessionInfo.noteAll :
    TerminalSessionInfo → Bool → List TerminalMetadata → TerminalSessionInfo × Bool
  | info, changed, [] => (info, changed)
  | info, changed, event :: events =>
    if info.note event = info then info.noteAll changed events
    else (info.note event).noteAll true events

/-- `record_output` under the lock: the session, and its info if that is to be broadcast. Nothing is
recorded of no output, nor in a session that is closed. -/
def TerminalSession.recordOutput (session : TerminalSession) (bytes : Str) (now : ℕ) :
    Option (TerminalSession × Option TerminalSessionInfo) :=
  if session.closed ∨ bytes = [] then none
  else
    let (parser, metadata) := session.metadataParser.push parseOscMetadata bytes
    let seq := session.info.latestOutputSeq + 1
    let info := { session.info with latestOutputSeq := seq, lastOutputAtMs := some now }
    let (info, metadataChanged) := info.noteAll false metadata
    let (retained, buffer) := Retention.evict OutputRecord.size TERMINAL_OUTPUT_RETENTION_BYTES
      (session.retainedOutputBytes + bytes.length) (session.outputBuffer ++ [⟨seq, bytes⟩])
    some ({ session with
      info := info
      sent := session.sent ++ .outputChunk seq bytes :: metadata.map (·.event)
      outputBuffer := buffer
      retainedOutputBytes := retained
      metadataParser := parser }, if metadataChanged then some info else none)

def replayEvents (session : TerminalSession) (afterSeq : Option ℕ) : List TerminalEvent :=
  match session.outputBuffer.head? with
  | none => []
  | some firstRecord =>
    let minRequestedSeq := (afterSeq.map (· + 1)).getD firstRecord.seq
    (if minRequestedSeq < firstRecord.seq then [.historyGap firstRecord.seq] else []) ++
      (session.outputBuffer.filter fun record => afterSeq.all (· < record.seq)).map (·.event)

structure AttachedTerminal where
  attachId : ℕ
  primaryAttachId : Option ℕ
  session : TerminalSessionInfo
  replay : List TerminalEvent
  receiver : ℕ

/-- `attach` under the lock; the receiver stands behind all that was sent. -/
def TerminalSession.attach (session : TerminalSession) (attachId rpcSessionId : ℕ)
    (afterSeq : Option ℕ) (now : ℕ) : Except ServiceError (TerminalSession × AttachedTerminal) := do
  ensure (session.closed = false) .notFound
  let info := { session.info with lastAttachedAtMs := some now }
  let attached := { session with
    info := info
    attachOwners := (attachId, rpcSessionId) :: session.attachOwners }
  .ok (attached, {
    attachId := attachId
    primaryAttachId := info.primaryAttachId
    session := info
    replay := replayEvents attached afterSeq
    receiver := attached.sent.length })

def TerminalSession.detach (session : TerminalSession) (attachId now : ℕ) : TerminalSession :=
  { session with
    info := { session.info with lastDetachedAtMs := some now }
    attachOwners := session.attachOwners.filter fun owner => owner.1 ≠ attachId }

def validateAttachOwner (session : TerminalSession) (attachId rpcSessionId : ℕ) :
    Except ServiceError Unit :=
  match session.attachOwners.lookup attachId with
  | some owner => ensure (owner = rpcSessionId) .permissionDenied
  | none => .error (.operationFailed "attach not found")

/-- `take_control` under the lock: what is left of the session, and its answer. When the host does not
resize, what was set stays set. -/
def TerminalSession.takeControl (session : TerminalSession) (attachId rpcSessionId cols rows : ℕ)
    (resize : Except ServiceError Unit) : TerminalSession × Except ServiceError TerminalSessionInfo :=
  match validateAttachOwner session attachId rpcSessionId with
  | .error err => (session, .error err)
  | .ok () =>
    let info := { session.info with primaryAttachId := some attachId, cols := cols, rows := rows }
    match resize with
    | .error err => ({ session with info := info }, .error err)
    | .ok () =>
      let control := if session.info.primaryAttachId ≠ some attachId then
        [TerminalEvent.controlChanged attachId] else []
      let resized := if (session.info.cols, session.info.rows) ≠ (cols, rows) then
        [TerminalEvent.pseudoTerminalResized cols rows] else []
      ({ session with info := info, sent := session.sent ++ control ++ resized }, .ok info)

/-- `close_session` under the lock of the session. -/
def TerminalSession.close (session : TerminalSession) : TerminalSession :=
  { session with closed := true, sent := session.sent ++ [.sessionClosed .closedByClient] }

/-- `mark_exited` under the lock; nothing when the session is closed or has exited. -/
def TerminalSession.markExited (session : TerminalSession) (code : Option Int)
    (signal : Option String) (now : ℕ) : Option TerminalSession :=
  if session.closed ∨ session.info.exit.isSome then none
  else
    let exit := ⟨code, signal, now⟩
    some { session with
      info := { session.info with exit := some exit }
      sent := session.sent ++ [.sessionExited exit] }

/-- `mark_host_closed` under the lock of the session. -/
def TerminalSession.markHostClosed (session : TerminalSession) (message : String) :
    Option TerminalSession :=
  if session.closed ∨ session.info.exit.isSome then none
  else some { session with
    closed := true
    sent := session.sent ++ [.sessionClosed (.failed message)] }

end Rieul.Terminal
