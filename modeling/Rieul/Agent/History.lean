import Rieul.Agent.Attachment
import Rieul.Agent.Publication
import Rieul.Lib.Pages

/-!
# The history of a session (daemon/host/src/agent.rs, state_db.rs)

`subscribe_session` between its look for the runtime and the read of the snapshot,
and the pages that `list_session_turns` gives a client that follows them up to the
number of its snapshot. Beside them stands what was said: the turns created and the
chunks applied, each from the write of the snapshot on, which precedes the answer
of `create_turn`.
-/

namespace Rieul.Agent

structure AgentError where
  kind : AgentErrorKind
  message : String

def AgentError.invalidArgument (message : String) : AgentError := ⟨.invalidArgument, message⟩

def maxSessionHistoryPageSize : ℕ := 100

structure StoredAgentTurnRecord where
  turn : AgentTurnInfo
  completedSeq : ℕ
  messages : List AgentMessage

def StoredAgentTurnRecord.key (record : StoredAgentTurnRecord) : ℕ ×ₗ ℕ :=
  toLex (record.completedSeq, record.turn.turnId)

def StoredTurn.completedRecord (turn : StoredTurn) (throughSeq : ℕ) :
    Option StoredAgentTurnRecord :=
  (turn.completedSeq.filter (· ≤ throughSeq)).map fun seq => ⟨turn.turn, seq, turn.messages⟩

def completedThrough (throughSeq : ℕ) (turns : List StoredTurn) : List StoredAgentTurnRecord :=
  turns.filterMap (·.completedRecord throughSeq)

def listCompletedAgentTurns (session : StoredSession) (throughSeq : ℕ) (cursor : Option (ℕ ×ₗ ℕ))
    (limit : ℕ) : List StoredAgentTurnRecord :=
  (Pages.descending (·.key)
    (Pages.before (·.key) cursor (completedThrough throughSeq session.turns))).take limit

/-- What `encode_session_cursor` writes; its fingerprint is a hash of the session and `throughSeq`. -/
structure HistoryCursor where
  throughSeq : ℕ
  key : ℕ ×ₗ ℕ

structure ListAgentSessionTurnsReq where
  throughSeq : ℕ
  cursor : Option HistoryCursor
  limit : ℕ

structure ListAgentSessionTurnsRes where
  turns : List AgentTurnRecord
  nextCursor : Option HistoryCursor

def storedTurnRecord (record : StoredAgentTurnRecord) : AgentTurnRecord :=
  ⟨record.turn, record.messages⟩

def listSessionTurns (session : StoredSession) (request : ListAgentSessionTurnsReq) :
    Except AgentError ListAgentSessionTurnsRes :=
  if request.limit < 1 ∨ maxSessionHistoryPageSize < request.limit then
    .error (.invalidArgument "limit must be between 1 and 100")
  else if session.latestSeq < request.throughSeq then
    .error (.invalidArgument "throughSeq is newer than the persisted session state")
  else if request.cursor.any (·.throughSeq ≠ request.throughSeq) then
    .error (.invalidArgument "session cursor does not match the request filters")
  else
    let rows := listCompletedAgentTurns session request.throughSeq (request.cursor.map (·.key))
      (request.limit + 1)
    .ok {
      turns := (rows.take request.limit).reverse.map storedTurnRecord
      nextCursor := (Pages.nextCursor (·.key) request.limit rows).map (⟨request.throughSeq, ·⟩) }

/-- What `subscribe_session` makes of the row of a session without a runtime. -/
def dormantSnapshot (row : StoredSession) : AgentSessionLiveSnapshot :=
  ⟨sessionInfo row, none, none, [], row.latestSeq⟩

structure TranscriptTurn where
  turnId : ℕ
  prompt : String
  reply : String
  deriving DecidableEq

def textOf (role : AgentMessageRole) (messages : List AgentMessage) : String :=
  String.join ((messages.filter (·.role = role)).flatMap (·.content))

def AgentTurnRecord.transcript (record : AgentTurnRecord) : TranscriptTurn :=
  ⟨record.turn.turnId, textOf .user record.messages, textOf .assistant record.messages⟩

def AgentSessionLiveSnapshot.transcript (snapshot : AgentSessionLiveSnapshot) :
    List TranscriptTurn :=
  snapshot.activeTurn.toList.map (·.transcript)

def LiveChange.tell (transcript : List TranscriptTurn) : LiveChange → List TranscriptTurn
  | create new => transcript ++ [⟨new.turnId, new.text, ""⟩]
  | chunk turnId _ text => transcript.map fun turn =>
      if turn.turnId = turnId then { turn with reply := turn.reply ++ text } else turn
  | _ => transcript

/-- `transcript` is what was said when the snapshot was taken, `next` the cursor of the next
request as long as there is one. -/
structure HistoryReader where
  snapshot : AgentSessionLiveSnapshot
  transcript : List TranscriptTurn
  turns : List AgentTurnRecord
  next : Option (Option HistoryCursor)

def HistoryReader.page (reader : HistoryReader) :
    Except AgentError ListAgentSessionTurnsRes → HistoryReader
  | .error _ => reader
  | .ok page => { reader with
      turns := page.turns ++ reader.turns
      next := page.nextCursor.map some }

/-- `subscribing` are the calls that have looked for the runtime, with the one they found. -/
structure AgentHistory where
  conversation : AgentConversation
  transcript : List TranscriptTurn
  subscribing : List (Option ℕ)
  readers : List HistoryReader

def AgentHistory.created (row : StoredSession) : AgentHistory := ⟨.created row, [], [], []⟩

inductive HistoryStep where
  | conversation (step : ConversationStep)
  | subscribe
  | readSnapshot (index : ℕ)
  | listTurns (index limit : ℕ)

namespace AgentConversation
variable (conversation : AgentConversation)

def written : ConversationStep → Option LiveChange
  | .live index (.write position) =>
    (conversation.entries[index]?).bind fun entry =>
      (entry.live.publications[position]?).map (·.change)
  | _ => none

def snapshotOf : Option ℕ → Option AgentSessionLiveSnapshot
  | some index => (conversation.entries[index]?).map (·.live.snapshot)
  | none => some (dormantSnapshot conversation.row)

end AgentConversation

namespace AgentHistory
variable (history : AgentHistory)

def onConversation (step : ConversationStep) : Option AgentHistory :=
  (history.conversation.step step).map fun next =>
    { history with
      conversation := next
      transcript := (history.conversation.written step).elim history.transcript
        (·.tell history.transcript)
      subscribing := if step = .restart then [] else history.subscribing }

def readSnapshot (index : ℕ) : Option AgentHistory :=
  (history.subscribing[index]?).bind fun runtime =>
    (history.conversation.snapshotOf runtime).map fun snapshot =>
      { history with
        subscribing := history.subscribing.eraseIdx index
        readers := history.readers ++ [⟨snapshot, history.transcript, [], some none⟩] }

def listTurns (index limit : ℕ) : Option AgentHistory :=
  (history.readers[index]?).bind fun reader =>
    reader.next.map fun cursor =>
      { history with
        readers := history.readers.set index (reader.page
          (listSessionTurns history.conversation.row
            ⟨reader.snapshot.latestSeq, cursor, limit⟩)) }

def step : HistoryStep → Option AgentHistory
  | .conversation step => history.onConversation step
  | .subscribe =>
    some { history with subscribing := history.subscribing ++ [history.conversation.current] }
  | .readSnapshot index => history.readSnapshot index
  | .listTurns index limit => history.listTurns index limit

end AgentHistory

end Rieul.Agent
