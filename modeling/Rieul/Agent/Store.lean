import Mathlib.Data.Nat.Notation

/-!
# Rows of agent sessions (daemon/host/src/state_db.rs)

A session's row with the rows of its turns and messages, and the transactions on
them. Times, previews and stored configuration values are left out. A
transaction that a constraint of the schema refuses gives nothing.
-/

namespace Rieul.Agent

inductive AgentErrorKind where
  | failed
  | notFound
  | invalidArgument
  | conflict
  | unavailable

inductive AgentStopReason where
  | endTurn
  | maxTokens
  | refusal
  | cancelled
  | other (name : String)
  deriving DecidableEq

structure AgentFailure where
  message : String
  code : Option String
  retryable : Bool
  deriving DecidableEq

inductive AgentTurnState where
  | running
  | completed (stopReason : AgentStopReason)
  | failed (failure : AgentFailure)
  deriving DecidableEq

structure AgentTurnInfo where
  turnId : ℕ
  state : AgentTurnState
  deriving DecidableEq

inductive AgentMessageRole where
  | user
  | assistant
  deriving DecidableEq

inductive AgentMessageState where
  | streaming
  | complete
  deriving DecidableEq

structure AgentMessage where
  messageId : ℕ
  turnId : ℕ
  role : AgentMessageRole
  content : List String
  state : AgentMessageState
  deriving DecidableEq

structure StoredTurn where
  turn : AgentTurnInfo
  clientRequestId : String
  completedSeq : Option ℕ
  messages : List AgentMessage
  deriving DecidableEq

inductive StoredWorkspace where
  | project (projectId : String)
  | task (taskWorkspaceId : ℕ)
  deriving DecidableEq

structure StoredSession where
  sessionId : ℕ
  providerId : String
  providerSessionId : Option String
  title : Option String
  workspace : StoredWorkspace
  archived : Bool
  latestSeq : ℕ
  creationRequestId : String
  turns : List StoredTurn
  deriving DecidableEq

def StoredTurn.active (turn : StoredTurn) : Bool := turn.turn.state = .running

def StoredSession.messages (session : StoredSession) : List AgentMessage :=
  session.turns.flatMap (·.messages)

def advanceAgentSessionSeq (session : StoredSession) (count : ℕ) : StoredSession :=
  { session with latestSeq := session.latestSeq + count }

/-- `update_agent_session`; an absent title is left, and `some none` clears it. -/
def updateAgentSession (session : StoredSession) (title : Option (Option String))
    (archived : Option Bool) : StoredSession :=
  advanceAgentSessionSeq { session with
    title := title.getD session.title
    archived := archived.getD session.archived } 1

def setAgentProviderSessionId (session : StoredSession) (providerSessionId : String) :
    StoredSession :=
  { session with providerSessionId := some providerSessionId }

def findAgentTurnByClientRequest (session : StoredSession) (clientRequestId : String) :
    Option StoredTurn :=
  session.turns.find? (·.clientRequestId = clientRequestId)

structure CreatedAgentTurn where
  turnSeq : ℕ
  userMessageSeq : ℕ
  assistantMessageSeq : ℕ

/-- What a client asks of `create_turn` and the random ids it is given. -/
structure NewTurn where
  clientRequestId : String
  turnId : ℕ
  userMessageId : ℕ
  assistantMessageId : ℕ
  text : String
  deriving DecidableEq

def NewTurn.userMessage (new : NewTurn) : AgentMessage :=
  ⟨new.userMessageId, new.turnId, .user, [new.text], .complete⟩

def NewTurn.assistantMessage (new : NewTurn) : AgentMessage :=
  ⟨new.assistantMessageId, new.turnId, .assistant, [], .streaming⟩

def NewTurn.stored (new : NewTurn) : StoredTurn :=
  ⟨⟨new.turnId, .running⟩, new.clientRequestId, none, [new.userMessage, new.assistantMessage]⟩

def NewTurn.fits (new : NewTurn) (session : StoredSession) : Prop :=
  (∀ turn ∈ session.turns, turn.clientRequestId ≠ new.clientRequestId ∧
    turn.turn.turnId ≠ new.turnId ∧ turn.active = false) ∧
  (∀ message ∈ session.messages, message.messageId ≠ new.userMessageId ∧
    message.messageId ≠ new.assistantMessageId) ∧
  new.userMessageId ≠ new.assistantMessageId

instance (new : NewTurn) (session : StoredSession) : Decidable (new.fits session) :=
  inferInstanceAs (Decidable (_ ∧ _ ∧ _))

def createAgentTextTurn (session : StoredSession) (new : NewTurn) :
    Option (StoredSession × CreatedAgentTurn) :=
  if new.fits session then
    let session := advanceAgentSessionSeq { session with turns := session.turns ++ [new.stored] } 3
    some (session, ⟨session.latestSeq - 2, session.latestSeq - 1, session.latestSeq⟩)
  else none

def StoredSession.modifyMessage (session : StoredSession) (messageId : ℕ)
    (f : AgentMessage → AgentMessage) : StoredSession :=
  { session with turns := session.turns.map fun turn =>
      { turn with messages := turn.messages.map fun message =>
          if message.messageId = messageId then f message else message } }

def appendAgentTextChunk (session : StoredSession) (messageId : ℕ) (text : String) :
    Option (StoredSession × ℕ) :=
  if session.messages.any (·.messageId = messageId) then
    let session := advanceAgentSessionSeq
      (session.modifyMessage messageId fun message =>
        { message with content := message.content ++ [text] }) 1
    some (session, session.latestSeq)
  else none

structure FinishedAgentTurn where
  assistantMessageSeq : ℕ
  turnSeq : ℕ

def StoredSession.modifyTurn (session : StoredSession) (turnId : ℕ)
    (f : StoredTurn → StoredTurn) : StoredSession :=
  { session with turns := session.turns.map fun turn =>
      if turn.turn.turnId = turnId then f turn else turn }

def finishAgentTurn (session : StoredSession) (turnId assistantMessageId : ℕ)
    (state : AgentTurnState) : StoredSession × FinishedAgentTurn :=
  let session := advanceAgentSessionSeq session 2
  let session := session.modifyMessage assistantMessageId fun message =>
    { message with state := .complete }
  let session := session.modifyTurn turnId fun turn =>
    { turn with turn := ⟨turnId, state⟩, completedSeq := some session.latestSeq }
  (session, ⟨session.latestSeq - 1, session.latestSeq⟩)

structure AgentTaskWorkspace where
  taskWorkspaceId : ℕ
  sourceProjectId : Option String

structure AgentDb where
  sessions : List StoredSession
  taskWorkspaces : List AgentTaskWorkspace

def AgentDb.findSessionByCreationRequest (db : AgentDb) (creationRequestId : String) :
    Option StoredSession :=
  db.sessions.find? (·.creationRequestId = creationRequestId)

def AgentDb.findSessionById (db : AgentDb) (sessionId : ℕ) : Option StoredSession :=
  db.sessions.find? (·.sessionId = sessionId)

/-- The `task_source_project_id` that a select of the session joins. -/
def AgentDb.taskSourceProjectId (db : AgentDb) (taskWorkspaceId : ℕ) : Option String :=
  (db.taskWorkspaces.find? (·.taskWorkspaceId = taskWorkspaceId)).bind (·.sourceProjectId)

def AgentDb.admits (db : AgentDb) (session : StoredSession)
    (taskWorkspace : Option AgentTaskWorkspace) : Prop :=
  (∀ other ∈ db.sessions, other.sessionId ≠ session.sessionId ∧
    other.creationRequestId ≠ session.creationRequestId) ∧
  ∀ new ∈ taskWorkspace, ∀ other ∈ db.taskWorkspaces, other.taskWorkspaceId ≠ new.taskWorkspaceId

instance (db : AgentDb) (session : StoredSession) (taskWorkspace : Option AgentTaskWorkspace) :
    Decidable (db.admits session taskWorkspace) :=
  inferInstanceAs (Decidable (_ ∧ _))

def createAgentSession (db : AgentDb) (session : StoredSession)
    (taskWorkspace : Option AgentTaskWorkspace) : Option AgentDb :=
  if db.admits session taskWorkspace then
    some ⟨db.sessions ++ [session], db.taskWorkspaces ++ taskWorkspace.toList⟩
  else none

def AgentDb.modifySession (db : AgentDb) (sessionId : ℕ) (f : StoredSession → StoredSession) :
    AgentDb :=
  { db with sessions := db.sessions.map fun session =>
      if session.sessionId = sessionId then f session else session }

end Rieul.Agent
