import Rieul.Agent.Live

/-!
# Attachment of a session (daemon/host/src/agent.rs, agent_runtime.rs)

`create_and_attach_session` and `attach_session` between their reads of the row,
the start of the runtime and the installation of its live session. The lives of
removed runtimes stay for the calls that still hold them.
-/

namespace Rieul.Agent

def sessionInfo (row : StoredSession) : AgentSessionInfo where
  title := row.title
  archived := row.archived
  providerSessionId := row.providerSessionId
  attachment := .dormant
  turnState := if row.turns.any (·.active) then .running else .idle
  failure := none
  updatedAtMs := row.latestSeq
  attachedAtMs := none
  detachedAtMs := none

/-- A start of a runtime; `task` is the task that runs it. -/
structure RuntimeStart where
  persisted : StoredSession
  latestSeq : ℕ
  task : ℕ
  deriving DecidableEq

structure AgentRuntimeReady where
  start : RuntimeStart
  providerSessionId : String
  configOptions : List AgentConfigOption
  deriving DecidableEq

inductive Attaching where
  | locked
  | persisted (session : StoredSession)
  | starting (start : RuntimeStart)
  | ready (ready : AgentRuntimeReady)
  | stored (ready : AgentRuntimeReady)
  deriving DecidableEq

def AgentRuntimeReady.snapshot (ready : AgentRuntimeReady) : AgentSessionLiveSnapshot where
  session := { sessionInfo ready.start.persisted with
    providerSessionId := some ready.providerSessionId
    attachment := .attached
    attachedAtMs := some ready.start.latestSeq
    updatedAtMs := ready.start.latestSeq }
  activeTurn := none
  usage := none
  configOptions := ready.configOptions
  latestSeq := ready.start.latestSeq

structure AgentRuntimeEntry where
  task : ℕ
  live : AgentLiveSession

/-- `current` is the entry of the session among the runtimes, `alive` the tasks that have not ended,
`abandoned` those of starts that failed. -/
structure AgentConversation where
  row : StoredSession
  creating : List StoredSession
  attaching : Option Attaching
  entries : List AgentRuntimeEntry
  current : Option ℕ
  tasks : ℕ
  alive : List ℕ
  abandoned : List ℕ

def AgentConversation.created (row : StoredSession) : AgentConversation :=
  ⟨row, [], none, [], none, 0, [], []⟩

inductive ConversationStep where
  | createAndAttach
  | lockCreated (index : ℕ)
  | lockAttach
  | readRow (providerKnown : Bool)
  | startRuntime
  | started (ready : Option (String × List AgentConfigOption))
  | storeProviderSession (ok : Bool)
  | install (ok : Bool)
  | taskEnds (task : ℕ)
  | removeRuntime (index : ℕ)
  | updateUnattached (title : Option (Option String)) (archived : Option Bool)
  | live (index : ℕ) (step : LiveStep)
  | restart
  deriving DecidableEq

namespace AgentConversation
variable (conversation : AgentConversation)

def lock (attaching : Attaching) : Option AgentConversation :=
  if conversation.attaching.isSome then none
  else if conversation.current.isSome then some conversation
  else some { conversation with attaching := some attaching }

def abandon (task : ℕ) : AgentConversation :=
  { conversation with
    attaching := none
    abandoned := conversation.abandoned ++ [task] }

def readRow (providerKnown : Bool) : Option AgentConversation :=
  match conversation.attaching with
  | some .locked =>
    some { conversation with
      attaching := if providerKnown then some (.persisted conversation.row) else none }
  | _ => none

def startRuntime : Option AgentConversation :=
  match conversation.attaching with
  | some (.persisted session) =>
    some { conversation with
      attaching := some (.starting ⟨session, conversation.row.latestSeq, conversation.tasks⟩)
      tasks := conversation.tasks + 1
      alive := conversation.alive ++ [conversation.tasks] }
  | _ => none

def started (ready : Option (String × List AgentConfigOption)) : Option AgentConversation :=
  match conversation.attaching with
  | some (.starting start) =>
    match ready with
    | none => some (conversation.abandon start.task)
    | some (providerSessionId, configOptions) =>
      -- a session that is resumed or loaded keeps its id
      if start.persisted.providerSessionId.all (· = providerSessionId) then
        some { conversation with
          attaching := some (.ready ⟨start, providerSessionId, configOptions⟩) }
      else none
  | _ => none

def storeProviderSession (ok : Bool) : Option AgentConversation :=
  match conversation.attaching with
  | some (.ready ready) =>
    if ready.start.persisted.providerSessionId.isSome then
      some { conversation with attaching := some (.stored ready) }
    else if ok then
      some { conversation with
        row := setAgentProviderSessionId conversation.row ready.providerSessionId
        attaching := some (.stored ready) }
    else some (conversation.abandon ready.start.task)
  | _ => none

def install (ok : Bool) : Option AgentConversation :=
  match conversation.attaching with
  | some (.stored ready) =>
    if ok then
      some { conversation with
        attaching := none
        entries := conversation.entries ++ [⟨ready.start.task, .started ready.snapshot⟩]
        current := some conversation.entries.length }
    else some (conversation.abandon ready.start.task)
  | _ => none

def removeRuntime (index : ℕ) : Option AgentConversation :=
  (conversation.entries[index]?).bind fun entry =>
    if entry.task ∈ conversation.alive then none
    else some { conversation with
      current := if conversation.current = some index then none else conversation.current }

def onLive (index : ℕ) (step : LiveStep) : Option AgentConversation :=
  (conversation.entries[index]?).bind fun entry =>
    (AttachedSession.step ⟨conversation.row, entry.live⟩ step).map fun attached =>
      { conversation with
        row := attached.row
        entries := conversation.entries.set index { entry with live := attached.live } }

def step : ConversationStep → Option AgentConversation
  | .createAndAttach =>
    some { conversation with creating := conversation.creating ++ [conversation.row] }
  | .lockCreated index =>
    (conversation.creating[index]?).bind fun session =>
      { conversation with creating := conversation.creating.eraseIdx index }.lock
        (.persisted session)
  | .lockAttach => conversation.lock .locked
  | .readRow providerKnown => conversation.readRow providerKnown
  | .startRuntime => conversation.startRuntime
  | .started ready => conversation.started ready
  | .storeProviderSession ok => conversation.storeProviderSession ok
  | .install ok => conversation.install ok
  | .taskEnds task => some { conversation with alive := conversation.alive.filter (· ≠ task) }
  | .removeRuntime index => conversation.removeRuntime index
  | .updateUnattached title archived =>
    some { conversation with row := updateAgentSession conversation.row title archived }
  | .live index step => conversation.onLive index step
  | .restart => some { created conversation.row with tasks := conversation.tasks }

end AgentConversation

end Rieul.Agent
