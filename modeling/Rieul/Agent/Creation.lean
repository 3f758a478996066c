import Rieul.Agent.Store

/-!
# Creation of agent sessions and turns (daemon/host/src/agent.rs)

`create_session` and `create_turn` between the database operations and the
operations on the disk that they make. A restart keeps the database and the disk.
-/

namespace Rieul.Agent

inductive CreateAgentWorkspace where
  | project (projectId : String)
  | taskEmpty
  | taskProject (projectId : String)

structure CreateAgentSessionReq where
  providerId : String
  workspace : CreateAgentWorkspace
  title : Option String
  creationRequestId : String

def sessionMatchesCreateRequest (db : AgentDb) (session : StoredSession)
    (request : CreateAgentSessionReq) : Bool :=
  if session.providerId ≠ request.providerId ∨ session.title ≠ request.title then false
  else match request.workspace, session.workspace with
    | .project projectId, .project stored => stored = projectId
    | .taskEmpty, .task taskWorkspaceId => (db.taskSourceProjectId taskWorkspaceId).isNone
    | _, _ => false

def existingAnswer (db : AgentDb) (request : CreateAgentSessionReq) :
    Option (Except AgentErrorKind ℕ) :=
  (db.findSessionByCreationRequest request.creationRequestId).map fun existing =>
    if sessionMatchesCreateRequest db existing request then .ok existing.sessionId
    else .error .conflict

def StoredWorkspace.directory : StoredWorkspace → Option ℕ
  | .project _ => none
  | .task taskWorkspaceId => some taskWorkspaceId

/-- What a `create_session` still has to do. -/
inductive CreateCall where
  | find (request : CreateAgentSessionReq)
  | provision (request : CreateAgentSessionReq)
  | insert (request : CreateAgentSessionReq) (workspace : StoredWorkspace)
  | removeDir (request : CreateAgentSessionReq) (directory : ℕ)
  | findAgain (request : CreateAgentSessionReq)

/-- What a `create_turn` still has to do. -/
inductive TurnCall where
  | find (sessionId : ℕ) (new : NewTurn)
  | insert (sessionId : ℕ) (new : NewTurn)
  | findAgain (sessionId : ℕ) (new : NewTurn)
  | prompt (sessionId : ℕ) (new : NewTurn)

/-- What the surroundings of a call answer: whether the provider is configured, whether the project
is known and its directory there, whether the runtime admits a turn, whether the operation
succeeds, and the random id it takes. -/
structure Surroundings where
  configured : Bool
  project : Option Bool
  admitted : Bool
  ok : Bool
  id : ℕ

/-- `origins` tells the request each session was created by, `prompts` the turns handed to an
agent. -/
structure AgentCatalog where
  db : AgentDb
  taskDirs : List ℕ
  creations : List CreateCall
  turnCalls : List TurnCall
  answers : List (CreateAgentSessionReq × Except AgentErrorKind ℕ)
  turnAnswers : List (ℕ × String × Except AgentErrorKind ℕ)
  origins : List (ℕ × CreateAgentSessionReq)
  prompts : List (ℕ × String)

def AgentCatalog.opened : AgentCatalog := ⟨⟨[], []⟩, [], [], [], [], [], [], []⟩

namespace AgentCatalog
variable (catalog : AgentCatalog)

def answer (request : CreateAgentSessionReq) (result : Except AgentErrorKind ℕ) : AgentCatalog :=
  { catalog with answers := catalog.answers ++ [(request, result)] }

def goOn (call : CreateCall) : AgentCatalog :=
  { catalog with creations := catalog.creations ++ [call] }

def answerTurn (sessionId : ℕ) (new : NewTurn) (result : Except AgentErrorKind ℕ) : AgentCatalog :=
  { catalog with
    turnAnswers := catalog.turnAnswers ++ [(sessionId, new.clientRequestId, result)] }

def goOnTurn (call : TurnCall) : AgentCatalog :=
  { catalog with turnCalls := catalog.turnCalls ++ [call] }

def createSession (request : CreateAgentSessionReq) : AgentCatalog :=
  if request.creationRequestId = "" then catalog.answer request (.error .invalidArgument)
  else catalog.goOn (.find request)

def provision (request : CreateAgentSessionReq) (env : Surroundings) : Option AgentCatalog :=
  if env.configured = false then some (catalog.answer request (.error .invalidArgument))
  else match request.workspace with
    | .project projectId =>
      if env.ok then match env.project with
        | none => some (catalog.answer request (.error .notFound))
        | some false => some (catalog.answer request (.error .unavailable))
        | some true => some (catalog.goOn (.insert request (.project projectId)))
      else some (catalog.answer request (.error .failed))
    | .taskEmpty =>
      -- the random id is none that was given before
      if env.id ∈ catalog.taskDirs then none
      else if env.ok then
        some ({ catalog with taskDirs := catalog.taskDirs ++ [env.id] }.goOn
          (.insert request (.task env.id)))
      else some (catalog.answer request (.error .failed))
    | .taskProject _ => some (catalog.answer request (.error .invalidArgument))

def newSession (request : CreateAgentSessionReq) (workspace : StoredWorkspace) (sessionId : ℕ) :
    StoredSession where
  sessionId := sessionId
  providerId := request.providerId
  providerSessionId := none
  title := request.title
  workspace := workspace
  archived := false
  latestSeq := 0
  creationRequestId := request.creationRequestId
  turns := []

def insert (request : CreateAgentSessionReq) (workspace : StoredWorkspace) (env : Surroundings) :
    AgentCatalog :=
  let created := if env.ok then
      createAgentSession catalog.db (newSession request workspace env.id)
        (workspace.directory.map fun taskWorkspaceId => ⟨taskWorkspaceId, none⟩)
    else none
  match created with
  | some db =>
    { catalog with db := db, origins := catalog.origins ++ [(env.id, request)] }.answer request
      (.ok env.id)
  | none => catalog.goOn (match workspace with
    | .task directory => .removeDir request directory
    | .project _ => .findAgain request)

def resumeCreation (env : Surroundings) : CreateCall → Option AgentCatalog
  | .find request =>
    if env.ok then match existingAnswer catalog.db request with
      | some result => some (catalog.answer request result)
      | none => some (catalog.goOn (.provision request))
    else some (catalog.answer request (.error .failed))
  | .provision request => catalog.provision request env
  | .insert request workspace => some (catalog.insert request workspace env)
  | .removeDir request directory =>
    some ({ catalog with
      taskDirs := if env.ok then catalog.taskDirs.filter (· ≠ directory) else catalog.taskDirs }.goOn
        (.findAgain request))
  | .findAgain request =>
    if env.ok then match existingAnswer catalog.db request with
      | some result => some (catalog.answer request result)
      | none => some (catalog.answer request (.error .failed))
    else some (catalog.answer request (.error .failed))

def createTurn (sessionId : ℕ) (new : NewTurn) : AgentCatalog :=
  if new.clientRequestId = "" then catalog.answerTurn sessionId new (.error .invalidArgument)
  else catalog.goOnTurn (.find sessionId new)

def existingTurn (sessionId : ℕ) (new : NewTurn) : Option ℕ :=
  (catalog.db.findSessionById sessionId).bind fun session =>
    (findAgentTurnByClientRequest session new.clientRequestId).map (·.turn.turnId)

def resumeTurn (env : Surroundings) : TurnCall → AgentCatalog
  | .find sessionId new =>
    if env.ok then match catalog.existingTurn sessionId new with
      | some turnId => catalog.answerTurn sessionId new (.ok turnId)
      | none =>
        if new.text = "" then catalog.answerTurn sessionId new (.error .invalidArgument)
        else catalog.goOnTurn (.insert sessionId new)
    else catalog.answerTurn sessionId new (.error .failed)
  | .insert sessionId new =>
    if env.admitted then
      let created := if env.ok then
          (catalog.db.findSessionById sessionId).bind (createAgentTextTurn · new)
        else none
      match created with
      | some (session, _) =>
        { catalog with db := catalog.db.modifySession sessionId fun _ => session }.goOnTurn
          (.prompt sessionId new)
      | none => catalog.goOnTurn (.findAgain sessionId new)
    else catalog.answerTurn sessionId new (.error .unavailable)
  | .findAgain sessionId new =>
    if env.ok then match catalog.existingTurn sessionId new with
      | some turnId => catalog.answerTurn sessionId new (.ok turnId)
      | none => catalog.answerTurn sessionId new (.error .failed)
    else catalog.answerTurn sessionId new (.error .failed)
  | .prompt sessionId new =>
    { catalog with prompts := catalog.prompts ++ [(sessionId, new.clientRequestId)] }.answerTurn
      sessionId new (.ok new.turnId)

end AgentCatalog

/-- `updateSession` and `finishTurn` are the transactions of calls that need no more here. -/
inductive CatalogStep where
  | createSession (request : CreateAgentSessionReq)
  | resumeCreation (index : ℕ) (env : Surroundings)
  | createTurn (sessionId : ℕ) (new : NewTurn)
  | resumeTurn (index : ℕ) (env : Surroundings)
  | updateSession (sessionId : ℕ) (title : Option (Option String)) (archived : Option Bool)
  | finishTurn (sessionId turnId assistantMessageId : ℕ) (state : AgentTurnState)
  | restart

def AgentCatalog.step (catalog : AgentCatalog) : CatalogStep → Option AgentCatalog
  | .createSession request => some (catalog.createSession request)
  | .resumeCreation index env =>
    (catalog.creations[index]?).bind
      ({ catalog with creations := catalog.creations.eraseIdx index }.resumeCreation env)
  | .createTurn sessionId new => some (catalog.createTurn sessionId new)
  | .resumeTurn index env =>
    (catalog.turnCalls[index]?).map
      ({ catalog with turnCalls := catalog.turnCalls.eraseIdx index }.resumeTurn env)
  | .updateSession sessionId title archived =>
    some { catalog with
      db := catalog.db.modifySession sessionId (updateAgentSession · title archived) }
  | .finishTurn sessionId turnId assistantMessageId state =>
    some { catalog with db := catalog.db.modifySession sessionId fun session =>
      (finishAgentTurn session turnId assistantMessageId state).1 }
  | .restart => some { catalog with creations := [], turnCalls := [] }

end Rieul.Agent
