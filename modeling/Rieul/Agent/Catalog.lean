import Rieul.Agent.History
import Rieul.Lib.System

/-!
# The catalog of sessions (daemon/host/src/agent.rs, state_db.rs)

The transactions that record a change of the catalog, the listing with its two
accesses to the database, and the watch channel of the revision. A send on the
channel keeps the old value where there is no receiver.
-/

namespace Rieul.Agent

def maxSessionPageSize : ℕ := 100

/-- A session's row with the columns that only the catalog shows, and the source project of its task
workspace. -/
structure CatalogSession where
  session : StoredSession
  taskSourceProjectId : Option String
  lastMessagePreview : Option String
  updatedAtMs : ℕ

inductive AgentSessionWorkspaceFilter where
  | any
  | project (projectId : String)
  | task (sourceProjectId : Option String)
  deriving DecidableEq

inductive AgentSessionArchiveFilter where
  | activeOnly
  | archivedOnly
  | all
  deriving DecidableEq

/-- `LIKE` with the pattern of `agent_search_pattern`: the query occurs, but for the case of ASCII
letters. -/
def containsQuery (query text : String) : Bool :=
  (text.toList.map Char.toLower).tails.any ((query.toList.map Char.toLower).isPrefixOf ·)

def AgentSessionWorkspaceFilter.admits (row : CatalogSession) : AgentSessionWorkspaceFilter → Bool
  | any => true
  | project projectId => row.session.workspace = .project projectId
  | task sourceProjectId =>
    match row.session.workspace with
    | .project _ => false
    | .task _ => sourceProjectId.all fun id => row.taskSourceProjectId = some id

def AgentSessionArchiveFilter.admits (row : CatalogSession) : AgentSessionArchiveFilter → Bool
  | activeOnly => !row.session.archived
  | archivedOnly => row.session.archived
  | all => true

structure CatalogFilter where
  workspace : AgentSessionWorkspaceFilter
  archived : AgentSessionArchiveFilter
  query : Option String
  deriving DecidableEq

def CatalogFilter.admits (filter : CatalogFilter) (row : CatalogSession) : Bool :=
  filter.workspace.admits row && filter.archived.admits row &&
    filter.query.all fun query =>
      row.session.title.any (containsQuery query) || row.lastMessagePreview.any (containsQuery query)

def CatalogSession.key (row : CatalogSession) : ℕ ×ₗ ℕ :=
  toLex (row.updatedAtMs, row.session.sessionId)

def listAgentSessions (sessions : List CatalogSession) (filter : CatalogFilter)
    (cursor : Option (ℕ ×ₗ ℕ)) (limit : ℕ) : List CatalogSession :=
  (Pages.descending (·.key) (Pages.before (·.key) cursor (sessions.filter filter.admits))).take limit

structure AgentSessionSummary where
  sessionId : ℕ
  providerId : String
  title : Option String
  workspace : StoredWorkspace
  taskSourceProjectId : Option String
  turnState : AgentSessionTurnState
  archived : Bool
  updatedAtMs : ℕ
  lastMessagePreview : Option String

def sessionSummary (row : CatalogSession) : AgentSessionSummary where
  sessionId := row.session.sessionId
  providerId := row.session.providerId
  title := row.session.title
  workspace := row.session.workspace
  taskSourceProjectId := row.taskSourceProjectId
  turnState := if row.session.turns.any (·.active) then .running else .idle
  archived := row.session.archived
  updatedAtMs := row.updatedAtMs
  lastMessagePreview := row.lastMessagePreview

/-- `changes` are the recorded changes, each with the session it is of. -/
structure SessionCatalog where
  sessions : List CatalogSession
  revision : ℕ
  changes : List (ℕ × ℕ)

inductive CatalogWrite where
  | createSession (row : CatalogSession)
  | updateSession (sessionId : ℕ) (title : Option (Option String)) (archived : Option Bool)
      (nowMs : ℕ)
  | createTurn (sessionId : ℕ) (new : NewTurn) (nowMs : ℕ)
  | finishTurn (sessionId turnId assistantMessageId : ℕ) (state : AgentTurnState)
      (preview : Option String) (nowMs : ℕ)

namespace SessionCatalog
variable (catalog : SessionCatalog)

def recordAgentCatalogChange (sessionId : ℕ) : SessionCatalog :=
  { catalog with
    revision := catalog.revision + 1
    changes := catalog.changes ++ [(catalog.revision + 1, sessionId)] }

def onSession (sessionId : ℕ) (f : CatalogSession → Option CatalogSession) :
    Option (List CatalogSession) :=
  if catalog.sessions.any (·.session.sessionId = sessionId) then
    catalog.sessions.mapM fun row => if row.session.sessionId = sessionId then f row else some row
  else none

def rows : CatalogWrite → Option (List CatalogSession)
  | .createSession row =>
    if catalog.sessions.all fun other => other.session.sessionId ≠ row.session.sessionId ∧
        other.session.creationRequestId ≠ row.session.creationRequestId then
      some (catalog.sessions ++ [row])
    else none
  | .updateSession sessionId title archived nowMs =>
    catalog.onSession sessionId fun row => some { row with
      session := updateAgentSession row.session title archived
      updatedAtMs := nowMs }
  | .createTurn sessionId new nowMs =>
    catalog.onSession sessionId fun row =>
      (createAgentTextTurn row.session new).map fun created => { row with
        session := created.1
        updatedAtMs := nowMs }
  | .finishTurn sessionId turnId assistantMessageId state preview nowMs =>
    catalog.onSession sessionId fun row => some { row with
      session := (finishAgentTurn row.session turnId assistantMessageId state).1
      lastMessagePreview := preview
      updatedAtMs := nowMs }

end SessionCatalog

def CatalogWrite.sessionId : CatalogWrite → ℕ
  | createSession row => row.session.sessionId
  | updateSession sessionId _ _ _ => sessionId
  | createTurn sessionId _ _ => sessionId
  | finishTurn sessionId _ _ _ _ _ => sessionId

def SessionCatalog.commit (catalog : SessionCatalog) (write : CatalogWrite) :
    Option SessionCatalog :=
  (catalog.rows write).map fun sessions =>
    { catalog with sessions := sessions }.recordAgentCatalogChange write.sessionId

def SessionCatalog.advance (catalog : SessionCatalog) (sessionId nowMs : ℕ) : SessionCatalog :=
  { catalog with sessions := catalog.sessions.map fun row =>
      if row.session.sessionId = sessionId then
        { row with session := advanceAgentSessionSeq row.session 1, updatedAtMs := nowMs }
      else row }

/-- What `encode_session_cursor` writes; its fingerprint is a hash of the filter. -/
structure CatalogCursor where
  filter : CatalogFilter
  key : ℕ ×ₗ ℕ

structure ListAgentSessionsReq where
  filter : CatalogFilter
  cursor : Option CatalogCursor
  limit : ℕ

structure CatalogPage where
  rows : List AgentSessionSummary
  nextCursor : Option CatalogCursor

def ListAgentSessionsReq.check (request : ListAgentSessionsReq) : Except AgentError Unit :=
  if request.limit < 1 ∨ maxSessionPageSize < request.limit then
    .error (.invalidArgument "limit must be between 1 and 100")
  else if request.cursor.any (·.filter ≠ request.filter) then
    .error (.invalidArgument "session cursor does not match the request filters")
  else .ok ()

def SessionCatalog.page (catalog : SessionCatalog) (request : ListAgentSessionsReq) : CatalogPage :=
  let rows := listAgentSessions catalog.sessions request.filter (request.cursor.map (·.key))
    (request.limit + 1)
  { rows := (rows.take request.limit).map sessionSummary
    nextCursor := (Pages.nextCursor (·.key) request.limit rows).map (⟨request.filter, ·⟩) }

/-- A listing between its two accesses to the database; `since` is the revision at the first. -/
structure CatalogListing where
  request : ListAgentSessionsReq
  page : CatalogPage
  since : ℕ

structure CatalogAnswer where
  request : ListAgentSessionsReq
  page : CatalogPage
  catalogRevision : ℕ

/-- `publishing` are the revisions of the calls that have not sent theirs yet, and `past` the states
that the database had. -/
structure CatalogServer where
  catalog : SessionCatalog
  events : ℕ
  receivers : ℕ
  publishing : List ℕ
  listings : List CatalogListing
  answers : List CatalogAnswer
  past : List SessionCatalog

def CatalogServer.opened (catalog : SessionCatalog) : CatalogServer :=
  ⟨catalog, catalog.revision, 0, [], [], [], [catalog]⟩

inductive CatalogServerStep where
  | write (write : CatalogWrite)
  | advance (sessionId nowMs : ℕ)
  | publish (index : ℕ)
  | subscribe
  | unsubscribe
  | listRows (request : ListAgentSessionsReq)
  | readRevision (index : ℕ)

namespace CatalogServer
variable (server : CatalogServer)

def stored (catalog : SessionCatalog) : CatalogServer :=
  { server with
    catalog := catalog
    past := server.past ++ [catalog] }

def step : CatalogServerStep → Option CatalogServer
  | .write write =>
    match server.catalog.commit write with
    | none => some server
    | some catalog => some { server.stored catalog with
        publishing := server.publishing ++ [catalog.revision] }
  | .advance sessionId nowMs => some (server.stored (server.catalog.advance sessionId nowMs))
  | .publish index =>
    (server.publishing[index]?).map fun revision => { server with
      events := if server.receivers = 0 then server.events else revision
      publishing := server.publishing.eraseIdx index }
  | .subscribe => some { server with receivers := server.receivers + 1 }
  | .unsubscribe => some { server with receivers := server.receivers - 1 }
  | .listRows request =>
    match request.check with
    | .error _ => some server
    | .ok () => some { server with listings := server.listings ++
        [⟨request, server.catalog.page request, server.catalog.revision⟩] }
  | .readRevision index =>
    (server.listings[index]?).map fun listing => { server with
      listings := server.listings.eraseIdx index
      answers := server.answers ++
        [⟨listing.request, listing.page, server.catalog.revision⟩] }

end CatalogServer

end Rieul.Agent
