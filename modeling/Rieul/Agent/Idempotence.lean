import Mathlib.Data.List.Nodup
import Rieul.Agent.Creation
import Rieul.Lib.Calls
import Rieul.Lib.System

/-!
# Repeated requests to an agent

The keys of the tables keep one session for a creation key and one turn for a client's key, and a
turn is handed to the agent by the call that inserted it.
-/

namespace Rieul.Agent

structure SessionKeys where
  sessionId : ℕ
  providerId : String
  workspace : StoredWorkspace
  creationRequestId : String
  turns : List String

def StoredSession.keys (session : StoredSession) : SessionKeys where
  sessionId := session.sessionId
  providerId := session.providerId
  workspace := session.workspace
  creationRequestId := session.creationRequestId
  turns := session.turns.map (·.clientRequestId)

def AgentDb.keys (db : AgentDb) : List SessionKeys := db.sessions.map (·.keys)

theorem mem_keys {db : AgentDb} {session : StoredSession} (h : session ∈ db.sessions) :
    session.keys ∈ db.keys :=
  List.mem_map_of_mem h

variable (db : AgentDb)

theorem AgentDb.modifySession_keys (sessionId : ℕ)
    (f : StoredSession → StoredSession) (hf : ∀ session, (f session).keys = session.keys) :
    (db.modifySession sessionId f).keys = db.keys := by
  unfold AgentDb.keys AgentDb.modifySession
  rw [List.map_map]
  apply List.map_congr_left
  intro session _
  show (if session.sessionId = sessionId then f session else session).keys = session.keys
  split
  · exact hf session
  · rfl

variable {catalog : AgentCatalog} {strict : Prop} (session : StoredSession)

theorem StoredSession.modifyMessage_keys (messageId : ℕ)
    (f : AgentMessage → AgentMessage) : (session.modifyMessage messageId f).keys = session.keys := by
  unfold StoredSession.modifyMessage StoredSession.keys
  rw [List.map_map]
  rfl

theorem StoredSession.modifyTurn_keys (turnId : ℕ)
    (f : StoredTurn → StoredTurn) (hf : ∀ turn, (f turn).clientRequestId = turn.clientRequestId) :
    (session.modifyTurn turnId f).keys = session.keys := by
  unfold StoredSession.modifyTurn StoredSession.keys
  have hturns : session.turns.map ((·.clientRequestId) ∘ fun turn =>
      if turn.turn.turnId = turnId then f turn else turn) =
      session.turns.map (·.clientRequestId) := by
    apply List.map_congr_left
    intro turn _
    show (if turn.turn.turnId = turnId then f turn else turn).clientRequestId = turn.clientRequestId
    split
    · exact hf turn
    · rfl
  rw [List.map_map, hturns]

theorem updateAgentSession_keys (title : Option (Option String))
    (archived : Option Bool) : (updateAgentSession session title archived).keys = session.keys :=
  rfl

theorem finishAgentTurn_keys (turnId assistantMessageId : ℕ)
    (state : AgentTurnState) :
    (finishAgentTurn session turnId assistantMessageId state).1.keys = session.keys := by
  have hmessage := StoredSession.modifyMessage_keys (advanceAgentSessionSeq session 2)
    assistantMessageId fun message => { message with state := .complete }
  refine (StoredSession.modifyTurn_keys _ turnId _ ?_).trans hmessage
  exact fun _ => rfl

def SessionKeys.addTurn (keys : SessionKeys) (sessionId : ℕ) (clientRequestId : String) :
    SessionKeys :=
  if keys.sessionId = sessionId then { keys with turns := keys.turns ++ [clientRequestId] }
  else keys

theorem find_eq_of_nodup {α β : Type} [DecidableEq β] (key : α → β) (l : List α)
    (hnodup : (l.map key).Nodup) (a : α) (ha : a ∈ l) : l.find? (fun b => key b = key a) = some a := by
  induction l with
  | nil => cases ha
  | cons b l ih =>
    obtain ⟨hb, hnodup⟩ := List.nodup_cons.mp hnodup
    rcases List.mem_cons.mp ha with heq | hmem
    · rw [heq]
      exact List.find?_cons_of_pos (decide_eq_true rfl)
    · rw [List.find?_cons_of_neg]
      · exact ih hnodup hmem
      · intro heq
        apply hb
        rw [of_decide_eq_true heq]
        exact List.mem_map_of_mem hmem

theorem addTurn_keys (sessionId : ℕ) (session next : StoredSession) (new : NewTurn)
    (created : CreatedAgentTurn) (hnodup : (db.keys.map (·.sessionId)).Nodup)
    (hfind : db.findSessionById sessionId = some session)
    (hcreate : createAgentTextTurn session new = some (next, created)) :
    (db.modifySession sessionId fun _ => next).keys =
      db.keys.map (·.addTurn sessionId new.clientRequestId) := by
  have hid : session.sessionId = sessionId := by
    have hsome := List.find?_some hfind
    exact of_decide_eq_true hsome
  have hnext : next.keys = session.keys.addTurn sessionId new.clientRequestId := by
    unfold createAgentTextTurn at hcreate
    split at hcreate
    · cases hcreate
      unfold SessionKeys.addTurn
      rw [if_pos (show session.keys.sessionId = sessionId from hid)]
      unfold StoredSession.keys advanceAgentSessionSeq
      rw [List.map_append]
      rfl
    · cases hcreate
  unfold AgentDb.keys AgentDb.modifySession
  rw [List.map_map, List.map_map]
  apply List.map_congr_left
  intro other hmem
  show (if other.sessionId = sessionId then next else other).keys =
    other.keys.addTurn sessionId new.clientRequestId
  by_cases heq : other.sessionId = sessionId
  · have hnodup : (db.sessions.map (·.sessionId)).Nodup := by
      unfold AgentDb.keys at hnodup
      rwa [List.map_map] at hnodup
    have hsame := find_eq_of_nodup (·.sessionId) db.sessions hnodup other hmem
    rw [heq] at hsame
    rw [if_pos heq, hnext, Option.some.inj (hfind.symm.trans hsame)]
  · rw [if_neg heq]
    unfold SessionKeys.addTurn
    rw [if_neg (show ¬ other.keys.sessionId = sessionId from heq)]

def CreateAgentSessionReq.describes (request : CreateAgentSessionReq) : StoredWorkspace → Prop
  | .project stored => request.workspace = .project stored
  | .task _ => request.workspace = .taskEmpty

def CreateCall.holds : CreateCall → Option (CreateAgentSessionReq × StoredWorkspace)
  | .insert request workspace => some (request, workspace)
  | .removeDir request directory => some (request, .task directory)
  | _ => none

def TurnCall.handing : TurnCall → Option (ℕ × String)
  | .prompt sessionId new => some (sessionId, new.clientRequestId)
  | _ => none

def Owned (keys : List SessionKeys) (directory : ℕ) : Prop :=
  ∃ session ∈ keys, session.workspace = .task directory

structure SessionsKept (strict : Prop) (keys : List SessionKeys) (taskWorkspaces : List AgentTaskWorkspace)
    (taskDirs : List ℕ) (creations : List CreateCall)
    (origins : List (ℕ × CreateAgentSessionReq)) : Prop where
  sessionIds : (keys.map (·.sessionId)).Nodup
  creationIds : (keys.map (·.creationRequestId)).Nodup
  turnIds : ∀ session ∈ keys, session.turns.Nodup
  sources : ∀ workspace ∈ taskWorkspaces, workspace.sourceProjectId = none
  owned : ∀ workspace ∈ taskWorkspaces, Owned keys workspace.taskWorkspaceId
  dirs : strict → ∀ directory ∈ taskDirs, Owned keys directory ∨
    ∃ call ∈ creations, ∃ request, call.holds = some (request, .task directory)
  holds : ∀ call ∈ creations, ∀ request workspace, call.holds = some (request, workspace) →
    request.describes workspace
  origin : ∀ id request, (id, request) ∈ origins → ∃ session ∈ keys, session.sessionId = id ∧
    session.providerId = request.providerId ∧
    session.creationRequestId = request.creationRequestId ∧ request.describes session.workspace
  created : ∀ session ∈ keys, ∃ request, (session.sessionId, request) ∈ origins

structure TurnsKept (keys : List SessionKeys) (handed : List (ℕ × String)) : Prop where
  nodup : handed.Nodup
  stored : ∀ turn ∈ handed, ∃ session ∈ keys, session.sessionId = turn.1 ∧ turn.2 ∈ session.turns

def AgentCatalog.handed (catalog : AgentCatalog) : List (ℕ × String) :=
  catalog.prompts ++ catalog.turnCalls.filterMap (·.handing)

structure AgentCatalog.Kept (catalog : AgentCatalog) (strict : Prop) : Prop where
  sessions : SessionsKept strict catalog.db.keys catalog.db.taskWorkspaces catalog.taskDirs
    catalog.creations catalog.origins
  turns : TurnsKept catalog.db.keys catalog.handed

section
variable {strict : Prop} {keys : List SessionKeys} {taskWorkspaces : List AgentTaskWorkspace}
variable {taskDirs : List ℕ}
variable {creations : List CreateCall} {origins : List (ℕ × CreateAgentSessionReq)}
variable {handed : List (ℕ × String)}

theorem SessionKeys.addTurn_columns (session : SessionKeys) (sessionId : ℕ)
    (clientRequestId : String) :
    (session.addTurn sessionId clientRequestId).sessionId = session.sessionId ∧
    (session.addTurn sessionId clientRequestId).providerId = session.providerId ∧
    (session.addTurn sessionId clientRequestId).workspace = session.workspace ∧
    (session.addTurn sessionId clientRequestId).creationRequestId = session.creationRequestId := by
  unfold SessionKeys.addTurn
  split
  · exact ⟨rfl, rfl, rfl, rfl⟩
  · exact ⟨rfl, rfl, rfl, rfl⟩

theorem SessionKeys.mem_addTurn (session : SessionKeys) (sessionId : ℕ) (clientRequestId other : String)
    (h : other ∈ session.turns) : other ∈ (session.addTurn sessionId clientRequestId).turns := by
  unfold SessionKeys.addTurn
  split
  · exact List.mem_append_left _ h
  · exact h

theorem Owned.addTurn (directory sessionId : ℕ) (clientRequestId : String)
    (h : Owned keys directory) :
    Owned (keys.map (·.addTurn sessionId clientRequestId)) directory := by
  obtain ⟨session, hmem, hworkspace⟩ := h
  refine ⟨_, List.mem_map_of_mem hmem, ?_⟩
  rw [(session.addTurn_columns sessionId clientRequestId).2.2.1, hworkspace]

theorem SessionsKept.addTurn (h : SessionsKept strict keys taskWorkspaces taskDirs creations origins)
    (sessionId : ℕ) (clientRequestId : String)
    (hnew : ∀ session ∈ keys, session.sessionId = sessionId → clientRequestId ∉ session.turns) :
    SessionsKept strict (keys.map (·.addTurn sessionId clientRequestId)) taskWorkspaces taskDirs creations
      origins := by
  have hcolumns := fun session : SessionKeys => session.addTurn_columns sessionId clientRequestId
  constructor
  · have hsame := List.map_congr_left fun session (_ : session ∈ keys) => (hcolumns session).1
    rw [List.map_map]
    exact hsame ▸ h.sessionIds
  · have hsame := List.map_congr_left fun session (_ : session ∈ keys) => (hcolumns session).2.2.2
    rw [List.map_map]
    exact hsame ▸ h.creationIds
  · intro session hmem
    obtain ⟨old, hold, heq⟩ := List.mem_map.mp hmem
    rw [← heq]
    unfold SessionKeys.addTurn
    split
    · rename_i hid
      apply List.nodup_append.mpr
      refine ⟨h.turnIds old hold, List.nodup_singleton _, ?_⟩
      intro a ha b hb hab
      rw [List.mem_singleton.mp hb] at hab
      exact hnew old hold hid (hab ▸ ha)
    · exact h.turnIds old hold
  · exact h.sources
  · exact fun workspace hmem => (h.owned workspace hmem).addTurn _ _ _
  · exact fun hstrict directory hmem => (h.dirs hstrict directory hmem).imp_left (·.addTurn _ _ _)
  · exact h.holds
  · intro id request hmem
    obtain ⟨session, hsession, hid, hprovider, hcreation, hdescribes⟩ := h.origin id request hmem
    refine ⟨_, List.mem_map_of_mem hsession, ?_⟩
    rw [(hcolumns session).1, (hcolumns session).2.1, (hcolumns session).2.2.1,
      (hcolumns session).2.2.2]
    exact ⟨hid, hprovider, hcreation, hdescribes⟩
  · intro session hmem
    obtain ⟨old, hold, heq⟩ := List.mem_map.mp hmem
    rw [← heq, (hcolumns old).1]
    exact h.created old hold

theorem TurnsKept.addTurn (h : TurnsKept keys handed) (hids : (keys.map (·.sessionId)).Nodup)
    (sessionId : ℕ) (clientRequestId : String)
    (hnew : ∃ session ∈ keys, session.sessionId = sessionId ∧ clientRequestId ∉ session.turns) :
    TurnsKept (keys.map (·.addTurn sessionId clientRequestId))
      ((sessionId, clientRequestId) :: handed) := by
  obtain ⟨session, hsession, hid, hnot⟩ := hnew
  constructor
  · apply List.nodup_cons.mpr
    refine ⟨fun hmem => ?_, h.nodup⟩
    obtain ⟨other, hother, hotherId, hturn⟩ := h.stored _ hmem
    have heq : other = session :=
      List.inj_on_of_nodup_map hids hother hsession (hotherId.trans hid.symm)
    exact hnot (heq ▸ hturn)
  · intro turn hmem
    rcases List.mem_cons.mp hmem with heq | hmem
    · refine ⟨_, List.mem_map_of_mem hsession, ?_⟩
      rw [heq]
      unfold SessionKeys.addTurn
      rw [if_pos hid]
      exact ⟨hid, List.mem_append_right _ (List.mem_singleton_self _)⟩
    · obtain ⟨other, hother, hotherId, hturn⟩ := h.stored turn hmem
      refine ⟨_, List.mem_map_of_mem hother, ?_, other.mem_addTurn _ _ _ hturn⟩
      rw [(other.addTurn_columns _ _).1, hotherId]

theorem SessionsKept.insert (h : SessionsKept strict keys taskWorkspaces taskDirs creations origins)
    (rest : List CreateCall) (request : CreateAgentSessionReq) (workspace : StoredWorkspace)
    (sessionId : ℕ) (hdescribes : request.describes workspace)
    (hids : ∀ session ∈ keys, session.sessionId ≠ sessionId ∧
      session.creationRequestId ≠ request.creationRequestId)
    (hrest : ∀ call ∈ creations, call.holds = some (request, workspace) ∨ call ∈ rest)
    (hsub : ∀ call ∈ rest, call ∈ creations) :
    SessionsKept strict (keys ++ [(AgentCatalog.newSession request workspace sessionId).keys])
      (taskWorkspaces ++ (workspace.directory.map fun directory => ⟨directory, none⟩).toList)
      taskDirs rest (origins ++ [(sessionId, request)]) := by
  obtain ⟨new, hnew⟩ : ∃ new, new = (AgentCatalog.newSession request workspace sessionId).keys :=
    ⟨_, rfl⟩
  have hlast : ∀ session ∈ keys ++ [new], session ∈ keys ∨ session = new := by
    intro session hmem
    rw [List.mem_append, List.mem_singleton] at hmem
    exact hmem
  have hnodup : ∀ {β : Type} (f : SessionKeys → β), (keys.map f).Nodup →
      (∀ session ∈ keys, f session ≠ f new) → ((keys ++ [new]).map f).Nodup := by
    intro β f hold hne
    rw [List.map_append]
    apply List.nodup_append.mpr
    refine ⟨hold, List.nodup_singleton _, ?_⟩
    intro a ha b hb
    obtain ⟨session, hmem, heq⟩ := List.mem_map.mp ha
    rw [← heq, List.mem_singleton.mp hb]
    exact hne session hmem
  have howned : ∀ directory, Owned keys directory → Owned (keys ++ [new]) directory := by
    intro directory hold
    obtain ⟨session, hmem, hworkspace⟩ := hold
    exact ⟨session, List.mem_append_left _ hmem, hworkspace⟩
  have hself : new ∈ keys ++ [new] := List.mem_append_right _ (List.mem_singleton_self _)
  have hadded : ∀ added ∈ (workspace.directory.map fun directory =>
      (⟨directory, none⟩ : AgentTaskWorkspace)).toList,
      workspace = .task added.taskWorkspaceId ∧ added.sourceProjectId = none := by
    intro added hmem
    cases workspace with
    | project projectId => cases hmem
    | task directory =>
      cases List.mem_singleton.mp hmem
      exact ⟨rfl, rfl⟩
  rw [← hnew]
  constructor
  · apply hnodup _ h.sessionIds
    rw [hnew]
    exact fun session hmem => (hids session hmem).1
  · apply hnodup _ h.creationIds
    rw [hnew]
    exact fun session hmem => (hids session hmem).2
  · intro session hmem
    rcases hlast session hmem with hmem | heq
    · exact h.turnIds session hmem
    · rw [heq, hnew]
      exact List.nodup_nil
  · intro added hmem
    rcases List.mem_append.mp hmem with hmem | hmem
    · exact h.sources added hmem
    · exact (hadded added hmem).2
  · intro added hmem
    rcases List.mem_append.mp hmem with hmem | hmem
    · exact howned _ (h.owned added hmem)
    · refine ⟨new, hself, ?_⟩
      rw [hnew]
      exact (hadded added hmem).1
  · intro hstrict directory hmem
    rcases h.dirs hstrict directory hmem with hold | ⟨call, hcall, other, hholds⟩
    · exact .inl (howned directory hold)
    · rcases hrest call hcall with heq | hstays
      · rw [heq] at hholds
        cases hholds
        refine .inl ⟨new, hself, ?_⟩
        rw [hnew]
        rfl
      · exact .inr ⟨call, hstays, other, hholds⟩
  · exact fun call hcall => h.holds call (hsub call hcall)
  · intro id other hmem
    rcases List.mem_append.mp hmem with hmem | hmem
    · obtain ⟨session, hsession, hcolumns⟩ := h.origin id other hmem
      exact ⟨session, List.mem_append_left _ hsession, hcolumns⟩
    · cases List.mem_singleton.mp hmem
      refine ⟨new, hself, ?_⟩
      rw [hnew]
      exact ⟨rfl, rfl, rfl, hdescribes⟩
  · intro session hmem
    rcases hlast session hmem with hmem | heq
    · obtain ⟨other, hother⟩ := h.created session hmem
      exact ⟨other, List.mem_append_left _ hother⟩
    · rw [heq, hnew]
      exact ⟨request, List.mem_append_right _ (List.mem_singleton_self _)⟩

theorem TurnsKept.insert (h : TurnsKept keys handed) (new : SessionKeys) :
    TurnsKept (keys ++ [new]) handed := by
  refine ⟨h.nodup, fun turn hmem => ?_⟩
  obtain ⟨session, hsession, hturn⟩ := h.stored turn hmem
  exact ⟨session, List.mem_append_left _ hsession, hturn⟩

theorem TurnsKept.of_perm (h : TurnsKept keys handed) {other : List (ℕ × String)}
    (hperm : other.Perm handed) : TurnsKept keys other :=
  ⟨hperm.nodup_iff.mpr h.nodup, fun turn hmem => h.stored turn (hperm.mem_iff.mp hmem)⟩

end

/-- No directory is left where a failed creation made it: it can be removed, and no restart falls
between its making and its insertion or removal. -/
def AgentCatalog.tidy (catalog : AgentCatalog) : CatalogStep → Bool
  | .restart => catalog.creations.all fun call => match call.holds with
    | some (_, .task _) => false
    | _ => true
  | .resumeCreation index env => (catalog.creations[index]?).all fun call => match call with
    | .removeDir _ _ => env.ok
    | _ => true
  | _ => true

def AgentCatalog.stepTidy (catalog : AgentCatalog) (step : CatalogStep) : Option AgentCatalog :=
  if catalog.tidy step then catalog.step step else none

section
variable {strict : Prop} {catalog next : AgentCatalog}

section
variable (h : catalog.Kept strict)
include h
variable (index : ℕ) (request : CreateAgentSessionReq)

theorem AgentCatalog.Kept.of_same (hdb : next.db = catalog.db)
    (hdirs : next.taskDirs = catalog.taskDirs) (horigins : next.origins = catalog.origins)
    (hhanded : next.handed = catalog.handed)
    (hstay : ∀ call ∈ catalog.creations, call.holds ≠ none → call ∈ next.creations)
    (hnew : ∀ call ∈ next.creations, call.holds ≠ none → call ∈ catalog.creations) : next.Kept strict := by
  have hsessions := h.sessions
  rw [← hdb, ← horigins] at hsessions
  constructor
  · refine { hsessions with dirs := ?_, holds := ?_ }
    · intro hstrict directory hmem
      rw [hdirs] at hmem
      refine (hsessions.dirs hstrict directory hmem).imp_right ?_
      intro hheld
      obtain ⟨call, hcall, request, hholds⟩ := hheld
      exact ⟨call, hstay call hcall (by rw [hholds]; exact Option.some_ne_none _), request, hholds⟩
    · intro call hcall request workspace hholds
      exact hsessions.holds call (hnew call hcall (by rw [hholds]; exact Option.some_ne_none _)) _ _
        hholds
  · rw [hdb, hhanded]
    exact h.turns

theorem AgentCatalog.Kept.answer
    (result : Except AgentErrorKind ℕ) : (catalog.answer request result).Kept strict :=
  ⟨h.sessions, h.turns⟩

theorem AgentCatalog.Kept.goOn (call : CreateCall)
    (hcall : ∀ request workspace, call.holds = some (request, workspace) →
      request.describes workspace) : (catalog.goOn call).Kept strict := by
  refine ⟨{ h.sessions with dirs := ?_, holds := ?_ }, h.turns⟩
  · intro hstrict directory hmem
    refine (h.sessions.dirs hstrict directory hmem).imp_right ?_
    intro hheld
    obtain ⟨other, hother, hholds⟩ := hheld
    exact ⟨other, List.mem_append_left _ hother, hholds⟩
  · intro other hmem
    rcases List.mem_append.mp hmem with hmem | hmem
    · exact h.sessions.holds other hmem
    · rw [List.mem_singleton.mp hmem]
      exact hcall

theorem AgentCatalog.Kept.take (call : CreateCall)
    (hcall : catalog.creations[index]? = some call) (hnone : call.holds = none) :
    { catalog with creations := catalog.creations.eraseIdx index }.Kept strict := by
  refine h.of_same (by rfl) (by rfl) (by rfl) (by rfl) ?_ ?_
  · intro other hother hholds
    apply (Calls.mem_or_mem_eraseIdx hcall other hother).resolve_left
    intro heq
    rw [heq] at hholds
    exact hholds hnone
  · exact fun other hother _ => List.mem_of_mem_eraseIdx hother

theorem AgentCatalog.Kept.provision
    (env : Surroundings) (hstep : catalog.provision request env = some next) : next.Kept strict := by
  unfold AgentCatalog.provision at hstep
  split at hstep
  · cases hstep
    exact h.answer _ _
  · split at hstep
    · rename_i projectId hworkspace
      split at hstep
      · split at hstep
        · cases hstep
          exact h.answer _ _
        · cases hstep
          exact h.answer _ _
        · cases hstep
          apply h.goOn
          intro other workspace hholds
          cases hholds
          exact hworkspace
      · cases hstep
        exact h.answer _ _
    · rename_i hworkspace
      split at hstep
      · cases hstep
      · split at hstep
        · cases hstep
          refine ⟨{ h.sessions with dirs := ?_, holds := ?_ }, h.turns⟩
          · intro hstrict directory hmem
            rcases List.mem_append.mp hmem with hmem | hmem
            · refine (h.sessions.dirs hstrict directory hmem).imp_right ?_
              intro hheld
              obtain ⟨other, hother, hholds⟩ := hheld
              exact ⟨other, List.mem_append_left _ hother, hholds⟩
            · rw [List.mem_singleton.mp hmem]
              exact .inr ⟨_, List.mem_append_right _ (List.mem_singleton_self _), request, rfl⟩
          · intro other hmem
            rcases List.mem_append.mp hmem with hmem | hmem
            · exact h.sessions.holds other hmem
            · rw [List.mem_singleton.mp hmem]
              intro held workspace hholds
              cases hholds
              exact hworkspace
        · cases hstep
          exact h.answer _ _
    · cases hstep
      exact h.answer _ _

theorem AgentCatalog.Kept.removeDir (directory : ℕ) (ok : Bool)
    (hcall : catalog.creations[index]? = some (.removeDir request directory))
    (hok : strict → ok = true) :
    ({ catalog with
      creations := catalog.creations.eraseIdx index
      taskDirs := if ok then catalog.taskDirs.filter (· ≠ directory) else catalog.taskDirs }.goOn
        (.findAgain request)).Kept strict := by
  refine ⟨{ h.sessions with dirs := ?_, holds := ?_ }, h.turns⟩
  · intro hstrict other hmem
    rw [if_pos (hok hstrict)] at hmem
    have hother := List.mem_filter.mp hmem
    refine (h.sessions.dirs hstrict other hother.1).imp_right ?_
    intro hheld
    obtain ⟨held, hmem, origin, hholds⟩ := hheld
    refine ⟨held, List.mem_append_left _ ?_, origin, hholds⟩
    apply (Calls.mem_or_mem_eraseIdx hcall held hmem).resolve_left
    intro heq
    rw [heq] at hholds
    cases hholds
    exact of_decide_eq_true hother.2 rfl
  · intro other hmem
    rcases List.mem_append.mp hmem with hmem | hmem
    · exact h.sessions.holds other (List.mem_of_mem_eraseIdx hmem)
    · rw [List.mem_singleton.mp hmem]
      exact nofun

theorem AgentCatalog.Kept.insert (workspace : StoredWorkspace) (env : Surroundings)
    (hcall : catalog.creations[index]? = some (.insert request workspace)) :
    ({ catalog with creations := catalog.creations.eraseIdx index }.insert request workspace
      env).Kept strict := by
  have hdescribes := h.sessions.holds _ (Calls.mem hcall) request workspace rfl
  have hrest : ∀ other ∈ catalog.creations, other.holds = some (request, workspace) ∨
      other ∈ catalog.creations.eraseIdx index := by
    intro other hother
    refine (Calls.mem_or_mem_eraseIdx hcall other hother).imp_left ?_
    intro heq
    rw [heq]
    rfl
  have hsub : ∀ other ∈ catalog.creations.eraseIdx index, other ∈ catalog.creations :=
    fun other hother => List.mem_of_mem_eraseIdx hother
  unfold AgentCatalog.insert
  dsimp only
  split
  · rename_i db hcreated
    obtain ⟨-, hcreated⟩ := Option.ite_none_right_eq_some.mp hcreated
    obtain ⟨hadmits, hcreated⟩ := Option.ite_none_right_eq_some.mp hcreated
    cases hcreated
    have hids : ∀ session ∈ catalog.db.keys, session.sessionId ≠ env.id ∧
        session.creationRequestId ≠ request.creationRequestId := by
      intro session hmem
      obtain ⟨stored, hstored, heq⟩ := List.mem_map.mp hmem
      rw [← heq]
      exact hadmits.1 stored hstored
    have hsessions := h.sessions.insert _ request workspace env.id hdescribes hids hrest hsub
    have hturns := h.turns.insert (AgentCatalog.newSession request workspace env.id).keys
    have hkeys : catalog.db.keys ++ [(AgentCatalog.newSession request workspace env.id).keys] =
        (catalog.db.sessions ++ [AgentCatalog.newSession request workspace env.id]).map (·.keys) := by
      rw [List.map_append]
      rfl
    rw [hkeys] at hsessions hturns
    exact ⟨hsessions, hturns⟩
  · refine ⟨{ h.sessions with dirs := ?_, holds := ?_ }, h.turns⟩
    · intro hstrict directory hmem
      refine (h.sessions.dirs hstrict directory hmem).imp_right ?_
      intro hheld
      obtain ⟨other, hother, origin, hholds⟩ := hheld
      rcases hrest other hother with hsame | hstays
      · rw [hsame] at hholds
        cases hholds
        exact ⟨_, List.mem_append_right _ (List.mem_singleton_self _), request, rfl⟩
      · exact ⟨other, List.mem_append_left _ hstays, origin, hholds⟩
    · intro other hmem
      rcases List.mem_append.mp hmem with hmem | hmem
      · exact h.sessions.holds other (hsub other hmem)
      · rw [List.mem_singleton.mp hmem]
        intro origin held hholds
        cases workspace with
        | project projectId => cases hholds
        | task directory =>
          cases hholds
          exact hdescribes

theorem AgentCatalog.Kept.resumeCreation (env : Surroundings)
    (htidy : strict → catalog.tidy (.resumeCreation index env) = true)
    (hstep : catalog.step (.resumeCreation index env) = some next) : next.Kept strict := by
  obtain ⟨call, hcall, hstep⟩ := Option.bind_eq_some_iff.mp hstep
  cases call with
  | find request =>
    have hrest := h.take index _ hcall rfl
    dsimp only [AgentCatalog.resumeCreation] at hstep
    split at hstep
    · split at hstep
      · cases hstep
        exact hrest.answer _ _
      · cases hstep
        exact hrest.goOn _ nofun
    · cases hstep
      exact hrest.answer _ _
  | provision request => exact (h.take index _ hcall rfl).provision request env hstep
  | insert request workspace =>
    cases hstep
    exact h.insert index request workspace env hcall
  | removeDir request directory =>
    dsimp only [AgentCatalog.tidy] at htidy
    rw [hcall] at htidy
    cases hstep
    exact h.removeDir index request directory env.ok hcall htidy
  | findAgain request =>
    have hrest := h.take index _ hcall rfl
    dsimp only [AgentCatalog.resumeCreation] at hstep
    split at hstep
    · split at hstep
      · cases hstep
        exact hrest.answer _ _
      · cases hstep
        exact hrest.answer _ _
    · cases hstep
      exact hrest.answer _ _

end

theorem AgentCatalog.handed_goOnTurn (catalog : AgentCatalog) (call : TurnCall) :
    (catalog.goOnTurn call).handed = catalog.handed ++ call.handing.toList := by
  unfold AgentCatalog.goOnTurn AgentCatalog.handed
  rw [List.filterMap_append, List.append_assoc]
  cases hcall : call.handing with
  | none => rw [List.filterMap_cons_none hcall]; rfl
  | some turn => rw [List.filterMap_cons_some hcall]; rfl

theorem AgentCatalog.handed_take (index : ℕ) (call : TurnCall)
    (hcall : catalog.turnCalls[index]? = some call) :
    (call.handing.toList ++
      { catalog with turnCalls := catalog.turnCalls.eraseIdx index }.handed).Perm catalog.handed := by
  have hperm := (Calls.perm_eraseIdx hcall).filterMap (·.handing)
  have hcons : (call :: catalog.turnCalls.eraseIdx index).filterMap (·.handing) =
      call.handing.toList ++ (catalog.turnCalls.eraseIdx index).filterMap (·.handing) := by
    cases hhanding : call.handing with
    | none => rw [List.filterMap_cons_none hhanding]; rfl
    | some turn => rw [List.filterMap_cons_some hhanding]; rfl
  rw [hcons] at hperm
  unfold AgentCatalog.handed
  refine List.Perm.trans ?_ (hperm.append_left catalog.prompts)
  rw [← List.append_assoc, ← List.append_assoc]
  exact List.perm_append_comm.append_right _

section
variable (h : catalog.Kept strict)
include h

theorem AgentCatalog.Kept.goOnTurn (call : TurnCall) (hnone : call.handing = none) :
    (catalog.goOnTurn call).Kept strict := by
  refine ⟨h.sessions, ?_⟩
  rw [catalog.handed_goOnTurn call, hnone, Option.toList_none, List.append_nil]
  exact h.turns

theorem AgentCatalog.Kept.takeTurn (index : ℕ) (call : TurnCall)
    (hcall : catalog.turnCalls[index]? = some call) (hnone : call.handing = none) :
    { catalog with turnCalls := catalog.turnCalls.eraseIdx index }.Kept strict := by
  have hperm := AgentCatalog.handed_take index call hcall
  rw [hnone] at hperm
  exact ⟨h.sessions, h.turns.of_perm hperm⟩

theorem AgentCatalog.Kept.insertTurn (sessionId : ℕ) (new : NewTurn)
    (session stored : StoredSession) (created : CreatedAgentTurn)
    (hfind : catalog.db.findSessionById sessionId = some session)
    (hcreate : createAgentTextTurn session new = some (stored, created)) :
    ({ catalog with db := catalog.db.modifySession sessionId fun _ => stored }.goOnTurn
      (.prompt sessionId new)).Kept strict := by
  have hkeys := addTurn_keys catalog.db sessionId session stored new created h.sessions.sessionIds
    hfind hcreate
  have hnot : new.clientRequestId ∉ session.keys.turns := by
    obtain ⟨hfits, -⟩ := Option.ite_none_right_eq_some.mp hcreate
    intro hmem
    obtain ⟨turn, hturn, heq⟩ := List.mem_map.mp hmem
    exact (hfits.1 turn hturn).1 heq
  have hmem : session.keys ∈ catalog.db.keys := mem_keys (List.mem_of_find?_eq_some hfind)
  have hid : session.sessionId = sessionId := by
    have hsome := List.find?_some hfind
    exact of_decide_eq_true hsome
  have hsessions := h.sessions.addTurn sessionId new.clientRequestId (by
    intro other hother hotherId
    have heq : other = session.keys :=
      List.inj_on_of_nodup_map h.sessions.sessionIds hother hmem (hotherId.trans hid.symm)
    rw [heq]
    exact hnot)
  have hturns := h.turns.addTurn h.sessions.sessionIds sessionId new.clientRequestId
    ⟨session.keys, hmem, hid, hnot⟩
  rw [← hkeys] at hsessions hturns
  refine ⟨hsessions, hturns.of_perm ?_⟩
  rw [AgentCatalog.handed_goOnTurn]
  exact List.perm_append_comm

theorem AgentCatalog.Kept.resumeTurn (index : ℕ) (env : Surroundings)
    (hstep : catalog.step (.resumeTurn index env) = some next) : next.Kept strict := by
  obtain ⟨call, hcall, hstep⟩ := Option.map_eq_some_iff.mp hstep
  rw [← hstep]
  cases call with
  | find sessionId new =>
    have hrest := h.takeTurn index _ hcall rfl
    dsimp only [AgentCatalog.resumeTurn]
    split
    · split
      · exact ⟨hrest.sessions, hrest.turns⟩
      · split
        · exact ⟨hrest.sessions, hrest.turns⟩
        · exact hrest.goOnTurn _ rfl
    · exact ⟨hrest.sessions, hrest.turns⟩
  | insert sessionId new =>
    have hrest := h.takeTurn index _ hcall rfl
    dsimp only [AgentCatalog.resumeTurn]
    split
    · split
      · rename_i stored created hcreated
        obtain ⟨-, hcreated⟩ := Option.ite_none_right_eq_some.mp hcreated
        obtain ⟨session, hfind, hcreate⟩ := Option.bind_eq_some_iff.mp hcreated
        exact hrest.insertTurn sessionId new session stored created hfind hcreate
      · exact hrest.goOnTurn _ rfl
    · exact ⟨hrest.sessions, hrest.turns⟩
  | findAgain sessionId new =>
    have hrest := h.takeTurn index _ hcall rfl
    dsimp only [AgentCatalog.resumeTurn]
    split
    · split
      · exact ⟨hrest.sessions, hrest.turns⟩
      · exact ⟨hrest.sessions, hrest.turns⟩
    · exact ⟨hrest.sessions, hrest.turns⟩
  | prompt sessionId new =>
    have hperm := AgentCatalog.handed_take index _ hcall
    refine ⟨h.sessions, h.turns.of_perm (List.Perm.trans ?_ hperm)⟩
    -- the turn goes from the calls to the prompts
    unfold AgentCatalog.handed
    dsimp only [AgentCatalog.resumeTurn, AgentCatalog.answerTurn, TurnCall.handing]
    rw [List.append_assoc]
    exact List.perm_middle

theorem AgentCatalog.Kept.restart (htidy : strict → catalog.tidy .restart = true) :
    ({ catalog with creations := [], turnCalls := [] } : AgentCatalog).Kept strict := by
  constructor
  · refine { h.sessions with dirs := ?_, holds := nofun }
    intro hstrict directory hmem
    rcases h.sessions.dirs hstrict directory hmem with howned | ⟨call, hcall, request, hholds⟩
    · exact .inl howned
    · have hnone := List.all_eq_true.mp (htidy hstrict) call hcall
      rw [hholds] at hnone
      cases hnone
  · have hsub : catalog.prompts.Sublist catalog.handed := List.sublist_append_left _ _
    refine ⟨?_, ?_⟩
    · show (catalog.prompts ++ []).Nodup
      rw [List.append_nil]
      exact h.turns.nodup.sublist hsub
    · intro turn hmem
      have hprompt : turn ∈ catalog.prompts := by
        rcases List.mem_append.mp hmem with hmem | hmem
        · exact hmem
        · cases hmem
      exact h.turns.stored turn (hsub.subset hprompt)

theorem AgentCatalog.Kept.of_keys (db : AgentDb)
    (hkeys : db.keys = catalog.db.keys) (hworkspaces : db.taskWorkspaces = catalog.db.taskWorkspaces) :
    ({ catalog with db := db } : AgentCatalog).Kept strict := by
  have hsessions := h.sessions
  have hturns := h.turns
  rw [← hkeys] at hsessions hturns
  rw [← hworkspaces] at hsessions
  exact ⟨hsessions, hturns⟩

theorem AgentCatalog.Kept.step (step : CatalogStep)
    (htidy : strict → catalog.tidy step = true) (hstep : catalog.step step = some next) :
    next.Kept strict := by
  cases step with
  | createSession request =>
    cases hstep
    dsimp only [AgentCatalog.createSession]
    split
    · exact h.answer _ _
    · exact h.goOn _ nofun
  | resumeCreation index env => exact h.resumeCreation index env htidy hstep
  | createTurn sessionId new =>
    cases hstep
    dsimp only [AgentCatalog.createTurn]
    split
    · exact ⟨h.sessions, h.turns⟩
    · exact h.goOnTurn _ rfl
  | resumeTurn index env => exact h.resumeTurn index env hstep
  | updateSession sessionId title archived =>
    cases hstep
    refine h.of_keys _ (catalog.db.modifySession_keys sessionId _ ?_) rfl
    exact fun session => updateAgentSession_keys session title archived
  | finishTurn sessionId turnId assistantMessageId state =>
    cases hstep
    refine h.of_keys _ (catalog.db.modifySession_keys sessionId _ ?_) rfl
    exact fun session => finishAgentTurn_keys session turnId assistantMessageId state
  | restart =>
    cases hstep
    exact h.restart htidy

end

theorem AgentCatalog.opened_kept : AgentCatalog.opened.Kept strict := by
  refine ⟨⟨List.nodup_nil, List.nodup_nil, ?_, ?_, ?_, fun _ => ?_, ?_, fun _ => ?_, ?_⟩,
    ⟨List.nodup_nil, ?_⟩⟩
  all_goals exact nofun

end

/-- One session for a creation key, one turn for a client's key and one prompt for a turn; rows of
no other sessions than those that were answered to their requests. -/
structure AgentCatalog.Unique (catalog : AgentCatalog) : Prop where
  sessions : (catalog.db.sessions.map (·.creationRequestId)).Nodup
  turns : ∀ session ∈ catalog.db.sessions, (session.turns.map (·.clientRequestId)).Nodup
  prompts : catalog.prompts.Nodup
  created : ∀ session ∈ catalog.db.sessions, ∃ request, (session.sessionId, request) ∈ catalog.origins
  workspaces : ∀ workspace ∈ catalog.db.taskWorkspaces, ∃ session ∈ catalog.db.sessions,
    session.workspace = .task workspace.taskWorkspaceId

def AgentCatalog.NothingLeft (catalog : AgentCatalog) : Prop :=
  ∀ directory ∈ catalog.taskDirs,
    (∃ session ∈ catalog.db.sessions, session.workspace = .task directory) ∨
    ∃ call ∈ catalog.creations, ∃ request, call.holds = some (request, .task directory)

def AgentCatalog.Repeatable (catalog : AgentCatalog) : Prop :=
  ∀ id request, (id, request) ∈ catalog.origins →
    existingAnswer catalog.db request = some (.ok id) ∧
    ∀ other : CreateAgentSessionReq, other.creationRequestId = request.creationRequestId →
      other ≠ request → existingAnswer catalog.db other = some (.error .conflict)

def AgentCatalog.TitlesKept (catalog : AgentCatalog) : Prop :=
  ∀ id request, (id, request) ∈ catalog.origins → ∀ session ∈ catalog.db.sessions,
    session.sessionId = id → session.title = request.title

theorem AgentCatalog.Kept.unique (h : catalog.Kept strict) : catalog.Unique := by
  have hids := h.sessions.creationIds
  unfold AgentDb.keys at hids
  rw [List.map_map] at hids
  refine ⟨hids, ?_, ?_, ?_, ?_⟩
  · exact fun session hmem => h.sessions.turnIds _ (mem_keys hmem)
  · exact h.turns.nodup.sublist (List.sublist_append_left _ _)
  · exact fun session hmem => h.sessions.created _ (mem_keys hmem)
  · intro workspace hmem
    obtain ⟨keys, hkeys, hworkspace⟩ := h.sessions.owned workspace hmem
    obtain ⟨session, hsession, heq⟩ := List.mem_map.mp hkeys
    rw [← heq] at hworkspace
    exact ⟨session, hsession, hworkspace⟩

theorem AgentCatalog.Kept.nothingLeft (h : catalog.Kept True) :
    catalog.NothingLeft := by
  intro directory hmem
  refine (h.sessions.dirs trivial directory hmem).imp_left ?_
  intro howned
  obtain ⟨keys, hkeys, hworkspace⟩ := howned
  obtain ⟨session, hsession, heq⟩ := List.mem_map.mp hkeys
  rw [← heq] at hworkspace
  exact ⟨session, hsession, hworkspace⟩

theorem sessionMatchesCreateRequest_iff (request : CreateAgentSessionReq)
    (hsources : ∀ workspace ∈ db.taskWorkspaces, workspace.sourceProjectId = none) :
    sessionMatchesCreateRequest db session request = true ↔
      session.providerId = request.providerId ∧ session.title = request.title ∧
        request.describes session.workspace := by
  have hsource : ∀ id, (db.taskSourceProjectId id).isNone = true := by
    intro id
    unfold AgentDb.taskSourceProjectId
    cases hfind : db.taskWorkspaces.find? (·.taskWorkspaceId = id) with
    | none => rfl
    | some workspace =>
      rw [Option.bind_some, hsources workspace (List.mem_of_find?_eq_some hfind)]
      rfl
  unfold sessionMatchesCreateRequest CreateAgentSessionReq.describes
  cases hrequest : request.workspace with
  | project projectId =>
    cases hsession : session.workspace with
    | project stored => simp [@eq_comm _ stored projectId, and_assoc]
    | task id => simp
  | taskEmpty =>
    cases hsession : session.workspace with
    | project stored => simp
    | task id => simp [hsource id]
  | taskProject projectId =>
    cases hsession : session.workspace with
    | project stored | task id => simp

theorem AgentCatalog.Kept.find (h : catalog.Kept strict)
    (id : ℕ) (request : CreateAgentSessionReq) (horigin : (id, request) ∈ catalog.origins) :
    ∃ session ∈ catalog.db.sessions, session.sessionId = id ∧
      session.providerId = request.providerId ∧ request.describes session.workspace ∧
      catalog.db.findSessionByCreationRequest request.creationRequestId = some session := by
  obtain ⟨keys, hkeys, hid, hprovider, hcreation, hdescribes⟩ := h.sessions.origin id request horigin
  obtain ⟨session, hmem, heq⟩ := List.mem_map.mp hkeys
  rw [← heq] at hid hprovider hcreation hdescribes
  refine ⟨session, hmem, hid, hprovider, hdescribes, ?_⟩
  have hfind := find_eq_of_nodup (·.creationRequestId) catalog.db.sessions h.unique.sessions
    session hmem
  have hkey : session.creationRequestId = request.creationRequestId := hcreation
  rwa [hkey] at hfind

theorem CreateAgentSessionReq.describes_inj (request other : CreateAgentSessionReq)
    (workspace : StoredWorkspace) (h : request.describes workspace)
    (hother : other.describes workspace) : other.workspace = request.workspace := by
  cases workspace with
  | project stored | task id => exact Eq.trans hother (Eq.symm h)

theorem AgentCatalog.Kept.repeatable_iff
    (h : catalog.Kept strict) : catalog.Repeatable ↔ catalog.TitlesKept := by
  constructor
  · intro hrepeat id request horigin session hmem hid
    obtain ⟨found, hfound, hfoundId, -, -, hfind⟩ := h.find id request horigin
    have hsame : session = found := by
      have hids := h.sessions.sessionIds
      unfold AgentDb.keys at hids
      rw [List.map_map] at hids
      exact List.inj_on_of_nodup_map hids hmem hfound (hid.trans hfoundId.symm)
    have hanswer := (hrepeat id request horigin).1
    unfold existingAnswer at hanswer
    rw [hfind, Option.map_some] at hanswer
    split at hanswer
    · rename_i hmatch
      rw [hsame]
      exact ((sessionMatchesCreateRequest_iff _ _ _ h.sessions.sources).mp hmatch).2.1
    · cases hanswer
  · intro htitles id request horigin
    obtain ⟨found, hfound, hfoundId, hprovider, hdescribes, hfind⟩ := h.find id request horigin
    have htitle := htitles id request horigin found hfound hfoundId
    have hiff := fun other => sessionMatchesCreateRequest_iff catalog.db found other
      h.sessions.sources
    constructor
    · unfold existingAnswer
      rw [hfind, Option.map_some, if_pos ((hiff request).mpr ⟨hprovider, htitle, hdescribes⟩),
        hfoundId]
    · intro other hkey hne
      unfold existingAnswer
      rw [hkey, hfind, Option.map_some, if_neg]
      intro hmatch
      obtain ⟨hotherProvider, hotherTitle, hotherDescribes⟩ := (hiff other).mp hmatch
      apply hne
      -- the four fields of the two requests are the same
      cases other
      cases request
      simp only [CreateAgentSessionReq.mk.injEq]
      exact ⟨hotherProvider.symm.trans hprovider,
        CreateAgentSessionReq.describes_inj _ _ _ hdescribes hotherDescribes,
        hotherTitle.symm.trans htitle, hkey⟩

/-- Keys are used once in every run; a creation can be repeated as long as the titles are kept, and
a run that is tidy leaves no directory behind. -/
theorem repeats_exact (steps : List CatalogStep) (catalog : AgentCatalog)
    (hrun : steps.foldlM AgentCatalog.step AgentCatalog.opened = some catalog) :
    catalog.Unique ∧ (catalog.Repeatable ↔ catalog.TitlesKept) ∧
    (steps.foldlM AgentCatalog.stepTidy AgentCatalog.opened = some catalog →
      catalog.NothingLeft) := by
  have hkept : catalog.Kept False := by
    refine System.run_invariant AgentCatalog.step (·.Kept False) ?_ steps
      AgentCatalog.opened_kept hrun
    exact fun catalog step next h hstep => h.step step nofun hstep
  refine ⟨hkept.unique, hkept.repeatable_iff, fun htidy => ?_⟩
  have hstrict : catalog.Kept True := by
    refine System.run_invariant AgentCatalog.stepTidy (·.Kept True) ?_ steps
      AgentCatalog.opened_kept htidy
    intro catalog step next h hstep
    obtain ⟨htidy, hstep⟩ := Option.ite_none_right_eq_some.mp hstep
    exact h.step step (fun _ => htidy) hstep
  exact hstrict.nothingLeft

def taskRequest : CreateAgentSessionReq := ⟨"provider", .taskEmpty, some "Draft", "key"⟩

def granted (id : ℕ) : Surroundings := ⟨true, some true, true, true, id⟩

/-- A request comes twice at once, and a turn twice. -/
def repeatedRun : List CatalogStep :=
  [.createSession taskRequest, .createSession taskRequest] ++
    [0, 0, 4, 5, 7, 8, 0, 0].map (.resumeCreation 0 <| granted ·) ++
    [.createTurn 7 ⟨"turn", 1, 2, 3, "hello"⟩] ++ List.replicate 3 (.resumeTurn 0 (granted 0)) ++
    [.createTurn 7 ⟨"turn", 4, 5, 6, "hello"⟩, .resumeTurn 0 (granted 0)]

theorem repeats_exact_repeatedRun : ∃ catalog,
    repeatedRun.foldlM AgentCatalog.step AgentCatalog.opened = some catalog ∧
    catalog.answers.map (·.2.toOption) = [some 7, some 7] ∧
    catalog.turnAnswers.map (·.2.2.toOption) = [some 1, some 1] ∧ catalog.taskDirs = [4] ∧
    catalog.Unique ∧ catalog.NothingLeft := by
  refine ⟨_, rfl, rfl, rfl, rfl, ?_⟩
  have h := repeats_exact repeatedRun _ rfl
  exact ⟨h.1, h.2.2 rfl⟩

def draftRequest : CreateAgentSessionReq := ⟨"provider", .project "project", some "Draft", "key"⟩

def renamedRun : List CatalogStep :=
  [.createSession draftRequest, .resumeCreation 0 (granted 0), .resumeCreation 0 (granted 0),
    .resumeCreation 0 (granted 7), .updateSession 7 (some (some "Final")) none]

/-- The request that created the renamed session is refused, and one with the new title accepted. -/
theorem renamed_conflict : ∃ catalog,
    renamedRun.foldlM AgentCatalog.step AgentCatalog.opened = some catalog ∧
    (7, draftRequest) ∈ catalog.origins ∧
    existingAnswer catalog.db draftRequest = some (.error .conflict) ∧
    existingAnswer catalog.db { draftRequest with title := some "Final" } = some (.ok 7) ∧
    ¬ catalog.Repeatable := by
  refine ⟨_, rfl, ?_, rfl, rfl, ?_⟩
  · exact List.mem_singleton_self _
  · intro hrepeat
    have hanswer := (hrepeat 7 draftRequest (List.mem_singleton_self _)).1
    cases hanswer

end Rieul.Agent
