import Rieul.Lib.Query
import Mathlib.Data.String.Basic

/-!
# The listings of sessions and turns (daemon/host/src/state_db.rs)

The two listings that are read page after page, over tables whose unique indexes hold.
How the database compares a text with a pattern, and what it has of a turn's
messages, are parameters.
-/

namespace Rieul.Agent.Listing
open Pages Query

inductive WorkspaceKind where
  | project
  | task
  deriving DecidableEq

inductive TurnStateKind where
  | queued
  | running
  | awaitingPermission
  | completed
  | cancelled
  | failed

def TurnStateKind.active : TurnStateKind → Bool
  | queued => true
  | running => true
  | awaitingPermission => true
  | _ => false

structure AgentSessionRow where
  sessionId : String
  providerId : String
  providerSessionId : Option String
  title : Option String
  workspaceKind : WorkspaceKind
  projectId : Option String
  taskWorkspaceId : Option String
  cwd : String
  archived : Bool
  latestSeq : Int64
  lastMessagePreview : Option String
  createdAtMs : Int64
  updatedAtMs : Int64

structure AgentTaskWorkspaceRow where
  taskWorkspaceId : String
  sourceProjectId : Option String
  stateKind : String

structure AgentTurnRow where
  turnId : String
  sessionId : String
  stateKind : TurnStateKind
  completedSeq : Option Int64
  stopReasonKind : Option String
  stopReasonOther : Option String
  failureMessage : Option String
  failureCode : Option String
  failureRetryable : Option Bool
  createdAtMs : Int64
  startedAtMs : Option Int64
  finishedAtMs : Option Int64

structure AgentTables where
  sessions : List AgentSessionRow
  taskWorkspaces : List AgentTaskWorkspaceRow
  turns : List AgentTurnRow
  sessionIds : (sessions.map (·.sessionId)).Nodup
  taskWorkspaceIds : (taskWorkspaces.map (·.taskWorkspaceId)).Nodup
  turnIds : (turns.map (·.turnId)).Nodup
  activeTurns : turns.Pairwise fun turn other =>
    ¬ (turn.stateKind.active = true ∧ other.stateKind.active = true ∧
      turn.sessionId = other.sessionId)

def rowKey (number : Int64) (id : String) : ℤ ×ₗ String := toLex (number.toInt, id)

def isBehind (cursor : Option (UInt64 × String)) (number : Int64) (id : String) : Bool :=
  cursor.all fun c => number < c.1.toInt64 || number = c.1.toInt64 && id < c.2

/-- `LIMIT`, which is none when it is negative. -/
def limitRows {ρ : Type} (limit : Int64) (rows : List ρ) : List ρ :=
  if limit < 0 then rows else rows.take limit.toInt.toNat

theorem isBehind_map {σ : Type} (last : Option σ) (cursorOf : σ → UInt64 × String) (number : Int64)
    (id : String) : isBehind (last.map cursorOf) number id =
      last.all fun other => rowKey number id <
        rowKey (cursorOf other).1.toInt64 (cursorOf other).2 := by
  cases last with
  | none => rfl
  | some other =>
    have hlex : rowKey number id < rowKey (cursorOf other).1.toInt64 (cursorOf other).2 ↔
        number < (cursorOf other).1.toInt64 ∨
          number = (cursorOf other).1.toInt64 ∧ id < (cursorOf other).2 := by
      unfold rowKey
      rw [Prod.Lex.toLex_lt_toLex, Int64.lt_iff_toInt_lt, Int64.toInt_inj]
    simp only [isBehind, Option.map_some, Option.all_some]
    rw [Bool.eq_iff_iff]
    simp [hlex]

theorem toInt_of_nonneg (limit : UInt64) (h : ¬ limit.toInt64 < 0) :
    limit.toInt64.toInt.toNat = limit.toNat := by
  have hb : limit.toInt64.toInt = limit.toBitVec.toInt := rfl
  have hn : limit.toBitVec.toNat = limit.toNat := rfl
  rw [Int64.lt_iff_toInt_lt, hb, BitVec.toInt_eq_toNat_cond, hn] at h
  rw [hb, BitVec.toInt_eq_toNat_cond, hn]
  have hz : Int64.toInt 0 = 0 := rfl
  have hlt := limit.toNat_lt
  split
  · rfl
  · rename_i hbig
    rw [if_neg hbig, hz] at h
    omega

theorem limitRows_page {ρ : Type} (limit : UInt64) (rows : List ρ) :
    limitRows limit.toInt64 rows <+: rows ∧
      ((limitRows limit.toInt64 rows).length < limit.toNat → limitRows limit.toInt64 rows = rows) := by
  unfold limitRows
  split
  · exact ⟨List.prefix_rfl, fun _ => rfl⟩
  · rename_i hpositive
    rw [toInt_of_nonneg limit hpositive]
    refine ⟨List.take_prefix _ _, fun hlength => List.take_of_length_le ?_⟩
    rw [List.length_take] at hlength
    omega

inductive StoredAgentWorkspaceFilter where
  | any
  | project (projectId : Option String)
  | task (sourceProjectId : Option String)

inductive StoredAgentArchiveFilter where
  | activeOnly
  | archivedOnly
  | all

structure StoredAgentSessionQuery where
  workspace : StoredAgentWorkspaceFilter
  archived : StoredAgentArchiveFilter
  query : Option String
  cursor : Option (UInt64 × String)
  limit : UInt64

structure StoredAgentSession where
  sessionId : String
  providerId : String
  providerSessionId : Option String
  title : Option String
  workspaceKind : WorkspaceKind
  projectId : Option String
  taskWorkspaceId : Option String
  taskSourceProjectId : Option String
  taskStateKind : Option String
  cwd : String
  archived : Bool
  latestSeq : UInt64
  lastMessagePreview : Option String
  createdAtMs : UInt64
  updatedAtMs : UInt64
  activeTurnStateKind : Option TurnStateKind

/-- A row of `agent_session_select`. -/
abbrev SessionRow := (AgentSessionRow × Option AgentTaskWorkspaceRow) × Option AgentTurnRow

def agentSessionFromRow : SessionRow → StoredAgentSession
  | ((s, tw), activeTurn) =>
    { sessionId := s.sessionId
      providerId := s.providerId
      providerSessionId := s.providerSessionId
      title := s.title
      workspaceKind := s.workspaceKind
      projectId := s.projectId
      taskWorkspaceId := s.taskWorkspaceId
      taskSourceProjectId := tw.bind (·.sourceProjectId)
      taskStateKind := tw.map (·.stateKind)
      cwd := s.cwd
      archived := s.archived
      latestSeq := s.latestSeq.toUInt64
      lastMessagePreview := s.lastMessagePreview
      createdAtMs := s.createdAtMs.toUInt64
      updatedAtMs := s.updatedAtMs.toUInt64
      activeTurnStateKind := activeTurn.map (·.stateKind) }

def StoredAgentWorkspaceFilter.selects (row : SessionRow) : StoredAgentWorkspaceFilter → Bool
  | any => true
  | project projectId =>
    row.1.1.workspaceKind = .project && projectId.all fun id => row.1.1.projectId = some id
  | task sourceProjectId =>
    row.1.1.workspaceKind = .task &&
      sourceProjectId.all fun id => row.1.2.bind (·.sourceProjectId) = some id

def StoredAgentArchiveFilter.selects (row : SessionRow) : StoredAgentArchiveFilter → Bool
  | activeOnly => !row.1.1.archived
  | archivedOnly => row.1.1.archived
  | all => true

def escapeChar (c : Char) (text : List Char) : List Char :=
  text.flatMap fun d => if d = c then ['\\', d] else [d]

def agentSearchPattern (query : String) : String :=
  String.ofList ('%' :: escapeChar '_' (escapeChar '%' (escapeChar '\\' query.toList)) ++ ['%'])

def joinsTaskWorkspace (s : AgentSessionRow) (tw : AgentTaskWorkspaceRow) : Bool :=
  some tw.taskWorkspaceId = s.taskWorkspaceId

def joinsActiveTurn (row : AgentSessionRow × Option AgentTaskWorkspaceRow) (turn : AgentTurnRow) :
    Bool :=
  turn.sessionId = row.1.sessionId && turn.stateKind.active

def AgentTables.sessionRows (tables : AgentTables) : List SessionRow :=
  leftJoin joinsActiveTurn (leftJoin joinsTaskWorkspace tables.sessions tables.taskWorkspaces)
    tables.turns

def SessionRow.key (row : SessionRow) : ℤ ×ₗ String := rowKey row.1.1.updatedAtMs row.1.1.sessionId

def StoredAgentSession.key (stored : StoredAgentSession) : ℤ ×ₗ String :=
  rowKey stored.updatedAtMs.toInt64 stored.sessionId

section
variable (like : String → String → Bool)

def StoredAgentSessionQuery.selects (query : StoredAgentSessionQuery) (row : SessionRow) : Bool :=
  query.workspace.selects row && query.archived.selects row &&
    (query.query.map agentSearchPattern).all fun pattern =>
      row.1.1.title.any (like · pattern) || row.1.1.lastMessagePreview.any (like · pattern)

def listAgentSessions (tables : AgentTables) (query : StoredAgentSessionQuery) :
    List StoredAgentSession :=
  (limitRows query.limit.toInt64 (descending SessionRow.key (tables.sessionRows.filter fun row =>
    query.selects like row &&
      isBehind query.cursor row.1.1.updatedAtMs row.1.1.sessionId))).map agentSessionFromRow

def StoredAgentSession.cursor (stored : StoredAgentSession) : UInt64 × String :=
  (stored.updatedAtMs, stored.sessionId)

def AgentTables.sessionRow (tables : AgentTables) (s : AgentSessionRow) : SessionRow :=
  ((s, tables.taskWorkspaces.find? (joinsTaskWorkspace s)),
    tables.turns.find? (joinsActiveTurn (s, tables.taskWorkspaces.find? (joinsTaskWorkspace s))))

theorem sessionRows_eq (tables : AgentTables) :
    tables.sessionRows = tables.sessions.map tables.sessionRow := by
  have hworkspaces : ∀ s ∈ tables.sessions,
      (tables.taskWorkspaces.filter (joinsTaskWorkspace s)).length ≤ 1 := by
    intro s _
    refine filter_length_le_one (fun _ => true) (fun tw => some tw.taskWorkspaceId) _
      s.taskWorkspaceId ?_ _ ?_
    · refine (List.pairwise_map.mp tables.taskWorkspaceIds).imp fun hne => ?_
      rintro ⟨-, -, heq⟩
      exact hne (Option.some.inj heq)
    · exact fun tw hon => ⟨rfl, of_decide_eq_true hon⟩
  have hturns : ∀ row ∈ tables.sessions.map (fun s =>
      (s, tables.taskWorkspaces.find? (joinsTaskWorkspace s))),
        (tables.turns.filter (joinsActiveTurn row)).length ≤ 1 := by
    intro row _
    refine filter_length_le_one (fun turn => turn.stateKind.active) (fun turn => turn.sessionId) _
      row.1.sessionId tables.activeTurns _ ?_
    intro turn hon
    obtain ⟨hsession, hactive⟩ := (Bool.and_eq_true_iff).mp hon
    exact ⟨hactive, of_decide_eq_true hsession⟩
  unfold AgentTables.sessionRows
  rw [leftJoin_eq_map _ _ _ hworkspaces, leftJoin_eq_map _ _ _ hturns, List.map_map]
  rfl

theorem sessionRows_keys (tables : AgentTables) :
    (tables.sessionRows.map SessionRow.key).Nodup := by
  rw [sessionRows_eq, List.map_map]
  refine List.Nodup.of_map (fun key : ℤ ×ₗ String => (ofLex key).2) ?_
  rw [List.map_map]
  exact tables.sessionIds

theorem fromRow_key (row : SessionRow) : (agentSessionFromRow row).key = row.key := by
  obtain ⟨⟨s, tw⟩, activeTurn⟩ := row
  simp [agentSessionFromRow, StoredAgentSession.key, SessionRow.key]

def AgentTables.selectedSessions (tables : AgentTables) (query : StoredAgentSessionQuery) :
    List StoredAgentSession :=
  (descending SessionRow.key (tables.sessionRows.filter (query.selects like))).map
    agentSessionFromRow

section
variable (tables : AgentTables) (query : StoredAgentSessionQuery)
include tables query

theorem selectedSessions_sorted :
    (tables.selectedSessions like query).Pairwise fun a b => b.key < a.key := by
  have hdistinct := (sessionRows_keys tables).sublist
    ((List.filter_sublist (p := query.selects like)).map SessionRow.key)
  unfold AgentTables.selectedSessions
  rw [List.pairwise_map]
  exact (descending_sorted SessionRow.key _ hdistinct).imp fun hlt => by rwa [fromRow_key, fromRow_key]

theorem mem_selectedSessions
    (stored : StoredAgentSession) : stored ∈ tables.selectedSessions like query ↔
      ∃ s ∈ tables.sessions, query.selects like (tables.sessionRow s) = true ∧
        stored = agentSessionFromRow (tables.sessionRow s) := by
  simp only [AgentTables.selectedSessions, List.mem_map, (descending_perm _ _).mem_iff,
    List.mem_filter, sessionRows_eq]
  constructor
  · rintro ⟨-, ⟨⟨s, hs, rfl⟩, hselects⟩, rfl⟩
    exact ⟨s, hs, hselects, rfl⟩
  · rintro ⟨s, hs, hselects, rfl⟩
    exact ⟨_, ⟨⟨s, hs, rfl⟩, hselects⟩, rfl⟩

theorem follow_sessions
    (hlimit : 0 < query.limit.toNat) (fuel : ℕ) (hfuel : tables.sessions.length < fuel) :
    follow StoredAgentSession.cursor
      (fun cursor => listAgentSessions like tables { query with cursor := cursor })
      query.limit.toNat fuel none = some (tables.selectedSessions like query) := by
  refine follow_select StoredAgentSession.key (sessionRows_keys tables)
    (query.selects like) agentSessionFromRow fromRow_key _ (limitRows_page query.limit)
    (fun cursor row => isBehind cursor row.1.1.updatedAtMs row.1.1.sessionId) ?_ hlimit fuel ?_
  · exact fun last row => isBehind_map last StoredAgentSession.cursor _ _
  · refine lt_of_le_of_lt (List.length_filter_le _ _) ?_
    rw [sessionRows_eq, List.length_map]
    exact hfuel

end

end

structure StoredAgentTurn where
  turnId : String
  sessionId : String
  stateKind : TurnStateKind
  stopReasonKind : Option String
  stopReasonOther : Option String
  failureMessage : Option String
  failureCode : Option String
  failureRetryable : Option Bool
  createdAtMs : UInt64
  startedAtMs : Option UInt64
  finishedAtMs : Option UInt64

structure StoredAgentTurnRecord (μ : Type) where
  turn : StoredAgentTurn
  completedSeq : UInt64
  messages : List μ

def storedAgentTurnFromRow (turn : AgentTurnRow) : StoredAgentTurn where
  turnId := turn.turnId
  sessionId := turn.sessionId
  stateKind := turn.stateKind
  stopReasonKind := turn.stopReasonKind
  stopReasonOther := turn.stopReasonOther
  failureMessage := turn.failureMessage
  failureCode := turn.failureCode
  failureRetryable := turn.failureRetryable
  createdAtMs := turn.createdAtMs.toUInt64
  startedAtMs := turn.startedAtMs.map (·.toUInt64)
  finishedAtMs := turn.finishedAtMs.map (·.toUInt64)

/-- The turns whose `completed_seq` is not null, with it. -/
def AgentTables.completedTurns (tables : AgentTables) : List (AgentTurnRow × Int64) :=
  tables.turns.filterMap fun turn => turn.completedSeq.map fun seq => (turn, seq)

def turnKey (row : AgentTurnRow × Int64) : ℤ ×ₗ String := rowKey row.2 row.1.turnId

def turnSelected (sessionId : String) (throughSeq : UInt64) (row : AgentTurnRow × Int64) : Bool :=
  row.1.sessionId = sessionId && row.2 ≤ throughSeq.toInt64

section
variable {μ : Type} (loadAgentTurnMessages : String → String → List μ)
variable (tables : AgentTables) (sessionId : String)

def agentTurnRecord (sessionId : String) (row : AgentTurnRow × Int64) : StoredAgentTurnRecord μ where
  turn := storedAgentTurnFromRow row.1
  completedSeq := row.2.toUInt64
  messages := loadAgentTurnMessages sessionId row.1.turnId

def listCompletedAgentTurns (tables : AgentTables) (sessionId : String) (throughSeq : UInt64)
    (cursor : Option (UInt64 × String)) (limit : UInt64) : List (StoredAgentTurnRecord μ) :=
  (limitRows limit.toInt64 (descending turnKey (tables.completedTurns.filter fun row =>
    turnSelected sessionId throughSeq row && isBehind cursor row.2 row.1.turnId))).map
      (agentTurnRecord loadAgentTurnMessages sessionId)

def StoredAgentTurnRecord.cursor (record : StoredAgentTurnRecord μ) : UInt64 × String :=
  (record.completedSeq, record.turn.turnId)

def StoredAgentTurnRecord.key (record : StoredAgentTurnRecord μ) : ℤ ×ₗ String :=
  rowKey record.completedSeq.toInt64 record.turn.turnId

theorem completedTurns_keys :
    (tables.completedTurns.map turnKey).Nodup := by
  have hids : (tables.completedTurns.map fun row => row.1.turnId).Nodup := by
    refine tables.turnIds.sublist ?_
    unfold AgentTables.completedTurns
    generalize tables.turns = turns
    induction turns with
    | nil => exact List.Sublist.slnil
    | cons turn turns ih =>
      cases hseq : turn.completedSeq with
      | none => simpa [hseq] using ih.cons _
      | some seq => simpa [hseq] using ih
  refine List.Nodup.of_map (fun key : ℤ ×ₗ String => (ofLex key).2) ?_
  rw [List.map_map]
  exact hids

theorem agentTurnRecord_key (row : AgentTurnRow × Int64) :
    (agentTurnRecord loadAgentTurnMessages sessionId row).key = turnKey row := by
  simp [agentTurnRecord, StoredAgentTurnRecord.key, turnKey, storedAgentTurnFromRow]

/-- The turns completed up to `throughSeq`, each once, in the order of the listing. -/
def AgentTables.turnRecords (tables : AgentTables) (sessionId : String) (throughSeq : UInt64) :
    List (StoredAgentTurnRecord μ) :=
  (descending turnKey (tables.completedTurns.filter (turnSelected sessionId throughSeq))).map
    (agentTurnRecord loadAgentTurnMessages sessionId)

theorem turnRecords_sorted (throughSeq : UInt64) :
    (tables.turnRecords loadAgentTurnMessages sessionId throughSeq).Pairwise
      fun a b => b.key < a.key := by
  have hdistinct := (completedTurns_keys tables).sublist
    ((List.filter_sublist (p := turnSelected sessionId throughSeq)).map turnKey)
  unfold AgentTables.turnRecords
  rw [List.pairwise_map]
  exact (descending_sorted turnKey _ hdistinct).imp fun hlt => by
    rwa [agentTurnRecord_key, agentTurnRecord_key]

theorem mem_turnRecords (throughSeq : UInt64)
    (record : StoredAgentTurnRecord μ) :
    record ∈ tables.turnRecords loadAgentTurnMessages sessionId throughSeq ↔
      ∃ turn ∈ tables.turns, ∃ seq, turn.completedSeq = some seq ∧ turn.sessionId = sessionId ∧
        seq ≤ throughSeq.toInt64 ∧
        record = agentTurnRecord loadAgentTurnMessages sessionId (turn, seq) := by
  simp only [AgentTables.turnRecords, List.mem_map, (descending_perm _ _).mem_iff, List.mem_filter,
    AgentTables.completedTurns, List.mem_filterMap, turnSelected, Bool.and_eq_true,
    decide_eq_true_eq, Option.map_eq_some_iff]
  constructor
  · rintro ⟨-, ⟨⟨turn, hturn, seq, hseq, rfl⟩, hsession, hthrough⟩, rfl⟩
    exact ⟨turn, hturn, seq, hseq, hsession, hthrough, rfl⟩
  · rintro ⟨turn, hturn, seq, hseq, hsession, hthrough, rfl⟩
    exact ⟨(turn, seq), ⟨⟨turn, hturn, seq, hseq, rfl⟩, hsession, hthrough⟩, rfl⟩

theorem follow_turns (throughSeq limit : UInt64)
    (hlimit : 0 < limit.toNat) (fuel : ℕ) (hfuel : tables.turns.length < fuel) :
    follow StoredAgentTurnRecord.cursor (fun cursor =>
      listCompletedAgentTurns loadAgentTurnMessages tables sessionId throughSeq cursor limit)
      limit.toNat fuel none =
        some (tables.turnRecords loadAgentTurnMessages sessionId throughSeq) := by
  refine follow_select StoredAgentTurnRecord.key (completedTurns_keys tables)
    (turnSelected sessionId throughSeq) (agentTurnRecord loadAgentTurnMessages sessionId)
    (agentTurnRecord_key loadAgentTurnMessages sessionId) _ (limitRows_page limit)
    (fun cursor row => isBehind cursor row.2 row.1.turnId) ?_ hlimit fuel ?_
  · exact fun last row => isBehind_map last StoredAgentTurnRecord.cursor _ _
  · refine lt_of_le_of_lt ((List.length_filter_le _ _).trans ?_) hfuel
    exact List.length_filterMap_le _ _

/-- Following the cursors until a short page reads all that is selected, each row once and in
descending order, and ends within one page more than there are rows. -/
theorem listings_complete (like : String → String → Bool) (tables : AgentTables) :
    (∀ query : StoredAgentSessionQuery, 0 < query.limit.toNat → ∃ sessions,
      (∀ fuel, tables.sessions.length < fuel → follow StoredAgentSession.cursor
        (fun cursor => listAgentSessions like tables { query with cursor := cursor })
        query.limit.toNat fuel none = some sessions) ∧
      (sessions.Pairwise fun a b => b.key < a.key) ∧
      ∀ stored, stored ∈ sessions ↔ ∃ s ∈ tables.sessions,
        query.selects like (tables.sessionRow s) = true ∧
        stored = agentSessionFromRow (tables.sessionRow s)) ∧
    tables.sessionRows.map (fun row => row.1.1) = tables.sessions ∧
    ∀ (sessionId : String) (throughSeq limit : UInt64), 0 < limit.toNat →
      ∃ records : List (StoredAgentTurnRecord μ),
        (∀ fuel, tables.turns.length < fuel → follow StoredAgentTurnRecord.cursor (fun cursor =>
          listCompletedAgentTurns loadAgentTurnMessages tables sessionId throughSeq cursor limit)
          limit.toNat fuel none = some records) ∧
        (records.Pairwise fun a b => b.key < a.key) ∧
        ∀ record, record ∈ records ↔ ∃ turn ∈ tables.turns, ∃ seq,
          turn.completedSeq = some seq ∧ turn.sessionId = sessionId ∧
          seq ≤ throughSeq.toInt64 ∧
          record = agentTurnRecord loadAgentTurnMessages sessionId (turn, seq) := by
  refine ⟨fun query hlimit => ⟨tables.selectedSessions like query, ?_, ?_, ?_⟩, ?_,
    fun sessionId throughSeq limit hlimit =>
      ⟨tables.turnRecords loadAgentTurnMessages sessionId throughSeq, ?_, ?_, ?_⟩⟩
  · exact fun fuel hfuel => follow_sessions like tables query hlimit fuel hfuel
  · exact selectedSessions_sorted like tables query
  · exact mem_selectedSessions like tables query
  · rw [sessionRows_eq, List.map_map]
    exact List.map_id _
  · exact fun fuel hfuel =>
      follow_turns loadAgentTurnMessages tables sessionId throughSeq limit hlimit fuel hfuel
  · exact turnRecords_sorted loadAgentTurnMessages tables sessionId throughSeq
  · exact mem_turnRecords loadAgentTurnMessages tables sessionId throughSeq

end

def listedSession (id : String) (updatedAtMs : Int64) : AgentSessionRow :=
  ⟨id, "provider", none, none, .project, some "project", none, "/", false, 0, none, 0, updatedAtMs⟩

def listedTurn (id : String) (completedSeq : Option Int64) : AgentTurnRow :=
  ⟨id, "a", if completedSeq.isSome then .completed else .running, completedSeq, none, none, none,
    none, none, 0, none, none⟩

/-- Two sessions are of one time and two turns of one number, and one turn is active. -/
def listedTables : AgentTables where
  sessions := [listedSession "a" 5, listedSession "c" 7, listedSession "b" 5]
  taskWorkspaces := []
  turns := [listedTurn "t" (some 3), listedTurn "u" (some 3), listedTurn "v" none]
  sessionIds := by decide
  taskWorkspaceIds := by decide
  turnIds := by decide
  activeTurns := by decide

theorem listings_complete_listed :
    ∃ sessions, follow StoredAgentSession.cursor (fun cursor =>
      listAgentSessions (fun _ _ => true) listedTables ⟨.any, .activeOnly, none, cursor, 2⟩) 2 4
        none = some sessions ∧ sessions.map (·.sessionId) = ["c", "b", "a"] ∧
      ∃ records : List (StoredAgentTurnRecord Unit), follow StoredAgentTurnRecord.cursor
        (fun cursor => listCompletedAgentTurns (fun _ _ => []) listedTables "a" 3 cursor 1) 1 4
          none = some records ∧ records.map (·.turn.turnId) = ["u", "t"] := by
  obtain ⟨hsessions, -, hturns⟩ := listings_complete (fun _ _ => ([] : List Unit)) (fun _ _ => true)
    listedTables
  obtain ⟨sessions, hread, -⟩ := hsessions ⟨.any, .activeOnly, none, none, 2⟩ (by decide)
  obtain ⟨records, hrecords, -⟩ := hturns "a" 3 1 (by decide)
  refine ⟨sessions, hread 4 (by decide), ?_, records, hrecords 4 (by decide), ?_⟩
  · have hids := congrArg (Option.map (List.map (·.sessionId))) (hread 4 (by decide))
    exact Option.some.inj (hids.symm.trans (by decide +kernel))
  · have hids := congrArg (Option.map (List.map (·.turn.turnId))) (hrecords 4 (by decide))
    exact Option.some.inj (hids.symm.trans (by decide +kernel))

end Rieul.Agent.Listing
