import Rieul.Agent.Store

/-!
# A live session (daemon/host/src/agent.rs)

The operations on an attached session between the sections that the locks protect.
All but `update_session` keep the state-update lock from their check until their
events are sent; `update_session` keeps it for its transaction only.
-/

namespace Rieul.Agent

inductive AgentAttachmentState where
  | dormant
  | starting
  | attached
  | failed
  deriving DecidableEq

inductive AgentSessionTurnState where
  | idle
  | running
  deriving DecidableEq

/-- The clock shows the number of the operation that reads it. -/
structure AgentSessionInfo where
  title : Option String
  archived : Bool
  providerSessionId : Option String
  attachment : AgentAttachmentState
  turnState : AgentSessionTurnState
  failure : Option AgentFailure
  updatedAtMs : ℕ
  attachedAtMs : Option ℕ
  detachedAtMs : Option ℕ
  deriving DecidableEq

structure AgentTurnRecord where
  turn : AgentTurnInfo
  messages : List AgentMessage
  deriving DecidableEq

structure AgentUsage where
  inputTokens : ℕ
  contextWindowTokens : ℕ
  deriving DecidableEq

structure AgentConfigOption where
  configId : String
  currentValue : String
  deriving DecidableEq

structure AgentSessionLiveSnapshot where
  session : AgentSessionInfo
  activeTurn : Option AgentTurnRecord
  usage : Option AgentUsage
  configOptions : List AgentConfigOption
  latestSeq : ℕ
  deriving DecidableEq

inductive AgentSessionEvent where
  | sessionUpsert (seq : ℕ) (session : AgentSessionInfo)
  | turnUpsert (seq : ℕ) (turn : AgentTurnInfo)
  | messageUpsert (seq : ℕ) (message : AgentMessage)
  | messageContentAppend (seq messageId : ℕ) (content : String)
  | usageUpdate (seq : ℕ) (usage : AgentUsage)
  | configOptionsReplace (seq : ℕ) (options : List AgentConfigOption)
  deriving DecidableEq

def AgentSessionEvent.seq : AgentSessionEvent → ℕ
  | sessionUpsert seq _ => seq
  | turnUpsert seq _ => seq
  | messageUpsert seq _ => seq
  | messageContentAppend seq _ _ => seq
  | usageUpdate seq _ => seq
  | configOptionsReplace seq _ => seq

def activeAssistantMessage (snapshot : AgentSessionLiveSnapshot) (turnId : ℕ) :
    Option AgentMessage :=
  (snapshot.activeTurn.filter (·.turn.turnId = turnId)).bind fun record =>
    record.messages.find? (·.role = .assistant)

inductive TurnOutcome where
  | finished (stopReason : AgentStopReason)
  | failed (failure : AgentFailure)
  deriving DecidableEq

def TurnOutcome.state : TurnOutcome → AgentTurnState
  | finished stopReason => .completed stopReason
  | failed failure => .failed failure

inductive LiveOperation where
  | createTurn (new : NewTurn)
  | updateSession (title : Option (Option String)) (archived : Option Bool)
  | applyAgentConfigOptions (options : List AgentConfigOption)
  | applyAgentTextChunk (turnId : ℕ) (text : String)
  | applyAgentUsage (usage : AgentUsage)
  | finishLiveTurn (turnId : ℕ) (outcome : TurnOutcome)
  | applyRuntimeExit (message : Option String)
  deriving DecidableEq

inductive LiveChange where
  | create (new : NewTurn)
  | update (title : Option (Option String)) (archived : Option Bool)
  | config (options : List AgentConfigOption)
  | chunk (turnId messageId : ℕ) (text : String)
  | usage (usage : AgentUsage)
  | finish (turnId messageId : ℕ) (outcome : TurnOutcome)
  | exit (message : Option String)
  deriving DecidableEq

def LiveOperation.check (snapshot : AgentSessionLiveSnapshot) (configChanging : Bool) :
    LiveOperation → Option LiveChange
  | createTurn new =>
    if configChanging then none
    else if snapshot.session.attachment ≠ .attached then none
    else if snapshot.activeTurn.isSome then none
    else some (.create new)
  | updateSession title archived => some (.update title archived)
  | applyAgentConfigOptions options =>
    if snapshot.configOptions = options then none else some (.config options)
  | applyAgentTextChunk turnId text =>
    (activeAssistantMessage snapshot turnId).map fun message =>
      .chunk turnId message.messageId text
  | applyAgentUsage usage => some (.usage usage)
  | finishLiveTurn turnId outcome =>
    (activeAssistantMessage snapshot turnId).map fun message =>
      .finish turnId message.messageId outcome
  | applyRuntimeExit message => some (.exit message)

def LiveChange.count : LiveChange → ℕ
  | create _ => 3
  | finish _ _ _ => 2
  | _ => 1

def LiveChange.keepsLock : LiveChange → Bool
  | update _ _ => false
  | _ => true

def LiveChange.commit (row : StoredSession) : LiveChange → Option StoredSession
  | create new => (createAgentTextTurn row new).map (·.1)
  | update title archived => some (updateAgentSession row title archived)
  | config _ => some (advanceAgentSessionSeq row 1)
  | chunk _ messageId text => (appendAgentTextChunk row messageId text).map (·.1)
  | usage _ => some (advanceAgentSessionSeq row 1)
  | finish turnId messageId outcome =>
    some (finishAgentTurn row turnId messageId outcome.state).1
  | exit _ => some (advanceAgentSessionSeq row 1)

theorem LiveChange.commit_create {row stored : StoredSession} {new : NewTurn}
    (h : (create new).commit row = some stored) : new.fits row ∧
      stored = advanceAgentSessionSeq { row with turns := row.turns ++ [new.stored] } 3 := by
  obtain ⟨created, hcreate, rfl⟩ := Option.map_eq_some_iff.mp h
  obtain ⟨hfits, hcreate⟩ := Option.ite_none_right_eq_some.mp hcreate
  cases hcreate
  exact ⟨hfits, rfl⟩

theorem LiveChange.commit_chunk {row stored : StoredSession} {turnId messageId : ℕ} {text : String}
    (h : (chunk turnId messageId text).commit row = some stored) :
    stored = advanceAgentSessionSeq (row.modifyMessage messageId fun message =>
      { message with content := message.content ++ [text] }) 1 := by
  obtain ⟨written, hchunk, rfl⟩ := Option.map_eq_some_iff.mp h
  obtain ⟨-, hchunk⟩ := Option.ite_none_right_eq_some.mp hchunk
  cases hchunk
  rfl

def modifyAssistant (f : AgentMessage → AgentMessage) : List AgentMessage → List AgentMessage
  | [] => []
  | message :: messages =>
    if message.role = .assistant then f message :: messages
    else message :: modifyAssistant f messages

/-- What is written to the snapshot after the transaction that gave `stored`, and the events to
send. -/
def LiveChange.write (stored : StoredSession) (snapshot : AgentSessionLiveSnapshot) :
    LiveChange → AgentSessionLiveSnapshot × List AgentSessionEvent
  | create new =>
    let turn : AgentTurnInfo := ⟨new.turnId, .running⟩
    ({ snapshot with
        latestSeq := stored.latestSeq
        session := { snapshot.session with turnState := .running, updatedAtMs := stored.latestSeq }
        activeTurn := some ⟨turn, [new.userMessage, new.assistantMessage]⟩ },
      [.turnUpsert (stored.latestSeq - 2) turn,
        .messageUpsert (stored.latestSeq - 1) new.userMessage,
        .messageUpsert stored.latestSeq new.assistantMessage])
  | update _ _ =>
    let session := { snapshot.session with
      title := stored.title
      archived := stored.archived
      updatedAtMs := stored.latestSeq }
    ({ snapshot with latestSeq := stored.latestSeq, session := session },
      [.sessionUpsert stored.latestSeq session])
  | config options =>
    ({ snapshot with
        latestSeq := stored.latestSeq
        configOptions := options
        session := { snapshot.session with updatedAtMs := stored.latestSeq } },
      [.configOptionsReplace stored.latestSeq options])
  | chunk turnId messageId text =>
    ({ snapshot with
        activeTurn := snapshot.activeTurn.map fun record =>
          if record.turn.turnId = turnId then
            { record with messages := modifyAssistant (fun message =>
                { message with content := message.content ++ [text] }) record.messages }
          else record
        latestSeq := stored.latestSeq
        session := { snapshot.session with updatedAtMs := stored.latestSeq } },
      [.messageContentAppend stored.latestSeq messageId text])
  | usage used =>
    ({ snapshot with latestSeq := stored.latestSeq, usage := some used },
      [.usageUpdate stored.latestSeq used])
  | finish _ messageId outcome =>
    match snapshot.activeTurn with
    | none => (snapshot, [])
    | some record => match record.messages.find? (·.messageId = messageId) with
      | none => (snapshot, [])
      | some message =>
        ({ snapshot with
            latestSeq := stored.latestSeq
            session := { snapshot.session with turnState := .idle, updatedAtMs := stored.latestSeq }
            activeTurn := none },
          [.messageUpsert (stored.latestSeq - 1) { message with state := .complete },
            .turnUpsert stored.latestSeq { record.turn with state := outcome.state }])
  | exit message =>
    let session := { snapshot.session with
      detachedAtMs := some stored.latestSeq
      updatedAtMs := stored.latestSeq }
    let session := match message with
      | some message => { session with
          attachment := .failed
          failure := some ⟨message, some "acp_process_exited", true⟩ }
      | none => { session with attachment := .dormant }
    ({ snapshot with latestSeq := stored.latestSeq, session := session },
      [.sessionUpsert stored.latestSeq session])

/-- A change whose transaction gave `stored`; the events are there from the write of the snapshot
until they are sent. -/
structure Publication where
  change : LiveChange
  stored : StoredSession
  events : Option (List AgentSessionEvent)

inductive StateUpdate where
  | free
  | checked (change : LiveChange)
  | publishing
  deriving DecidableEq

/-- Where a `set_session_config` stands; while there is one, `config_changing` is set. -/
inductive ConfigCall where
  | check (configId : String)
  | await
  | apply
  deriving DecidableEq

/-- Who subscribed after `since` events and then took the snapshot. -/
structure SessionSubscriber where
  since : ℕ
  snapshot : AgentSessionLiveSnapshot

structure AgentLiveSession where
  snapshot : AgentSessionLiveSnapshot
  stateUpdate : StateUpdate
  configCall : Option ConfigCall
  publications : List Publication
  sent : List AgentSessionEvent
  joining : List ℕ
  subscribers : List SessionSubscriber

def AgentLiveSession.started (snapshot : AgentSessionLiveSnapshot) : AgentLiveSession :=
  ⟨snapshot, .free, none, [], [], [], []⟩

structure AttachedSession where
  row : StoredSession
  live : AgentLiveSession

inductive LiveStep where
  | begin (operation : LiveOperation)
  | commit (ok : Bool)
  | write (index : ℕ)
  | send (index : ℕ)
  | drop (index : ℕ)
  | setSessionConfig (configId : String)
  | checkConfig (valid : Bool)
  | answerConfig (options : Option (List AgentConfigOption))
  | dropConfig
  | subscribe
  | readSnapshot (index : ℕ)
  deriving DecidableEq

namespace AgentLiveSession
variable (live : AgentLiveSession)

def begin (operation : LiveOperation) : Option AgentLiveSession :=
  if live.stateUpdate ≠ .free then none
  else match operation.check live.snapshot live.configCall.isSome with
    | some change => some { live with stateUpdate := .checked change }
    | none => some live

def write (index : ℕ) : Option AgentLiveSession :=
  match live.publications[index]? with
  | some ⟨change, stored, none⟩ =>
    some { live with
      snapshot := (change.write stored live.snapshot).1
      publications := live.publications.set index
        ⟨change, stored, some (change.write stored live.snapshot).2⟩ }
  | _ => none

def send (index : ℕ) : Option AgentLiveSession :=
  match live.publications[index]? with
  | some ⟨change, stored, some (event :: events)⟩ =>
    some { live with
      sent := live.sent ++ [event]
      publications := live.publications.set index ⟨change, stored, some events⟩ }
  | _ => none

def drop (index : ℕ) : Option AgentLiveSession :=
  match live.publications[index]? with
  | some ⟨change, _, some []⟩ =>
    some { live with
      stateUpdate := if change.keepsLock then .free else live.stateUpdate
      publications := live.publications.eraseIdx index }
  | _ => none

def checkConfig (valid : Bool) : Option AgentLiveSession :=
  match live.configCall with
  | some (.check configId) =>
    if live.stateUpdate ≠ .free then none
    else if live.snapshot.session.attachment ≠ .attached ∨ live.snapshot.activeTurn.isSome ∨
        live.snapshot.configOptions.any (·.configId = configId) = false ∨ valid = false then
      some { live with configCall := none }
    else some { live with configCall := some .await }
  | _ => none

def answerConfig (options : Option (List AgentConfigOption)) : Option AgentLiveSession :=
  if live.configCall = some .await then
    match options with
    | none => some { live with configCall := none }
    | some options =>
      ({ live with configCall := some .apply }).begin (.applyAgentConfigOptions options)
  else none

end AgentLiveSession

namespace AttachedSession
variable (attached : AttachedSession)

def commit (ok : Bool) : Option AttachedSession :=
  match attached.live.stateUpdate with
  | .checked change =>
    match if ok then change.commit attached.row else none with
    | none => some { attached with live := { attached.live with stateUpdate := .free } }
    | some stored =>
      some ⟨stored, { attached.live with
        stateUpdate := if change.keepsLock then .publishing else .free
        publications := attached.live.publications ++ [⟨change, stored, none⟩] }⟩
  | _ => none

def onLive (live : Option AgentLiveSession) : Option AttachedSession :=
  live.map fun live => { attached with live := live }

def step : LiveStep → Option AttachedSession
  | .begin operation => attached.onLive (attached.live.begin operation)
  | .commit ok => attached.commit ok
  | .write index => attached.onLive (attached.live.write index)
  | .send index => attached.onLive (attached.live.send index)
  | .drop index => attached.onLive (attached.live.drop index)
  | .setSessionConfig configId =>
    if attached.live.configCall.isSome then some attached
    else attached.onLive (some { attached.live with configCall := some (.check configId) })
  | .checkConfig valid => attached.onLive (attached.live.checkConfig valid)
  | .answerConfig options => attached.onLive (attached.live.answerConfig options)
  | .dropConfig =>
    -- the call that applied the answer returns
    if attached.live.configCall = some .apply then
      attached.onLive (some { attached.live with configCall := none })
    else none
  | .subscribe =>
    attached.onLive (some { attached.live with
      joining := attached.live.joining ++ [attached.live.sent.length] })
  | .readSnapshot index =>
    attached.onLive ((attached.live.joining[index]?).map fun since =>
      { attached.live with
        joining := attached.live.joining.eraseIdx index
        subscribers := attached.live.subscribers ++ [⟨since, attached.live.snapshot⟩] })

end AttachedSession

def AgentTurnRecord.upsertMessage (record : AgentTurnRecord) (message : AgentMessage) :
    AgentTurnRecord :=
  if record.messages.any (·.messageId = message.messageId) then
    { record with messages := record.messages.map fun old =>
        if old.messageId = message.messageId then message else old }
  else { record with messages := record.messages ++ [message] }

def AgentSessionEvent.apply (snapshot : AgentSessionLiveSnapshot) :
    AgentSessionEvent → AgentSessionLiveSnapshot
  | sessionUpsert seq session => { snapshot with session := session, latestSeq := seq }
  | turnUpsert seq turn =>
    if turn.state = .running then
      { snapshot with
        session := { snapshot.session with turnState := .running }
        activeTurn := some ⟨turn, []⟩
        latestSeq := seq }
    else
      { snapshot with
        session := { snapshot.session with turnState := .idle }
        activeTurn := none
        latestSeq := seq }
  | messageUpsert seq message =>
    { snapshot with
      activeTurn := snapshot.activeTurn.map (·.upsertMessage message)
      latestSeq := seq }
  | messageContentAppend seq messageId content =>
    { snapshot with
      activeTurn := snapshot.activeTurn.map fun record =>
        { record with messages := record.messages.map fun message =>
            if message.messageId = messageId then
              { message with content := message.content ++ [content] }
            else message }
      latestSeq := seq }
  | usageUpdate seq usage => { snapshot with usage := some usage, latestSeq := seq }
  | configOptionsReplace seq options => { snapshot with configOptions := options, latestSeq := seq }

end Rieul.Agent
