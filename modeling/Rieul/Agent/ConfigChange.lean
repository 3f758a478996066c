import Rieul.Agent.Runtime
import Rieul.Agent.History

/-!
# The configuration of a session (daemon/host/src/agent.rs, agent_runtime.rs)

A change is requested by a call, which holds the guard while it waits for the answer
and applies it. Notifications of the agent are queued and applied by the consumer of
the runtime's events. A call is cancelled with its connection; the command it has
sent stays with the runtime. The sections under the state-update lock are one step
each.
-/

namespace Rieul.Agent.Config

structure AcpSessionConfigSelectOption where
  value : String
  name : String
  description : Option String
  deriving DecidableEq

structure AcpSessionConfigSelectGroup where
  group : String
  name : String
  options : List AcpSessionConfigSelectOption
  deriving DecidableEq

inductive AcpSessionConfigSelectOptions where
  | ungrouped (values : List AcpSessionConfigSelectOption)
  | grouped (groups : List AcpSessionConfigSelectGroup)
  | unknown
  deriving DecidableEq

inductive AcpSessionConfigKind where
  | select (currentValue : String) (options : AcpSessionConfigSelectOptions)
  | boolean (currentValue : Bool)
  | unknown
  deriving DecidableEq

inductive AcpSessionConfigOptionCategory where
  | mode
  | model
  | modelConfig
  | thoughtLevel
  | other (name : String)
  | unknown
  deriving DecidableEq

structure AcpSessionConfigOption where
  id : String
  name : String
  description : Option String
  kind : AcpSessionConfigKind
  category : Option AcpSessionConfigOptionCategory
  deriving DecidableEq

inductive AcpSessionConfigOptionValue where
  | valueId (value : String)
  | boolean (value : Bool)
  deriving DecidableEq

structure AgentConfigSelectGroup where
  groupId : String
  title : String
  deriving DecidableEq

structure AgentConfigSelectOption where
  value : String
  title : String
  description : Option String
  group : Option AgentConfigSelectGroup
  deriving DecidableEq

inductive AgentConfigInput where
  | select (currentValue : String) (options : List AgentConfigSelectOption)
  | boolean (currentValue : Bool)
  | text (currentValue placeholder : Option String)
  deriving DecidableEq

inductive AgentConfigOptionCategory where
  | mode
  | model
  | modelConfig
  | thoughtLevel
  | other (name : String)
  deriving DecidableEq

structure AgentConfigOption where
  configId : String
  title : String
  description : Option String
  input : AgentConfigInput
  category : Option AgentConfigOptionCategory
  deriving DecidableEq

inductive AgentConfigValue where
  | string (value : String)
  | boolean (value : Bool)
  deriving DecidableEq

inductive StoredAgentConfigValue where
  | string (configId value : String)
  | boolean (configId : String) (value : Bool)
  deriving DecidableEq

def StoredAgentConfigValue.configId : StoredAgentConfigValue → String
  | string configId _ => configId
  | boolean configId _ => configId

def AcpSessionConfigSelectOption.normalize (group : Option AgentConfigSelectGroup)
    (option : AcpSessionConfigSelectOption) : AgentConfigSelectOption :=
  ⟨option.value, option.name, option.description, group⟩

def AcpSessionConfigSelectOptions.normalize :
    AcpSessionConfigSelectOptions → Option (List AgentConfigSelectOption)
  | ungrouped values => some (values.map (·.normalize none))
  | grouped groups => some (groups.flatMap fun group =>
      group.options.map (·.normalize (some ⟨group.group, group.name⟩)))
  | unknown => none

def AcpSessionConfigKind.normalize : AcpSessionConfigKind → Option AgentConfigInput
  | select currentValue options => options.normalize.map (.select currentValue)
  | boolean currentValue => some (.boolean currentValue)
  | unknown => none

def AcpSessionConfigOptionCategory.normalize :
    AcpSessionConfigOptionCategory → AgentConfigOptionCategory
  | mode => .mode
  | model => .model
  | modelConfig => .modelConfig
  | thoughtLevel => .thoughtLevel
  | other name => .other name
  | unknown => .other "unknown"

def normalizeAcpConfigOption (option : AcpSessionConfigOption) : Option AgentConfigOption :=
  option.kind.normalize.map fun input =>
    ⟨option.id, option.name, option.description, input, option.category.map (·.normalize)⟩

def normalizeAcpConfigOptions (options : List AcpSessionConfigOption) : List AgentConfigOption :=
  options.filterMap normalizeAcpConfigOption

def validateAgentConfigValue (option : AgentConfigOption) :
    AgentConfigValue → Except AgentError AcpSessionConfigOptionValue
  | .string value => match option.input with
    | .select _ options =>
      if options.any (·.value = value) then .ok (.valueId value)
      else .error (.invalidArgument "the selected value is not currently offered")
    | .text _ _ =>
      .error (.invalidArgument "text session configuration is not supported by ACP")
    | .boolean _ => .error (.invalidArgument
        "the configuration value type does not match the current option")
  | .boolean value => match option.input with
    | .boolean _ => .ok (.boolean value)
    | _ => .error (.invalidArgument
        "the configuration value type does not match the current option")

def storedConfigValue (option : AgentConfigOption) : Option StoredAgentConfigValue :=
  match option.input with
  | .select currentValue _ => some (.string option.configId currentValue)
  | .text currentValue _ => currentValue.map (.string option.configId)
  | .boolean currentValue => some (.boolean option.configId currentValue)

def storedConfigValues (options : List AgentConfigOption) : List StoredAgentConfigValue :=
  options.filterMap storedConfigValue

def replaceAgentSessionConfigValues (values : List StoredAgentConfigValue) :
    Option (List StoredAgentConfigValue) :=
  if (values.map (·.configId)).Nodup then some values else none

structure SetAgentSessionConfigReq where
  configId : String
  value : AgentConfigValue
  deriving DecidableEq

structure ConfigReport where
  number : ℕ
  options : List AcpSessionConfigOption
  deriving DecidableEq

/-- `response` is the channel of the call. -/
inductive AgentRuntimeCommand where
  | prompt (turnId : ℕ)
  | setConfig (configId : String) (value : AcpSessionConfigOptionValue) (response : ℕ)

inductive Executing where
  | idle
  | request (command : AgentRuntimeCommand)
  | prompted (turnId : ℕ)
  | configured (response : ℕ) (answer : Option ConfigReport)

inductive AgentRuntimeEvent where
  | agentTextChunk (turnId : ℕ)
  | usage
  | configOptions (report : ConfigReport)
  | promptEnded (turnId : ℕ)
  | exited (message : Option String)

/-- Where a `set_session_config` stands that holds the guard. -/
inductive ConfigCall where
  | check (request : SetAgentSessionConfigReq)
  | send (configId : String) (value : AcpSessionConfigOptionValue)
  | await (response : ℕ)
  | answered (answer : Option ConfigReport)
  deriving DecidableEq

/-- `config_changing` is set while there is a call. `prompts` are the turns whose prompt is not
handed over yet, and `failing` those whose prompt was refused. `reported` is all that the agent
reported, and `applied` the number of the report that was applied last. -/
structure ConfiguredSession where
  attachment : AgentAttachmentState
  activeTurn : Option ℕ
  configOptions : List AgentConfigOption
  configValues : List StoredAgentConfigValue
  configCall : Option ConfigCall
  responses : ℕ
  prompts : List ℕ
  failing : List ℕ
  task : RuntimeTask
  commands : List AgentRuntimeCommand
  executing : Executing
  queue : List AgentRuntimeEvent
  consumer : RuntimeConsumer
  reported : List (List AcpSessionConfigOption)
  applied : ℕ

/-- The options that the agent notified before it answered the start are `early`: they are queued when
the answer is applied. -/
def ConfiguredSession.attached (early : List (List AcpSessionConfigOption))
    (acpOptions : List AcpSessionConfigOption) : Option ConfiguredSession :=
  let configOptions := normalizeAcpConfigOptions acpOptions
  (replaceAgentSessionConfigValues (storedConfigValues configOptions)).map fun values =>
    { attachment := .attached
      activeTurn := none
      configOptions := configOptions
      configValues := values
      configCall := none
      responses := 0
      prompts := []
      failing := []
      task := .running
      commands := []
      executing := .idle
      queue := early.mapIdx fun number options => .configOptions ⟨number, options⟩
      consumer := .waiting
      reported := early ++ [acpOptions]
      applied := early.length }

inductive ConfigStep where
  | setSessionConfig (request : SetAgentSessionConfigReq)
  | checkConfig
  | sendConfig
  | loseAnswer
  | applyAnswer (ok : Bool)
  | cancel
  | createTurn (turnId : ℕ) (ok : Bool)
  | sendPrompt (index : ℕ)
  | failTurn (index : ℕ) (ok : Bool)
  | takeCommand
  | answerPrompt
  | answerConfig (options : Option (List AcpSessionConfigOption))
  | passAnswer
  | notifyChunk (turnId : ℕ)
  | notifyUsage
  | notifyConfig (options : List AcpSessionConfigOption)
  | endTask (message : Option String)
  | queueExit
  | consume (ok : Bool)
  | exit (ok : Bool)

namespace ConfiguredSession
variable (session : ConfiguredSession)

def applyAgentConfigOptions (report : ConfigReport) (ok : Bool) : Option ConfiguredSession :=
  let options := normalizeAcpConfigOptions report.options
  if session.configOptions = options then
    some { session with applied := max session.applied report.number }
  else (if ok then replaceAgentSessionConfigValues (storedConfigValues options) else none).map
    fun values => { session with
      configValues := values
      configOptions := options
      applied := report.number }

def finishLiveTurn (turnId : ℕ) (ok : Bool) : Option ConfiguredSession :=
  if session.activeTurn = some turnId ∧ ok = true then some { session with activeTurn := none }
  else none

def checkConfig : Option ConfiguredSession :=
  match session.configCall with
  | some (.check request) =>
    if session.attachment ≠ .attached then some { session with configCall := none }
    else if session.activeTurn.isSome then some { session with configCall := none }
    else match session.configOptions.find? (·.configId = request.configId) with
      | none => some { session with configCall := none }
      | some option => match validateAgentConfigValue option request.value with
        | .error _ => some { session with configCall := none }
        | .ok value =>
          some { session with configCall := some (.send request.configId value) }
  | _ => none

def createTurn (turnId : ℕ) (ok : Bool) : Option ConfiguredSession :=
  if session.configCall.isSome ∨ session.attachment ≠ .attached ∨ session.activeTurn.isSome ∨
      ok = false then some session
  else some { session with
    activeTurn := some turnId
    prompts := session.prompts ++ [turnId] }

def setSessionConfig (request : SetAgentSessionConfigReq) : Option ConfiguredSession :=
  if request.configId = "" ∨ session.configCall.isSome then some session
  else some { session with configCall := some (.check request) }

def sendConfig : Option ConfiguredSession :=
  match session.configCall with
  | some (.send configId value) =>
    if session.task = .running then
      some { session with
        configCall := some (.await session.responses)
        responses := session.responses + 1
        commands := session.commands ++ [.setConfig configId value session.responses] }
    else some { session with configCall := none }
  | _ => none

def loseAnswer : Option ConfiguredSession :=
  match session.configCall with
  | some (.await _) =>
    if session.task = .running then none else some { session with configCall := none }
  | _ => none

def applyAnswer (ok : Bool) : Option ConfiguredSession :=
  match session.configCall with
  | some (.answered none) => some { session with configCall := none }
  | some (.answered (some report)) =>
    -- the guard is dropped also where the options cannot be stored
    some { (session.applyAgentConfigOptions report ok).getD session with configCall := none }
  | _ => none

def cancel : Option ConfiguredSession :=
  match session.configCall with
  | some (.await _) => some { session with configCall := none }
  | some (.answered _) => some { session with configCall := none }
  | _ => none

def sendPrompt (index : ℕ) : Option ConfiguredSession :=
  (session.prompts[index]?).map fun turnId =>
    if session.task = .running then { session with
      prompts := session.prompts.eraseIdx index
      commands := session.commands ++ [.prompt turnId] }
    else { session with
      prompts := session.prompts.eraseIdx index
      failing := session.failing ++ [turnId] }

def failTurn (index : ℕ) (ok : Bool) : Option ConfiguredSession :=
  (session.failing[index]?).map fun turnId =>
    let failed := { session with failing := session.failing.eraseIdx index }
    (failed.finishLiveTurn turnId ok).getD failed

def takeCommand : Option ConfiguredSession :=
  match session.executing, session.commands with
  | .idle, command :: commands =>
    some { session with executing := .request command, commands := commands }
  | _, _ => none

def answerPrompt : Option ConfiguredSession :=
  match session.executing with
  | .request (.prompt turnId) => some { session with executing := .prompted turnId }
  | _ => none

def answerConfig (options : Option (List AcpSessionConfigOption)) : Option ConfiguredSession :=
  match session.executing with
  | .request (.setConfig _ _ response) => some { session with
      executing := .configured response (options.map (⟨session.reported.length, ·⟩))
      reported := session.reported ++ options.toList }
  | _ => none

def passAnswer : Option ConfiguredSession :=
  match session.executing with
  | .prompted turnId => some { session with
      executing := .idle
      queue := session.queue ++ [.promptEnded turnId] }
  | .configured response answer => some { session with
      executing := .idle
      configCall :=
        if session.configCall = some (.await response) then some (.answered answer)
        else session.configCall }
  | _ => none

def queueEvent (event : AgentRuntimeEvent) : Option ConfiguredSession :=
  if session.task = .running then some { session with queue := session.queue ++ [event] }
  else none

def notifyConfig (options : List AcpSessionConfigOption) : Option ConfiguredSession :=
  (session.queueEvent (.configOptions ⟨session.reported.length, options⟩)).map fun next =>
    { next with reported := session.reported ++ [options] }

def endTask (message : Option String) : Option ConfiguredSession :=
  match session.task, session.executing with
  -- between an answer and its passing on the task does not wait
  | .running, .prompted _ => none
  | .running, .configured _ _ => none
  | .running, _ => some { session with task := .ended message, commands := [], executing := .idle }
  | _, _ => none

def queueExit : Option ConfiguredSession :=
  match session.task with
  | .ended message => some { session with
      task := .exited
      queue := session.queue ++ [.exited message] }
  | _ => none

def applyEvent (ok : Bool) : AgentRuntimeEvent → Option ConfiguredSession
  | .agentTextChunk turnId =>
    if session.activeTurn = some turnId ∧ ok = true then some session else none
  | .usage => if ok then some session else none
  | .configOptions report => session.applyAgentConfigOptions report ok
  | .promptEnded turnId => session.finishLiveTurn turnId ok
  | .exited message => some { session with consumer := .finishing message session.activeTurn }

def consume (ok : Bool) : Option ConfiguredSession :=
  match session.consumer, session.queue with
  | .waiting, event :: queue =>
    let taken := { session with queue := queue }
    some ((taken.applyEvent ok event).getD { taken with consumer := .stopped })
  | _, _ => none

def exit (ok : Bool) : Option ConfiguredSession :=
  match session.consumer with
  | .finishing message turnId =>
    let applying := { session with consumer := .applying message }
    some ((turnId.bind (applying.finishLiveTurn · ok)).getD applying)
  | .applying message =>
    if ok then some { session with
      attachment := if message.isSome then .failed else .dormant
      consumer := .removing true }
    else some { session with consumer := .removing false }
  | .removing applied =>
    some { session with consumer := if applied then .waiting else .stopped }
  | _ => none

def step : ConfigStep → Option ConfiguredSession
  | .setSessionConfig request => session.setSessionConfig request
  | .checkConfig => session.checkConfig
  | .sendConfig => session.sendConfig
  | .loseAnswer => session.loseAnswer
  | .applyAnswer ok => session.applyAnswer ok
  | .cancel => session.cancel
  | .createTurn turnId ok => session.createTurn turnId ok
  | .sendPrompt index => session.sendPrompt index
  | .failTurn index ok => session.failTurn index ok
  | .takeCommand => session.takeCommand
  | .answerPrompt => session.answerPrompt
  | .answerConfig options => session.answerConfig options
  | .passAnswer => session.passAnswer
  | .notifyChunk turnId => session.queueEvent (.agentTextChunk turnId)
  | .notifyUsage => session.queueEvent .usage
  | .notifyConfig options => session.notifyConfig options
  | .endTask message => session.endTask message
  | .queueExit => session.queueExit
  | .consume ok => session.consume ok
  | .exit ok => session.exit ok

end ConfiguredSession

end Rieul.Agent.Config
