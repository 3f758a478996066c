import Rieul.Agent.Attachment

/-!
# Runtimes and their events (daemon/host/src/agent.rs, agent_runtime.rs)

The task that runs an agent queues events, and a consumer applies them one after
the other until one fails. The sections under the state-update lock are one step
each here: what other operations do between their parts leaves the active turn.
-/

namespace Rieul.Agent

def LiveOperation.run (ok : Bool) (row : StoredSession) (snapshot : AgentSessionLiveSnapshot)
    (operation : LiveOperation) : Option (StoredSession × AgentSessionLiveSnapshot) :=
  (operation.check snapshot false).bind fun change =>
    (if ok then change.commit row else none).map fun stored =>
      (stored, (change.write stored snapshot).1)

inductive AgentRuntimeEvent where
  | agentTextChunk (turnId : ℕ) (text : String)
  | usage (usage : AgentUsage)
  | configOptions (options : List AgentConfigOption)
  | promptFinished (turnId : ℕ) (stopReason : AgentStopReason)
  | promptFailed (turnId : ℕ) (message : String)
  | exited (message : Option String)

/-- Where `run_agent_runtime` stands with its prompts. -/
inductive Prompting where
  | idle
  | executing (turnId : ℕ)
  | answered (turnId : ℕ) (answer : Except String AgentStopReason)

/-- `ended` when `run_agent_runtime` has returned and its exit is not queued yet. -/
inductive RuntimeTask where
  | running
  | ended (message : Option String)
  | exited
  deriving DecidableEq

/-- Where `consume_runtime_events` stands; at an exit it finishes the active turn, applies the exit
and removes the runtime. -/
inductive RuntimeConsumer where
  | waiting
  | finishing (message : Option String) (turnId : Option ℕ)
  | applying (message : Option String)
  | removing (ok : Bool)
  | stopped
  deriving DecidableEq

/-- `handlers` are the notification handlers that have read the turn id and not queued their
chunk. -/
structure AgentRuntime where
  snapshot : AgentSessionLiveSnapshot
  task : RuntimeTask
  commands : List ℕ
  prompting : Prompting
  handlers : List ℕ
  queue : List AgentRuntimeEvent
  consumer : RuntimeConsumer

/-- What a `create_turn` that created its turn still has to do, at the runtime it looked up. -/
inductive PromptCall where
  | prompt (index turnId : ℕ)
  | finish (index turnId : ℕ)

structure RunningSession where
  row : StoredSession
  current : Option ℕ
  runtimes : List AgentRuntime
  calls : List PromptCall

def RunningSession.created (row : StoredSession) : RunningSession := ⟨row, none, [], []⟩

def acpPromptFailure (message : String) : AgentFailure := ⟨message, some "acp_prompt_failed", true⟩

def exitFailure (message : Option String) : AgentFailure :=
  ⟨message.getD "ACP agent exited during the prompt", some "acp_process_exited", true⟩

def unavailableFailure : AgentFailure :=
  ⟨"agent runtime is no longer available", some "acp_runtime_unavailable", true⟩

def AgentRuntimeEvent.operation : AgentRuntimeEvent → Option LiveOperation
  | agentTextChunk turnId text => some (.applyAgentTextChunk turnId text)
  | usage used => some (.applyAgentUsage used)
  | configOptions options => some (.applyAgentConfigOptions options)
  | promptFinished turnId stopReason => some (.finishLiveTurn turnId (.finished stopReason))
  | promptFailed turnId message => some (.finishLiveTurn turnId (.failed (acpPromptFailure message)))
  | exited _ => none

def LiveOperation.unchanged (snapshot : AgentSessionLiveSnapshot) : LiveOperation → Bool
  | applyAgentConfigOptions options => snapshot.configOptions = options
  | _ => false

namespace RunningSession
variable (session : RunningSession)

def set (index : ℕ) (runtime : AgentRuntime) : RunningSession :=
  { session with runtimes := session.runtimes.set index runtime }

def apply (index : ℕ) (runtime : AgentRuntime) (ok : Bool) (operation : LiveOperation) :
    RunningSession × Bool :=
  match operation.run ok session.row runtime.snapshot with
  | some (row, snapshot) =>
    ({ session with row := row }.set index { runtime with snapshot := snapshot }, true)
  | none => (session.set index runtime, operation.unchanged runtime.snapshot)

def createTurn (index : ℕ) (new : NewTurn) (ok : Bool) : Option RunningSession :=
  (session.runtimes[index]?).map fun runtime =>
    match (LiveOperation.createTurn new).run ok session.row runtime.snapshot with
    | some (row, snapshot) =>
      { session with
        row := row
        calls := session.calls ++ [PromptCall.prompt index new.turnId] }.set index
          { runtime with snapshot := snapshot }
    | none => session

def sendPrompt (call : ℕ) : Option RunningSession :=
  match session.calls[call]? with
  | some (PromptCall.prompt index turnId) =>
    (session.runtimes[index]?).map fun runtime =>
      if runtime.task = .running then
        { session with calls := session.calls.eraseIdx call }.set index
          { runtime with commands := runtime.commands ++ [turnId] }
      else { session with calls := session.calls.set call (.finish index turnId) }
  | _ => none

def failTurn (call : ℕ) (ok : Bool) : Option RunningSession :=
  match session.calls[call]? with
  | some (.finish index turnId) =>
    (session.runtimes[index]?).map fun runtime =>
      ({ session with calls := session.calls.eraseIdx call }.apply index runtime ok
        (.finishLiveTurn turnId (.failed unavailableFailure))).1
  | _ => none

def answerEvent (turnId : ℕ) : Except String AgentStopReason → AgentRuntimeEvent
  | .ok stopReason => .promptFinished turnId stopReason
  | .error message => .promptFailed turnId message

inductive TaskStep where
  | takeCommand
  | notify
  | queueChunk (handler : ℕ) (text : String)
  | queueUsage (usage : AgentUsage)
  | queueConfigOptions (options : List AgentConfigOption)
  | answer (answer : Except String AgentStopReason)
  | queueAnswer
  | endTask (message : Option String)
  | queueExit

def taskStep (runtime : AgentRuntime) : TaskStep → Option AgentRuntime
  | .takeCommand => match runtime.commands, runtime.prompting with
    | turnId :: commands, .idle =>
      some { runtime with commands := commands, prompting := .executing turnId }
    | _, _ => none
  | .notify => match runtime.prompting with
    | .executing turnId => some { runtime with handlers := runtime.handlers ++ [turnId] }
    | _ => none
  | .queueChunk handler text => (runtime.handlers[handler]?).map fun turnId =>
    { runtime with
      handlers := runtime.handlers.eraseIdx handler
      queue := runtime.queue ++ [.agentTextChunk turnId text] }
  | .queueUsage usage =>
    if runtime.task = .running then some { runtime with queue := runtime.queue ++ [.usage usage] }
    else none
  | .queueConfigOptions options =>
    if runtime.task = .running then
      some { runtime with queue := runtime.queue ++ [.configOptions options] }
    else none
  | .answer answer => match runtime.prompting with
    | .executing turnId => some { runtime with prompting := .answered turnId answer }
    | _ => none
  | .queueAnswer => match runtime.prompting with
    | .answered turnId answer => some { runtime with
        prompting := .idle
        queue := runtime.queue ++ [answerEvent turnId answer] }
    | _ => none
  | .endTask message => match runtime.task, runtime.prompting with
    -- between the answer and its event the task does not wait
    | .running, .answered _ _ => none
    | .running, _ => some { runtime with
        task := .ended message, commands := [], prompting := .idle }
    | _, _ => none
  | .queueExit => match runtime.task with
    | .ended message => some { runtime with
        task := .exited, queue := runtime.queue ++ [.exited message] }
    | _ => none

def consume (index : ℕ) (ok : Bool) : Option RunningSession :=
  (session.runtimes[index]?).bind fun runtime =>
    match runtime.consumer, runtime.queue with
    | .waiting, event :: queue =>
      match event.operation with
      | some operation =>
        let (next, succeeded) := session.apply index { runtime with
          queue := queue, consumer := .waiting } ok operation
        if succeeded then some next
        else some (session.set index { runtime with queue := queue, consumer := .stopped })
      | none => match event with
        | .exited message => some (session.set index { runtime with
            queue := queue
            consumer := .finishing message (runtime.snapshot.activeTurn.map (·.turn.turnId)) })
        | _ => none
    | _, _ => none

def exit (index : ℕ) (ok : Bool) : Option RunningSession :=
  (session.runtimes[index]?).bind fun runtime =>
    match runtime.consumer with
    | .finishing message turnId =>
      let applying := { runtime with consumer := .applying message }
      some (match turnId with
        | some turnId => (session.apply index applying ok
            (.finishLiveTurn turnId (.failed (exitFailure message)))).1
        | none => session.set index applying)
    | .applying message =>
      let (next, succeeded) := session.apply index { runtime with consumer := .removing true } ok
        (.applyRuntimeExit message)
      if succeeded then some next
      else some (session.set index { runtime with consumer := .removing false })
    | .removing ok =>
      some ({ session with
        current := if session.current = some index then none else session.current }.set index
          { runtime with consumer := if ok then .waiting else .stopped })
    | _ => none

end RunningSession

inductive RunningStep where
  | createTurn (index : ℕ) (new : NewTurn) (ok : Bool)
  | sendPrompt (call : ℕ)
  | failTurn (call : ℕ) (ok : Bool)
  | task (index : ℕ) (step : RunningSession.TaskStep)
  | consume (index : ℕ) (ok : Bool)
  | exit (index : ℕ) (ok : Bool)
  | attach (providerSessionId : String) (configOptions : List AgentConfigOption)
  | restart

def AgentRuntime.attached (row : StoredSession) (providerSessionId : String)
    (configOptions : List AgentConfigOption) : AgentRuntime where
  snapshot := AgentRuntimeReady.snapshot ⟨⟨row, row.latestSeq, 0⟩, providerSessionId, configOptions⟩
  task := .running
  commands := []
  prompting := .idle
  handlers := []
  queue := []
  consumer := .waiting

def RunningSession.step (session : RunningSession) : RunningStep → Option RunningSession
  | .createTurn index new ok => session.createTurn index new ok
  | .sendPrompt call => session.sendPrompt call
  | .failTurn call ok => session.failTurn call ok
  | .task index step => (session.runtimes[index]?).bind fun runtime =>
      (RunningSession.taskStep runtime step).map (session.set index)
  | .consume index ok => session.consume index ok
  | .exit index ok => session.exit index ok
  | .attach providerSessionId configOptions =>
    if session.current.isSome then none
    else some { session with
      runtimes := session.runtimes ++ [.attached session.row providerSessionId configOptions]
      current := some session.runtimes.length }
  | .restart => some (.created session.row)

end Rieul.Agent
