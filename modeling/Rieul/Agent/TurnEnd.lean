import Rieul.Agent.EventStream
import Rieul.Agent.Runtime
import Rieul.Agent.Turns

/-!
# The end of a turn

A turn that is active is in the hand of one party: the call that prompts it, the commands of the
task, the prompt it executes or an event in its queue; once the task has ended, its exit finishes
the turn.
-/

namespace Rieul.Agent

def AgentSessionLiveSnapshot.activeId (snapshot : AgentSessionLiveSnapshot) : Option ℕ :=
  snapshot.activeTurn.map (·.turn.turnId)

def AgentSessionLiveSnapshot.Known (snapshot : AgentSessionLiveSnapshot) (row : StoredSession) : Prop :=
  ∀ record, snapshot.activeTurn = some record → ∀ message ∈ record.messages,
    message.messageId ∈ row.messageIds

structure AgentSessionLiveSnapshot.Sane (snapshot : AgentSessionLiveSnapshot)
    (row : StoredSession) : Prop where
  shaped : snapshot.Shaped
  known : snapshot.Known row

structure SameTurns (row : StoredSession) (snapshot : AgentSessionLiveSnapshot)
    (stored : StoredSession) (next : AgentSessionLiveSnapshot) : Prop where
  unfinished : stored.unfinished = row.unfinished
  active : next.activeId = snapshot.activeId
  messageIds : stored.messageIds = row.messageIds
  sane : snapshot.Sane row → next.Sane stored

theorem LiveOperation.run_eq_some (ok : Bool) (row stored : StoredSession)
    (snapshot next : AgentSessionLiveSnapshot) (operation : LiveOperation)
    (h : operation.run ok row snapshot = some (stored, next)) :
    ∃ change, operation.check snapshot false = some change ∧ change.commit row = some stored ∧
      next = (change.write stored snapshot).1 := by
  obtain ⟨change, hcheck, h⟩ := Option.bind_eq_some_iff.mp h
  obtain ⟨other, hcommit, heq⟩ := Option.map_eq_some_iff.mp h
  obtain ⟨-, hcommit⟩ := Option.ite_none_right_eq_some.mp hcommit
  cases heq
  exact ⟨change, hcheck, hcommit, rfl⟩

theorem SameTurns.of_activeTurn (row stored : StoredSession)
    (snapshot next : AgentSessionLiveSnapshot) (hturns : stored.turns = row.turns)
    (hactive : next.activeTurn = snapshot.activeTurn) : SameTurns row snapshot stored next := by
  have hids : stored.messageIds = row.messageIds := by
    unfold StoredSession.messageIds
    rw [hturns]
  refine ⟨?_, ?_, hids, ?_⟩
  · unfold StoredSession.unfinished
    rw [hturns]
  · unfold AgentSessionLiveSnapshot.activeId
    rw [hactive]
  · intro hsane
    refine ⟨?_, ?_⟩
    · intro record hrecord
      rw [hactive] at hrecord
      exact hsane.shaped record hrecord
    · intro record hrecord
      rw [hactive] at hrecord
      rw [hids]
      exact hsane.known record hrecord

section
variable (ok : Bool) (row stored : StoredSession) (snapshot next : AgentSessionLiveSnapshot)
include ok row stored snapshot next

theorem run_usage (usage : AgentUsage)
    (h : (LiveOperation.applyAgentUsage usage).run ok row snapshot = some (stored, next)) :
    SameTurns row snapshot stored next ∧ next.session.attachment = snapshot.session.attachment := by
  obtain ⟨change, hcheck, hcommit, hnext⟩ := LiveOperation.run_eq_some _ _ _ _ _ _ h
  cases hcheck
  cases hcommit
  rw [hnext]
  exact ⟨.of_activeTurn _ _ _ _ rfl rfl, rfl⟩

theorem run_config (options : List AgentConfigOption)
    (h : (LiveOperation.applyAgentConfigOptions options).run ok row snapshot = some (stored, next)) :
    SameTurns row snapshot stored next ∧ next.session.attachment = snapshot.session.attachment := by
  obtain ⟨change, hcheck, hcommit, hnext⟩ := LiveOperation.run_eq_some _ _ _ _ _ _ h
  obtain ⟨-, hcheck⟩ := Option.ite_none_left_eq_some.mp hcheck
  cases hcheck
  cases hcommit
  rw [hnext]
  exact ⟨.of_activeTurn _ _ _ _ rfl rfl, rfl⟩

theorem run_exit (message : Option String)
    (h : (LiveOperation.applyRuntimeExit message).run ok row snapshot = some (stored, next)) :
    SameTurns row snapshot stored next ∧ next.session.attachment ≠ .attached := by
  obtain ⟨change, hcheck, hcommit, hnext⟩ := LiveOperation.run_eq_some _ _ _ _ _ _ h
  cases hcheck
  cases hcommit
  rw [hnext]
  refine ⟨.of_activeTurn _ _ _ _ rfl rfl, ?_⟩
  cases message with
  | none | some message => exact nofun

theorem run_chunk (turnId : ℕ) (text : String)
    (hsane : snapshot.Sane row)
    (h : (LiveOperation.applyAgentTextChunk turnId text).run ok row snapshot = some (stored, next)) :
    SameTurns row snapshot stored next ∧ next.session.attachment = snapshot.session.attachment := by
  obtain ⟨change, hcheck, hcommit, hnext⟩ := LiveOperation.run_eq_some _ _ _ _ _ _ h
  obtain ⟨message, hmessage, hcheck⟩ := Option.map_eq_some_iff.mp hcheck
  obtain ⟨turn, user, hactive, hturn, huser, hassistant, hne⟩ :=
    activeAssistantMessage_shaped snapshot turnId message hsane.shaped hmessage
  cases hcheck
  cases LiveChange.commit_chunk hcommit
  rw [← hturn, LiveChange.chunk_write _ snapshot turn user message _ text hactive huser
    hassistant] at hnext
  have hids : StoredSession.messageIds (advanceAgentSessionSeq
      (row.modifyMessage message.messageId fun old => { old with content := old.content ++ [text] })
      1) = row.messageIds :=
    row.modifyMessage_messageIds message.messageId _ fun _ => rfl
  rw [hnext]
  refine ⟨⟨?_, ?_, hids, ?_⟩, rfl⟩
  · exact row.modifyMessage_unfinished message.messageId _
  · unfold AgentSessionLiveSnapshot.activeId
    rw [hactive]
    rfl
  · intro _
    refine ⟨?_, ?_⟩
    · intro record hrecord
      cases hrecord
      exact ⟨user, _, rfl, huser, hassistant, hne⟩
    · intro record hrecord other hmem
      cases hrecord
      rw [hids]
      have hknown := hsane.known _ hactive
      rcases List.mem_cons.mp hmem with hold | hmem
      · rw [hold]
        exact hknown user List.mem_cons_self
      · rw [List.mem_singleton.mp hmem]
        exact hknown message (List.mem_cons_of_mem _ (List.mem_singleton_self _))

theorem run_finish (turnId : ℕ) (outcome : TurnOutcome)
    (hsane : snapshot.Sane row)
    (h : (LiveOperation.finishLiveTurn turnId outcome).run ok row snapshot = some (stored, next)) :
    snapshot.activeId = some turnId ∧ next.activeId = none ∧ next.Sane stored ∧
      stored.unfinished = row.unfinished.filter (· ≠ turnId) ∧
      stored.messageIds = row.messageIds ∧
      next.session.attachment = snapshot.session.attachment := by
  obtain ⟨change, hcheck, hcommit, hnext⟩ := LiveOperation.run_eq_some _ _ _ _ _ _ h
  obtain ⟨message, hmessage, hcheck⟩ := Option.map_eq_some_iff.mp hcheck
  obtain ⟨turn, user, hactive, hturn, huser, hassistant, hne⟩ :=
    activeAssistantMessage_shaped snapshot turnId message hsane.shaped hmessage
  cases hcheck
  cases hcommit
  rw [LiveChange.finish_write _ snapshot turn user message turnId outcome hactive hne] at hnext
  have hstate : outcome.state ≠ .running := by
    cases outcome with
    | finished stopReason | failed failure => exact nofun
  obtain ⟨hunfinished, hids⟩ := finishAgentTurn_turns row turnId message.messageId outcome.state
    hstate
  rw [hnext]
  refine ⟨?_, rfl, ⟨nofun, nofun⟩, hunfinished, hids, rfl⟩
  unfold AgentSessionLiveSnapshot.activeId
  rw [hactive, ← hturn]
  rfl

theorem run_create (new : NewTurn)
    (h : (LiveOperation.createTurn new).run ok row snapshot = some (stored, next)) :
    snapshot.session.attachment = .attached ∧ snapshot.activeId = none ∧ row.unfinished = [] ∧
      next.activeId = some new.turnId ∧ stored.unfinished = [new.turnId] ∧ next.Sane stored ∧
      stored.messageIds = row.messageIds ++ [new.userMessageId, new.assistantMessageId] ∧
      next.session.attachment = .attached := by
  obtain ⟨change, hcheck, hcommit, hnext⟩ := LiveOperation.run_eq_some _ _ _ _ _ _ h
  obtain ⟨hattached, hcheck⟩ := Option.ite_none_left_eq_some.mp hcheck
  obtain ⟨hnone, hcheck⟩ := Option.ite_none_left_eq_some.mp hcheck
  have hattached : snapshot.session.attachment = .attached := Decidable.not_not.mp hattached
  have hnone : snapshot.activeTurn = none := by simpa using hnone
  cases hcheck
  obtain ⟨⟨other, created⟩, hcreate, heq⟩ := Option.map_eq_some_iff.mp hcommit
  cases heq
  obtain ⟨hrow, hstored, hids⟩ := createAgentTextTurn_turns row _ new created hcreate
  have hne := (Option.ite_none_right_eq_some.mp hcreate).1.2.2
  rw [hnext]
  refine ⟨hattached, ?_, hrow, rfl, hstored, ⟨?_, ?_⟩, hids, hattached⟩
  · unfold AgentSessionLiveSnapshot.activeId
    rw [hnone]
    rfl
  · intro record hrecord
    cases hrecord
    exact ⟨new.userMessage, new.assistantMessage, rfl, rfl, rfl, hne⟩
  · intro record hrecord message hmem
    cases hrecord
    rw [hids]
    apply List.mem_append_right
    simp only [List.mem_cons, List.not_mem_nil, or_false] at hmem ⊢
    rcases hmem with huser | hassistant
    · rw [huser]
      exact .inl rfl
    · rw [hassistant]
      exact .inr rfl

end

theorem activeAssistantMessage_of_activeId (snapshot : AgentSessionLiveSnapshot) (turnId : ℕ)
    (hshape : snapshot.Shaped) (h : snapshot.activeId = some turnId) :
    ∃ record message, snapshot.activeTurn = some record ∧ message ∈ record.messages ∧
      activeAssistantMessage snapshot turnId = some message := by
  obtain ⟨record, hrecord, hid⟩ := Option.map_eq_some_iff.mp h
  obtain ⟨user, message, hmessages, huser, hassistant, -⟩ := hshape record hrecord
  refine ⟨record, message, hrecord, by simp [hmessages], ?_⟩
  unfold activeAssistantMessage
  rw [hrecord, Option.filter_some, if_pos (by simpa using hid), Option.bind_some, hmessages]
  simp [huser, hassistant]

theorem run_finish_isSome (row : StoredSession) (snapshot : AgentSessionLiveSnapshot) (turnId : ℕ)
    (outcome : TurnOutcome) (hsane : snapshot.Sane row) (h : snapshot.activeId = some turnId) :
    ((LiveOperation.finishLiveTurn turnId outcome).run true row snapshot).isSome := by
  obtain ⟨record, message, -, -, hmessage⟩ :=
    activeAssistantMessage_of_activeId snapshot turnId hsane.shaped h
  simp [LiveOperation.run, LiveOperation.check, hmessage, LiveChange.commit]

theorem run_chunk_isSome (row : StoredSession) (snapshot : AgentSessionLiveSnapshot) (turnId : ℕ)
    (text : String) (hsane : snapshot.Sane row) (h : snapshot.activeId = some turnId) :
    ((LiveOperation.applyAgentTextChunk turnId text).run true row snapshot).isSome := by
  obtain ⟨record, message, hrecord, hmem, hmessage⟩ :=
    activeAssistantMessage_of_activeId snapshot turnId hsane.shaped h
  have hknown := (row.mem_messageIds message.messageId).mp (hsane.known record hrecord message hmem)
  have hchunk : (appendAgentTextChunk row message.messageId text).isSome := by
    unfold appendAgentTextChunk
    rw [if_pos hknown]
    rfl
  simp [LiveOperation.run, LiveOperation.check, hmessage, LiveChange.commit, hchunk]

structure NewTurn.Fresh (new : NewTurn) (row : StoredSession) : Prop where
  turn : ∀ turn ∈ row.turns, turn.clientRequestId ≠ new.clientRequestId ∧
    turn.turn.turnId ≠ new.turnId
  messages : ∀ message ∈ row.messages, message.messageId ≠ new.userMessageId ∧
    message.messageId ≠ new.assistantMessageId
  different : new.userMessageId ≠ new.assistantMessageId

theorem run_create_isSome (row : StoredSession) (snapshot : AgentSessionLiveSnapshot) (new : NewTurn)
    (hattached : snapshot.session.attachment = .attached) (hactive : snapshot.activeTurn = none)
    (hrow : row.unfinished = []) (hfresh : new.Fresh row) :
    ((LiveOperation.createTurn new).run true row snapshot).isSome := by
  have hfits : new.fits row := by
    refine ⟨fun turn hmem => ?_, hfresh.messages, hfresh.different⟩
    obtain ⟨hclient, hid⟩ := hfresh.turn turn hmem
    refine ⟨hclient, hid, ?_⟩
    rw [← Bool.not_eq_true]
    intro hunfinished
    have hin : turn.turn.turnId ∈ row.unfinished :=
      List.mem_map_of_mem (List.mem_filter.mpr ⟨hmem, hunfinished⟩)
    rw [hrow] at hin
    cases hin
  simp [LiveOperation.run, LiveOperation.check, hattached, hactive, LiveChange.commit,
    createAgentTextTurn, hfits]

def PromptCall.prompting (index : ℕ) : PromptCall → Option ℕ
  | .prompt at_ turnId => if at_ = index then some turnId else none
  | .finish _ _ => none

def PromptCall.failing (index : ℕ) : PromptCall → Option ℕ
  | .prompt _ _ => none
  | .finish at_ turnId => if at_ = index then some turnId else none

def PromptCall.index : PromptCall → ℕ
  | .prompt index _ => index
  | .finish index _ => index

def AgentRuntimeEvent.finished : AgentRuntimeEvent → Option ℕ
  | promptFinished turnId _ => some turnId
  | promptFailed turnId _ => some turnId
  | _ => none

def Prompting.turns : Prompting → List ℕ
  | idle => []
  | executing turnId => [turnId]
  | answered turnId _ => [turnId]

def ExitLast : List AgentRuntimeEvent → Prop
  | [] => True
  | .exited _ :: rest => rest.filterMap (·.finished) = []
  | _ :: rest => ExitLast rest

def RuntimeConsumer.exiting : RuntimeConsumer → Bool
  | finishing _ _ => true
  | applying _ => true
  | removing _ => true
  | _ => false

def AgentRuntime.finished (runtime : AgentRuntime) : List ℕ :=
  runtime.queue.filterMap (·.finished)

def AgentRuntime.hasExit (runtime : AgentRuntime) : Prop := ∃ message, .exited message ∈ runtime.queue

/-- While the task runs the active turn is in one hand; after it, one of those that are answered
may still be in the queue. -/
structure AgentRuntime.Kept (row : StoredSession) (prompting failing : List ℕ)
    (runtime : AgentRuntime) : Prop where
  sane : runtime.snapshot.Sane row
  stored : ∀ turnId, runtime.snapshot.activeId = some turnId → turnId ∈ row.unfinished
  running : runtime.task = .running →
    prompting ++ runtime.commands ++ runtime.prompting.turns ++ runtime.finished =
      runtime.snapshot.activeId.toList ∧ failing = []
  ended : runtime.task ≠ .running → runtime.commands = [] ∧ runtime.prompting = .idle ∧
    (runtime.finished = [] ∨ runtime.finished = runtime.snapshot.activeId.toList ∧
      prompting = [] ∧ failing = [])
  exitLast : ExitLast runtime.queue
  early : runtime.task ≠ .exited → ¬ runtime.hasExit ∧ runtime.consumer.exiting = false
  exiting : runtime.consumer.exiting = true → runtime.finished = []

structure AgentRuntime.Attached (row : StoredSession) (runtime : AgentRuntime) : Prop where
  consumer : runtime.consumer ≠ .stopped
  active : ∀ turnId ∈ row.unfinished, runtime.snapshot.activeId = some turnId
  exit : runtime.task = .exited → runtime.hasExit ∨ runtime.consumer.exiting = true
  attached : (∀ ok, runtime.consumer ≠ .removing ok) →
    runtime.snapshot.session.attachment = .attached
  detached : ∀ ok, runtime.consumer = .removing ok →
    runtime.snapshot.session.attachment ≠ .attached

structure AgentRuntime.Removed (runtime : AgentRuntime) : Prop where
  detached : runtime.snapshot.session.attachment ≠ .attached
  task : runtime.task = .exited
  finished : runtime.finished = []

def RunningSession.prompting (session : RunningSession) (index : ℕ) : List ℕ :=
  session.calls.filterMap (·.prompting index)

def RunningSession.failing (session : RunningSession) (index : ℕ) : List ℕ :=
  session.calls.filterMap (·.failing index)

structure RunningSession.Kept (session : RunningSession) : Prop where
  calls : ∀ call ∈ session.calls, call.index < session.runtimes.length
  each : ∀ index (runtime : AgentRuntime), session.runtimes[index]? = some runtime →
    runtime.Kept session.row (session.prompting index) (session.failing index)
  older : ∀ index runtime, session.runtimes[index]? = some runtime →
    index + 1 < session.runtimes.length → runtime.snapshot.activeId = none
  removed : ∀ index runtime, session.runtimes[index]? = some runtime →
    session.current ≠ some index → runtime.Removed
  current : ∀ index, session.current = some index → index + 1 = session.runtimes.length ∧
    ∃ runtime, session.runtimes[index]? = some runtime ∧ runtime.Attached session.row

theorem AgentRuntime.Kept.of_row {row stored : StoredSession} {prompting failing : List ℕ}
    {runtime : AgentRuntime} (h : runtime.Kept row prompting failing)
    (hids : row.messageIds ⊆ stored.messageIds)
    (hstored : ∀ turnId, runtime.snapshot.activeId = some turnId → turnId ∈ stored.unfinished) :
    runtime.Kept stored prompting failing := by
  refine { h with sane := ⟨h.sane.shaped, ?_⟩, stored := hstored }
  intro record hrecord message hmem
  exact hids (h.sane.known record hrecord message hmem)

theorem RunningSession.Kept.set {session : RunningSession} (h : session.Kept) (index : ℕ)
    (runtime next : AgentRuntime) (row : StoredSession) (calls : List PromptCall)
    (hruntime : session.runtimes[index]? = some runtime)
    (hids : session.row.messageIds ⊆ row.messageIds)
    (hunfinished : row.unfinished = session.row.unfinished ∨ index + 1 = session.runtimes.length)
    (hcalls : ∀ call ∈ calls, call ∈ session.calls ∨ call.index = index)
    (hothers : ∀ other, other ≠ index →
      calls.filterMap (·.prompting other) = session.prompting other ∧
      calls.filterMap (·.failing other) = session.failing other)
    (hnext : next.Kept row (calls.filterMap (·.prompting index))
      (calls.filterMap (·.failing index)))
    (hactive : runtime.snapshot.activeId = none → index + 1 = session.runtimes.length ∨
      next.snapshot.activeId = none)
    (hremoved : session.current ≠ some index → next.Removed)
    (hcurrent : session.current = some index → next.Attached row) :
    (RunningSession.set { session with row := row, calls := calls } index next).Kept := by
  obtain ⟨hlt, -⟩ := List.getElem?_eq_some_iff.mp hruntime
  have hself : (session.runtimes.set index next)[index]? = some next := List.getElem?_set_self hlt
  have hother : ∀ other, other ≠ index →
      (session.runtimes.set index next)[other]? = session.runtimes[other]? := by
    intro other hne
    exact List.getElem?_set_ne (Ne.symm hne)
  -- the other runtimes have no active turn where the turns of the row are changed
  have hlast : ∀ other found, other ≠ index → session.runtimes[other]? = some found →
      row.unfinished = session.row.unfinished ∨ found.snapshot.activeId = none := by
    intro other found hne hfound
    refine hunfinished.imp_right fun hlast => ?_
    obtain ⟨hother, -⟩ := List.getElem?_eq_some_iff.mp hfound
    exact h.older other found hfound (by omega)
  refine ⟨?_, ?_, ?_, ?_, ?_⟩
  · intro call hmem
    show call.index < (session.runtimes.set index next).length
    rw [List.length_set]
    rcases hcalls call hmem with hold | heq
    · exact h.calls call hold
    · rw [heq]
      exact hlt
  · intro other found hfound
    by_cases hne : other = index
    · rw [hne] at hfound ⊢
      rw [show (session.runtimes.set index next)[index]? = some found from hfound] at hself
      cases hself
      exact hnext
    · have hold : session.runtimes[other]? = some found := (hother other hne).symm.trans hfound
      have hkept := h.each other found hold
      rw [← (hothers other hne).1, ← (hothers other hne).2] at hkept
      refine hkept.of_row hids ?_
      intro turnId heq
      rcases hlast other found hne hold with hsame | hnone
      · show turnId ∈ row.unfinished
        rw [hsame]
        exact hkept.stored turnId heq
      · rw [hnone] at heq
        cases heq
  · intro other found hfound hle
    have hle : other + 1 < (session.runtimes.set index next).length := hle
    rw [List.length_set] at hle
    by_cases hne : other = index
    · rw [hne] at hfound hle
      rw [show (session.runtimes.set index next)[index]? = some found from hfound] at hself
      cases hself
      exact (hactive (h.older index runtime hruntime hle)).resolve_left (by omega)
    · exact h.older other found ((hother other hne).symm.trans hfound) hle
  · intro other found hfound hnot
    by_cases hne : other = index
    · rw [hne] at hfound hnot
      rw [show (session.runtimes.set index next)[index]? = some found from hfound] at hself
      cases hself
      exact hremoved hnot
    · exact h.removed other found ((hother other hne).symm.trans hfound) hnot
  · intro other heq
    obtain ⟨hlength, found, hfound, hattached⟩ := h.current other heq
    refine ⟨?_, ?_⟩
    · show other + 1 = (session.runtimes.set index next).length
      rw [List.length_set]
      exact hlength
    · by_cases hne : other = index
      · rw [hne] at heq ⊢
        exact ⟨next, hself, hcurrent heq⟩
      · refine ⟨found, (hother other hne).trans hfound, { hattached with active := ?_ }⟩
        have hsame : row.unfinished = session.row.unfinished := by
          refine hunfinished.resolve_right fun hlast => hne ?_
          omega
        rw [show (RunningSession.set { session with row := row, calls := calls } index
          next).row.unfinished = session.row.unfinished from hsame]
        exact hattached.active

theorem only_of_append (before after : List ℕ) (turnId : ℕ) (active : Option ℕ)
    (h : before ++ turnId :: after = active.toList) :
    before = [] ∧ after = [] ∧ active = some turnId := by
  cases active with
  | none => simp at h
  | some other =>
    cases before with
    | nil =>
      simp only [List.nil_append, Option.toList_some, List.cons.injEq] at h
      exact ⟨rfl, h.2, by rw [h.1]⟩
    | cons first before => simp at h

theorem exitLast_of_finished (queue : List AgentRuntimeEvent)
    (h : queue.filterMap (·.finished) = []) : ExitLast queue := by
  induction queue with
  | nil => trivial
  | cons event queue ih =>
    have hrest : queue.filterMap (·.finished) = [] := by
      rw [List.filterMap_eq_nil_iff] at h ⊢
      exact fun other hmem => h other (List.mem_cons_of_mem _ hmem)
    cases event with
    | exited message => exact hrest
    | agentTextChunk turnId text | usage usage | configOptions options
    | promptFinished turnId stopReason | promptFailed turnId message => exact ih hrest

theorem ExitLast.tail (event : AgentRuntimeEvent) (queue : List AgentRuntimeEvent)
    (h : ExitLast (event :: queue)) : ExitLast queue := by
  cases event with
  | exited message => exact exitLast_of_finished queue h
  | agentTextChunk turnId text | usage usage | configOptions options
  | promptFinished turnId stopReason | promptFailed turnId message => exact h

theorem ExitLast.snoc (queue : List AgentRuntimeEvent) (event : AgentRuntimeEvent)
    (h : ExitLast queue) (hevent : event.finished = none) : ExitLast (queue ++ [event]) := by
  induction queue with
  | nil =>
    apply exitLast_of_finished
    rw [List.nil_append, List.filterMap_cons_none hevent]
    rfl
  | cons first queue ih =>
    cases first with
    | exited message =>
      show (queue ++ [event]).filterMap (·.finished) = []
      rw [List.filterMap_append, List.filterMap_cons_none hevent, show queue.filterMap _ = [] from h]
      rfl
    | agentTextChunk turnId text | usage usage | configOptions options
    | promptFinished turnId stopReason | promptFailed turnId message => exact ih h

theorem exitLast_snoc_of_not_mem (queue : List AgentRuntimeEvent) (event : AgentRuntimeEvent)
    (h : ∀ message, .exited message ∉ queue) : ExitLast (queue ++ [event]) := by
  induction queue with
  | nil =>
    cases event with
    | exited message => exact rfl
    | _ => trivial
  | cons first queue ih =>
    have hrest := ih fun message hmem => h message (List.mem_cons_of_mem _ hmem)
    cases first with
    | exited message => exact absurd List.mem_cons_self (h message)
    | agentTextChunk turnId text | usage usage | configOptions options
    | promptFinished turnId stopReason | promptFailed turnId message => exact hrest

section
variable {row : StoredSession} {prompting failing : List ℕ} {runtime next : AgentRuntime}

structure TaskResult (row : StoredSession) (prompting failing : List ℕ)
    (runtime next : AgentRuntime) : Prop where
  kept : next.Kept row prompting failing
  snapshot : next.snapshot = runtime.snapshot
  consumer : next.consumer = runtime.consumer
  exit : next.task = .exited → runtime.task ≠ .exited → next.hasExit
  hasExit : runtime.hasExit → next.hasExit
  ended : runtime.task = .exited → next.task = .exited ∧ next.finished = runtime.finished

theorem AgentRuntime.Kept.queue (h : runtime.Kept row prompting failing) (event : AgentRuntimeEvent)
    (handlers : List ℕ) (hevent : event.finished = none)
    (hexit : ∀ message, event ≠ .exited message) :
    TaskResult row prompting failing runtime
      { runtime with handlers := handlers, queue := runtime.queue ++ [event] } := by
  have hfinished : AgentRuntime.finished
      { runtime with handlers := handlers, queue := runtime.queue ++ [event] } =
      runtime.finished := by
    unfold AgentRuntime.finished
    rw [List.filterMap_append, List.filterMap_cons_none hevent]
    exact List.append_nil _
  refine ⟨⟨h.sane, h.stored, ?_, ?_, h.exitLast.snoc _ _ hevent, ?_, ?_⟩, rfl, rfl,
    fun heq hne => absurd heq hne, ?_, fun heq => ⟨heq, hfinished⟩⟩
  · rw [hfinished]
    exact h.running
  · rw [hfinished]
    exact h.ended
  · intro hne
    obtain ⟨hno, hwaits⟩ := h.early hne
    refine ⟨?_, hwaits⟩
    intro hhas
    obtain ⟨message, hmem⟩ := hhas
    rcases List.mem_append.mp hmem with hmem | hmem
    · exact hno ⟨message, hmem⟩
    · exact hexit message (List.mem_singleton.mp hmem).symm
  · rw [hfinished]
    exact h.exiting
  · intro hhas
    obtain ⟨message, hmem⟩ := hhas
    exact ⟨message, List.mem_append_left _ hmem⟩

theorem TaskResult.of_same (hkept : next.Kept row prompting failing)
    (hsnapshot : next.snapshot = runtime.snapshot) (hconsumer : next.consumer = runtime.consumer)
    (htask : next.task = runtime.task) (hqueue : next.queue = runtime.queue) :
    TaskResult row prompting failing runtime next := by
  refine ⟨hkept, hsnapshot, hconsumer, ?_, ?_, ?_⟩
  · exact fun heq hne => absurd (htask.symm.trans heq) hne
  · unfold AgentRuntime.hasExit
    rw [hqueue]
    exact id
  · unfold AgentRuntime.finished
    rw [htask, hqueue]
    exact fun heq => ⟨heq, rfl⟩

section
variable (h : runtime.Kept row prompting failing)
include h

theorem AgentRuntime.Kept.running_of_busy
    (hbusy : runtime.commands ≠ [] ∨ runtime.prompting ≠ .idle) : runtime.task = .running := by
  by_contra hne
  obtain ⟨hcommands, hprompting, -⟩ := h.ended hne
  rcases hbusy with hbusy | hbusy
  · exact hbusy hcommands
  · exact hbusy hprompting

theorem AgentRuntime.Kept.not_exiting (hne : runtime.task ≠ .exited) :
    runtime.consumer.exiting ≠ true := by
  rw [(h.early hne).2]
  exact nofun

theorem AgentRuntime.Kept.takeCommand (turnId : ℕ) (commands : List ℕ)
    (hcommands : runtime.commands = turnId :: commands) (hprompting : runtime.prompting = .idle) :
    TaskResult row prompting failing runtime
      { runtime with commands := commands, prompting := .executing turnId } := by
  have hrunning := h.running_of_busy (.inl (by rw [hcommands]; exact List.cons_ne_nil _ _))
  obtain ⟨hhand, hfailing⟩ := h.running hrunning
  rw [hcommands, hprompting] at hhand
  obtain ⟨hbefore, hafter, hactive⟩ := only_of_append prompting _ turnId _
    (by simpa [Prompting.turns] using hhand)
  obtain ⟨hcommands, hfinished⟩ := List.append_eq_nil_iff.mp hafter
  refine .of_same ⟨h.sane, h.stored, fun _ => ⟨?_, hfailing⟩, fun hne => absurd hrunning hne,
    h.exitLast, h.early, h.exiting⟩ rfl rfl rfl rfl
  show prompting ++ commands ++ [turnId] ++ runtime.finished = runtime.snapshot.activeId.toList
  rw [hbefore, hcommands, hfinished, hactive]
  rfl

theorem AgentRuntime.Kept.queueAnswer (turnId : ℕ) (answer : Except String AgentStopReason)
    (hprompting : runtime.prompting = .answered turnId answer) :
    TaskResult row prompting failing runtime { runtime with
      prompting := .idle
      queue := runtime.queue ++ [RunningSession.answerEvent turnId answer] } := by
  have hrunning := h.running_of_busy (.inr (by rw [hprompting]; exact nofun))
  have hne : runtime.task ≠ .exited := by
    rw [hrunning]
    exact nofun
  obtain ⟨hno, hwaits⟩ := h.early hne
  obtain ⟨hhand, hfailing⟩ := h.running hrunning
  rw [hprompting] at hhand
  obtain ⟨hbefore, hfinished, hactive⟩ := only_of_append (prompting ++ runtime.commands)
    runtime.finished turnId _ (by simpa [Prompting.turns] using hhand)
  obtain ⟨hprompts, hcommands⟩ := List.append_eq_nil_iff.mp hbefore
  have hevent : (RunningSession.answerEvent turnId answer).finished = some turnId := by
    cases answer with
    | ok stopReason | error message => rfl
  have hqueued : (runtime.queue ++ [RunningSession.answerEvent turnId answer]).filterMap
      (·.finished) = [turnId] := by
    rw [List.filterMap_append, List.filterMap_cons_some hevent,
      show runtime.queue.filterMap _ = [] from hfinished]
    rfl
  have hexit : ∀ message, .exited message ∉
      runtime.queue ++ [RunningSession.answerEvent turnId answer] := by
    intro message hmem
    rcases List.mem_append.mp hmem with hmem | hmem
    · exact hno ⟨message, hmem⟩
    · rw [← List.mem_singleton.mp hmem] at hevent
      cases hevent
  refine ⟨⟨h.sane, h.stored, fun _ => ⟨?_, hfailing⟩, fun hne => absurd hrunning hne, ?_, ?_, ?_⟩,
    rfl, rfl, fun heq => absurd heq hne, fun hhas => absurd hhas hno, fun heq => absurd heq hne⟩
  · show prompting ++ runtime.commands ++ [] ++ (runtime.queue ++
      [RunningSession.answerEvent turnId answer]).filterMap (·.finished) =
        runtime.snapshot.activeId.toList
    rw [hqueued, hprompts, hcommands, hactive]
    rfl
  · exact exitLast_snoc_of_not_mem _ _ fun message hmem => hno ⟨message, hmem⟩
  · exact fun _ => ⟨fun hhas => hexit _ hhas.choose_spec, hwaits⟩
  · exact fun hexiting => absurd hexiting (h.not_exiting hne)

theorem AgentRuntime.Kept.endTask (message : Option String) (hrunning : runtime.task = .running) :
    TaskResult row prompting failing runtime { runtime with
      task := .ended message, commands := [], prompting := .idle } := by
  have hne : runtime.task ≠ .exited := by
    rw [hrunning]
    exact nofun
  obtain ⟨hhand, hfailing⟩ := h.running hrunning
  refine ⟨⟨h.sane, h.stored, nofun, fun _ => ⟨rfl, rfl, ?_⟩, h.exitLast, fun _ => h.early hne,
    h.exiting⟩, rfl, rfl, nofun, id, fun heq => absurd heq hne⟩
  show runtime.finished = [] ∨ runtime.finished = runtime.snapshot.activeId.toList ∧
    prompting = [] ∧ failing = []
  cases hfinished : runtime.finished with
  | nil => exact .inl rfl
  | cons turnId rest =>
    rw [hfinished] at hhand
    obtain ⟨hbefore, hafter, hactive⟩ := only_of_append _ _ _ _ hhand
    obtain ⟨hbefore, -⟩ := List.append_eq_nil_iff.mp hbefore
    obtain ⟨hprompts, -⟩ := List.append_eq_nil_iff.mp hbefore
    rw [hactive, hafter]
    exact .inr ⟨rfl, hprompts, hfailing⟩

theorem AgentRuntime.Kept.queueExit (message : Option String) (hended : runtime.task = .ended message) :
    TaskResult row prompting failing runtime { runtime with
      task := .exited, queue := runtime.queue ++ [.exited message] } := by
  have hne : runtime.task ≠ .exited := by
    rw [hended]
    exact nofun
  have hnot : runtime.task ≠ .running := by
    rw [hended]
    exact nofun
  have hno := (h.early hne).1
  have hfinished : (runtime.queue ++ [AgentRuntimeEvent.exited message]).filterMap (·.finished) =
      runtime.finished := by
    rw [List.filterMap_append]
    exact List.append_nil _
  have hhas : ∃ other, .exited other ∈ runtime.queue ++ [.exited message] :=
    ⟨message, List.mem_append_right _ (List.mem_singleton_self _)⟩
  refine ⟨⟨h.sane, h.stored, nofun, fun _ => ?_, ?_, fun hne => absurd rfl hne,
    fun hexiting => absurd hexiting (h.not_exiting hne)⟩, rfl, rfl, fun _ _ => hhas, fun _ => hhas,
    fun heq => absurd heq hne⟩
  · unfold AgentRuntime.finished
    rw [hfinished]
    exact h.ended hnot
  · exact exitLast_snoc_of_not_mem _ _ fun other hmem => hno ⟨other, hmem⟩

theorem AgentRuntime.Kept.task (step : RunningSession.TaskStep)
    (hstep : RunningSession.taskStep runtime step = some next) :
    TaskResult row prompting failing runtime next := by
  cases step with
  | takeCommand =>
    dsimp only [RunningSession.taskStep] at hstep
    split at hstep
    · next turnId commands hcommands hprompting =>
      cases hstep
      exact h.takeCommand turnId commands hcommands hprompting
    · cases hstep
  | notify =>
    dsimp only [RunningSession.taskStep] at hstep
    split at hstep
    · cases hstep
      exact .of_same ⟨h.sane, h.stored, h.running, h.ended, h.exitLast, h.early, h.exiting⟩ rfl rfl
        rfl rfl
    · cases hstep
  | queueChunk handler text =>
    obtain ⟨turnId, -, hnext⟩ := Option.map_eq_some_iff.mp hstep
    rw [← hnext]
    exact h.queue (.agentTextChunk turnId text) _ rfl nofun
  | queueUsage usage =>
    obtain ⟨-, hstep⟩ := Option.ite_none_right_eq_some.mp hstep
    cases hstep
    exact h.queue (.usage usage) _ rfl nofun
  | queueConfigOptions options =>
    obtain ⟨-, hstep⟩ := Option.ite_none_right_eq_some.mp hstep
    cases hstep
    exact h.queue (.configOptions options) _ rfl nofun
  | answer answer =>
    dsimp only [RunningSession.taskStep] at hstep
    split at hstep
    · next turnId hprompting =>
      cases hstep
      have hrunning := h.running_of_busy (.inr (by rw [hprompting]; exact nofun))
      have hhand := h.running hrunning
      rw [hprompting] at hhand
      exact .of_same ⟨h.sane, h.stored, fun _ => hhand, fun hne => absurd hrunning hne, h.exitLast,
        h.early, h.exiting⟩ rfl rfl rfl rfl
    · cases hstep
  | queueAnswer =>
    dsimp only [RunningSession.taskStep] at hstep
    split at hstep
    · next turnId answer hprompting =>
      cases hstep
      exact h.queueAnswer turnId answer hprompting
    · cases hstep
  | endTask message =>
    dsimp only [RunningSession.taskStep] at hstep
    split at hstep
    · cases hstep
    · next hrunning _ =>
      cases hstep
      exact h.endTask message hrunning
    · cases hstep
  | queueExit =>
    dsimp only [RunningSession.taskStep] at hstep
    split at hstep
    · next message hended =>
      cases hstep
      exact h.queueExit message hended
    · cases hstep

end

theorem TaskResult.attached (hresult : TaskResult row prompting failing runtime next)
    (h : runtime.Attached row) : next.Attached row := by
  refine ⟨?_, ?_, ?_, ?_, ?_⟩
  · rw [hresult.consumer]
    exact h.consumer
  · rw [hresult.snapshot]
    exact h.active
  · intro heq
    by_cases hexited : runtime.task = .exited
    · rw [hresult.consumer]
      exact (h.exit hexited).imp_left hresult.hasExit
    · exact .inl (hresult.exit heq hexited)
  · rw [hresult.snapshot, hresult.consumer]
    exact h.attached
  · rw [hresult.snapshot, hresult.consumer]
    exact h.detached

theorem TaskResult.removed (hresult : TaskResult row prompting failing runtime next)
    (h : runtime.Removed) : next.Removed := by
  obtain ⟨htask, hfinished⟩ := hresult.ended h.task
  refine ⟨?_, htask, hfinished.trans h.finished⟩
  rw [hresult.snapshot]
  exact h.detached

theorem AgentRuntime.Kept.pop (h : runtime.Kept row prompting failing) (event : AgentRuntimeEvent)
    (queue : List AgentRuntimeEvent) (hqueue : runtime.queue = event :: queue)
    (hevent : event.finished = none) (consumer : RuntimeConsumer)
    (hexiting : consumer.exiting = true → queue.filterMap (·.finished) = [] ∧
      runtime.task = .exited) :
    AgentRuntime.Kept row prompting failing
      { runtime with queue := queue, consumer := consumer } := by
  have hfinished : runtime.finished = queue.filterMap (·.finished) := by
    unfold AgentRuntime.finished
    rw [hqueue, List.filterMap_cons_none hevent]
  have hrunning := h.running
  have hended := h.ended
  have hlast := h.exitLast
  rw [hfinished] at hrunning hended
  rw [hqueue] at hlast
  refine ⟨h.sane, h.stored, hrunning, hended, hlast.tail, ?_, fun heq => (hexiting heq).1⟩
  intro hne
  refine ⟨?_, ?_⟩
  · intro hhas
    obtain ⟨message, hmem⟩ := hhas
    refine (h.early hne).1 ⟨message, ?_⟩
    rw [hqueue]
    exact List.mem_cons_of_mem _ hmem
  · cases heq : consumer.exiting with
    | false => rfl
    | true => exact absurd (hexiting heq).2 hne

section
variable (h : runtime.Kept row prompting failing) (stored : StoredSession)
  (snapshot : AgentSessionLiveSnapshot)
include h stored snapshot

theorem AgentRuntime.Kept.same (hsame : SameTurns row runtime.snapshot stored snapshot) :
    AgentRuntime.Kept stored prompting failing { runtime with snapshot := snapshot } := by
  refine ⟨hsame.sane h.sane, ?_, ?_, ?_, h.exitLast, h.early, h.exiting⟩
  · rw [hsame.active, hsame.unfinished]
    exact h.stored
  · rw [hsame.active]
    exact h.running
  · rw [hsame.active]
    exact h.ended

theorem AgentRuntime.Kept.finish (queue : List AgentRuntimeEvent)
    (consumer : RuntimeConsumer) (failing' : List ℕ) (hsane : snapshot.Sane stored)
    (hactive : snapshot.activeId = none) (hqueue : queue.filterMap (·.finished) = [])
    (hlast : ExitLast queue) (hhas : ∀ message, .exited message ∈ queue → runtime.hasExit)
    (hexiting : consumer.exiting = true → runtime.task = .exited)
    (hrunning : runtime.task = .running → prompting = [] ∧ runtime.commands = [] ∧
      runtime.prompting.turns = [] ∧ failing' = []) :
    AgentRuntime.Kept stored prompting failing'
      { runtime with snapshot := snapshot, queue := queue, consumer := consumer } := by
  refine ⟨hsane, ?_, ?_, ?_, hlast, ?_, fun _ => hqueue⟩
  · intro turnId heq
    rw [show snapshot.activeId = some turnId from heq] at hactive
    cases hactive
  · intro hrun
    obtain ⟨hprompts, hcommands, hturns, hfailing⟩ := hrunning hrun
    refine ⟨?_, hfailing⟩
    show prompting ++ runtime.commands ++ runtime.prompting.turns ++ queue.filterMap (·.finished) =
      snapshot.activeId.toList
    rw [hprompts, hcommands, hturns, hqueue, hactive]
    rfl
  · intro hne
    obtain ⟨hcommands, hprompting, -⟩ := h.ended hne
    exact ⟨hcommands, hprompting, .inl hqueue⟩
  · intro hne
    refine ⟨?_, ?_⟩
    · intro hold
      obtain ⟨message, hmem⟩ := hold
      exact (h.early hne).1 (hhas message hmem)
    · cases heq : consumer.exiting with
      | false => rfl
      | true => exact absurd (hexiting heq) hne

end

theorem AgentRuntime.Attached.finish (h : runtime.Attached row) (stored : StoredSession)
    (snapshot : AgentSessionLiveSnapshot) (queue : List AgentRuntimeEvent)
    (consumer : RuntimeConsumer) (turnId : ℕ) (hactive : runtime.snapshot.activeId = some turnId)
    (hstored : stored.unfinished = row.unfinished.filter (· ≠ turnId))
    (hattachment : snapshot.session.attachment = runtime.snapshot.session.attachment)
    (hstopped : consumer ≠ .stopped) (hremoving : ∀ ok, consumer ≠ .removing ok)
    (hold : ∀ ok, runtime.consumer ≠ .removing ok)
    (hexit : runtime.task = .exited → (∃ message, .exited message ∈ queue) ∨
      consumer.exiting = true) :
    AgentRuntime.Attached stored
      { runtime with snapshot := snapshot, queue := queue, consumer := consumer } := by
  refine ⟨hstopped, ?_, hexit, ?_, fun ok heq => absurd heq (hremoving ok)⟩
  · intro other hmem
    rw [hstored] at hmem
    obtain ⟨hmem, hne⟩ := List.mem_filter.mp hmem
    have heq := h.active other hmem
    rw [hactive] at heq
    cases heq
    exact absurd rfl (of_decide_eq_true hne)
  · intro _
    rw [hattachment]
    exact h.attached hold

end

theorem filterMap_split (f : PromptCall → Option ℕ) (before after : List PromptCall)
    (call : PromptCall) : (before ++ call :: after).filterMap f =
      before.filterMap f ++ ((f call).toList ++ after.filterMap f) := by
  rw [List.filterMap_append]
  cases hcall : f call with
  | none => rw [List.filterMap_cons_none hcall]; rfl
  | some turnId => rw [List.filterMap_cons_some hcall]; rfl

/-- What a call leaves behind when it is taken out. -/
theorem PromptCall.taken {calls before after : List PromptCall} {call : PromptCall}
    (hsplit : calls = before ++ call :: after) :
    (∀ other ∈ before ++ after, other ∈ calls) ∧ ∀ index, index ≠ call.index →
      (before ++ after).filterMap (·.prompting index) = calls.filterMap (·.prompting index) ∧
      (before ++ after).filterMap (·.failing index) = calls.filterMap (·.failing index) := by
  constructor
  · intro other hmem
    rw [hsplit]
    simp only [List.mem_append, List.mem_cons] at hmem ⊢
    exact hmem.imp_right .inr
  · intro index hne
    rw [hsplit, filterMap_split, filterMap_split, List.filterMap_append, List.filterMap_append]
    cases call with
    | prompt at_ turnId | finish at_ turnId =>
      have hother : ¬ at_ = index := Ne.symm hne
      simp [PromptCall.prompting, PromptCall.failing, hother]

section
variable {session next : RunningSession}

section
variable (h : session.Kept)
include h
variable (index : ℕ)

theorem RunningSession.Kept.length (runtime : AgentRuntime)
    (turnId : ℕ) (hruntime : session.runtimes[index]? = some runtime)
    (hactive : runtime.snapshot.activeId = some turnId) : index + 1 = session.runtimes.length := by
  obtain ⟨hlt, -⟩ := List.getElem?_eq_some_iff.mp hruntime
  by_contra hne
  rw [h.older index runtime hruntime (by omega)] at hactive
  cases hactive

theorem RunningSession.Kept.attached (runtime : AgentRuntime)
    (hruntime : session.runtimes[index]? = some runtime) (hcurrent : session.current = some index) :
    index + 1 = session.runtimes.length ∧ runtime.Attached session.row := by
  obtain ⟨hlength, found, hfound, hattached⟩ := h.current index hcurrent
  rw [hruntime] at hfound
  cases hfound
  exact ⟨hlength, hattached⟩

theorem RunningSession.Kept.setRuntime (runtime next : AgentRuntime)
    (hruntime : session.runtimes[index]? = some runtime)
    (hnext : next.Kept session.row (session.prompting index) (session.failing index))
    (hactive : next.snapshot.activeId = runtime.snapshot.activeId)
    (hremoved : runtime.Removed → next.Removed)
    (hcurrent : session.current = some index → next.Attached session.row) :
    (session.set index next).Kept := by
  refine h.set index runtime next session.row session.calls hruntime (List.Subset.refl _) (.inl rfl)
    (fun _ hmem => .inl hmem) (fun _ _ => ⟨rfl, rfl⟩) hnext ?_ ?_ hcurrent
  · exact fun hnone => .inr (hactive.trans hnone)
  · exact fun hnot => hremoved (h.removed index runtime hruntime hnot)

theorem RunningSession.Kept.task (step : RunningSession.TaskStep)
    (hstep : session.step (.task index step) = some next) : next.Kept := by
  obtain ⟨runtime, hruntime, hstep⟩ := Option.bind_eq_some_iff.mp hstep
  obtain ⟨other, hother, heq⟩ := Option.map_eq_some_iff.mp hstep
  have hresult := (h.each index runtime hruntime).task step hother
  rw [← heq]
  refine h.setRuntime index runtime other hruntime hresult.kept ?_ hresult.removed ?_
  · rw [hresult.snapshot]
  · exact fun hcurrent => hresult.attached (h.attached index runtime hruntime hcurrent).2

theorem RunningSession.Kept.createTurn (new : NewTurn) (ok : Bool)
    (hstep : session.createTurn index new ok = some next) : next.Kept := by
  obtain ⟨runtime, hruntime, hstep⟩ := Option.map_eq_some_iff.mp hstep
  rw [← hstep]
  split
  · rename_i row snapshot hrun
    obtain ⟨hattachment, hnone, -, hactive, hstored, hsane, hids, hattached⟩ :=
      run_create ok _ row _ snapshot new hrun
    have hcurrent : session.current = some index := by
      by_contra hnot
      exact (h.removed index runtime hruntime hnot).detached hattachment
    obtain ⟨hlength, hold⟩ := h.attached index runtime hruntime hcurrent
    have hkept := h.each index runtime hruntime
    have hprompting : (session.calls ++ [PromptCall.prompt index new.turnId]).filterMap
        (·.prompting index) = session.prompting index ++ [new.turnId] := by
      rw [filterMap_split]
      simp [PromptCall.prompting, RunningSession.prompting]
    have hfailing : ∀ other, (session.calls ++ [PromptCall.prompt index new.turnId]).filterMap
        (·.failing other) = session.failing other := by
      intro other
      rw [filterMap_split]
      simp [PromptCall.failing, RunningSession.failing]
    refine h.set index runtime { runtime with snapshot := snapshot } row _ hruntime ?_
      (.inr hlength) ?_ ?_ ?_ (fun _ => .inl hlength) (fun hnot => absurd hcurrent hnot) ?_
    · rw [hids]
      exact List.subset_append_left _ _
    · intro call hmem
      rcases List.mem_append.mp hmem with hmem | hmem
      · exact .inl hmem
      · rw [List.mem_singleton.mp hmem]
        exact .inr rfl
    · intro other hne
      refine ⟨?_, hfailing other⟩
      rw [filterMap_split]
      simp [PromptCall.prompting, RunningSession.prompting, Ne.symm hne]
    · rw [hprompting, hfailing]
      refine ⟨hsane, ?_, ?_, ?_, hkept.exitLast, hkept.early, hkept.exiting⟩
      · intro turnId heq
        rw [show snapshot.activeId = some turnId from heq] at hactive
        cases hactive
        rw [hstored]
        exact List.mem_singleton_self _
      · intro hrunning
        obtain ⟨hhand, hnot⟩ := hkept.running hrunning
        rw [hnone] at hhand
        simp only [Option.toList_none, List.append_eq_nil_iff] at hhand
        obtain ⟨⟨⟨hprompts, hcommands⟩, hturns⟩, hfinished⟩ := hhand
        refine ⟨?_, hnot⟩
        show session.prompting index ++ [new.turnId] ++ runtime.commands ++ runtime.prompting.turns ++
          runtime.finished = snapshot.activeId.toList
        rw [hprompts, hcommands, hturns, hfinished, hactive]
        rfl
      · intro hne
        obtain ⟨hcommands, hidle, hhand⟩ := hkept.ended hne
        refine ⟨hcommands, hidle, .inl ?_⟩
        rcases hhand with hfinished | hhand
        · exact hfinished
        · rw [hnone] at hhand
          exact hhand.1
    · intro _
      refine ⟨hold.consumer, ?_, hold.exit, fun _ => hattached, ?_⟩
      · intro turnId hmem
        rw [hstored] at hmem
        rw [List.mem_singleton.mp hmem]
        exact hactive
      · exact fun ok heq => absurd hattachment (hold.detached ok heq)
  · exact h

theorem RunningSession.Kept.sendPrompt (call : ℕ)
    (hstep : session.sendPrompt call = some next) : next.Kept := by
  unfold RunningSession.sendPrompt at hstep
  split at hstep
  · rename_i index turnId hcall
    obtain ⟨runtime, hruntime, hstep⟩ := Option.map_eq_some_iff.mp hstep
    obtain ⟨before, after, hsplit, -, hset, herase⟩ := Calls.exists_split hcall
    have hkept := h.each index runtime hruntime
    have hprompting : session.prompting index =
        before.filterMap (·.prompting index) ++ turnId :: after.filterMap (·.prompting index) := by
      unfold RunningSession.prompting
      rw [hsplit, filterMap_split]
      simp [PromptCall.prompting]
    have hfailing : session.failing index =
        before.filterMap (·.failing index) ++ after.filterMap (·.failing index) := by
      unfold RunningSession.failing
      rw [hsplit, filterMap_split]
      rfl
    obtain ⟨hcalls, hothers⟩ := PromptCall.taken hsplit
    rw [← hstep]
    by_cases hrunning : runtime.task = .running
    · rw [if_pos hrunning, herase]
      obtain ⟨hhand, hnot⟩ := hkept.running hrunning
      rw [hprompting] at hhand
      simp only [List.append_assoc, List.cons_append] at hhand
      obtain ⟨hbefore, hrest, hactive⟩ := only_of_append _ _ _ _ hhand
      simp only [List.append_eq_nil_iff] at hrest
      obtain ⟨hafter, hcommands, hturns, hfinished⟩ := hrest
      have hkept' : AgentRuntime.Kept session.row [] []
          { runtime with commands := runtime.commands ++ [turnId] } := by
        refine ⟨hkept.sane, hkept.stored, ?_, fun hne => absurd hrunning hne, hkept.exitLast,
          hkept.early, hkept.exiting⟩
        intro _
        refine ⟨?_, rfl⟩
        show [] ++ (runtime.commands ++ [turnId]) ++ runtime.prompting.turns ++ runtime.finished =
          runtime.snapshot.activeId.toList
        rw [hcommands, hturns, hfinished, hactive]
        rfl
      refine h.set index runtime _ session.row _ hruntime (List.Subset.refl _) (.inl rfl)
        (fun other hmem => .inl (hcalls other hmem)) hothers ?_ (fun hnone => .inr hnone) ?_ ?_
      · rw [List.filterMap_append, List.filterMap_append, hbefore, hafter, ← hfailing, hnot]
        exact hkept'
      · intro hcurrent
        have hremoved := h.removed index runtime hruntime hcurrent
        exact ⟨hremoved.detached, hremoved.task, hremoved.finished⟩
      · intro hcurrent
        obtain ⟨-, hold⟩ := h.attached index runtime hruntime hcurrent
        exact ⟨hold.consumer, hold.active, hold.exit, hold.attached, hold.detached⟩
    · rw [if_neg hrunning, hset]
      obtain ⟨hcommands, hidle, hhand⟩ := hkept.ended hrunning
      have hfinished : runtime.finished = [] := by
        refine hhand.resolve_right fun hhand => ?_
        rw [hprompting] at hhand
        simp at hhand
      have hnext : (RunningSession.set { session with
          row := session.row, calls := before ++ PromptCall.finish index turnId :: after } index
            runtime).Kept := by
        refine h.set index runtime runtime session.row _ hruntime (List.Subset.refl _) (.inl rfl)
          ?_ ?_ ?_ (fun hnone => .inr hnone) (h.removed index runtime hruntime)
          (fun hcurrent => (h.attached index runtime hruntime hcurrent).2)
        · intro other hmem
          simp only [List.mem_append, List.mem_cons] at hmem
          rcases hmem with hmem | heq | hmem
          · exact .inl (hcalls other (List.mem_append_left _ hmem))
          · rw [heq]
            exact .inr rfl
          · exact .inl (hcalls other (List.mem_append_right _ hmem))
        · intro other hne
          have hrest := hothers other hne
          unfold RunningSession.prompting RunningSession.failing
          rw [filterMap_split, filterMap_split, ← hrest.1, ← hrest.2]
          simp [PromptCall.prompting, PromptCall.failing, Ne.symm hne]
        · refine ⟨hkept.sane, hkept.stored, fun hrun => absurd hrun hrunning, fun _ => ?_,
            hkept.exitLast, hkept.early, hkept.exiting⟩
          exact ⟨hcommands, hidle, .inl hfinished⟩
      have hsame : session.runtimes.set index runtime = session.runtimes := by
        obtain ⟨hlt, heq⟩ := List.getElem?_eq_some_iff.mp hruntime
        rw [← heq]
        exact List.set_getElem_self hlt
      unfold RunningSession.set at hnext
      rw [hsame] at hnext
      exact hnext
  · cases hstep

theorem RunningSession.Kept.applySame (runtime base : AgentRuntime)
    (row : StoredSession) (snapshot : AgentSessionLiveSnapshot)
    (hruntime : session.runtimes[index]? = some runtime)
    (hbase : base.Kept session.row (session.prompting index) (session.failing index))
    (hsnapshot : base.snapshot = runtime.snapshot)
    (hsame : SameTurns session.row runtime.snapshot row snapshot)
    (hremoved : runtime.Removed → AgentRuntime.Removed { base with snapshot := snapshot })
    (hattached : session.current = some index →
      AgentRuntime.Attached row { base with snapshot := snapshot }) :
    (RunningSession.set { session with row := row } index
      { base with snapshot := snapshot }).Kept := by
  refine h.set index runtime { base with snapshot := snapshot } row session.calls hruntime ?_
    (.inl hsame.unfinished) (fun _ hmem => .inl hmem) (fun _ _ => ⟨rfl, rfl⟩) ?_ ?_ ?_ hattached
  · rw [hsame.messageIds]
    exact List.Subset.refl _
  · rw [← hsnapshot] at hsame
    exact hbase.same row snapshot hsame
  · exact fun hnone => .inr (hsame.active.trans hnone)
  · exact fun hnot => hremoved (h.removed index runtime hruntime hnot)

theorem RunningSession.Kept.failTurn (call : ℕ) (ok : Bool)
    (hstep : session.failTurn call ok = some next) : next.Kept := by
  unfold RunningSession.failTurn at hstep
  split at hstep
  · rename_i index turnId hcall
    obtain ⟨runtime, hruntime, hstep⟩ := Option.map_eq_some_iff.mp hstep
    obtain ⟨before, after, hsplit, -, -, herase⟩ := Calls.exists_split hcall
    have hkept := h.each index runtime hruntime
    have hfailing : session.failing index =
        before.filterMap (·.failing index) ++ turnId :: after.filterMap (·.failing index) := by
      unfold RunningSession.failing
      rw [hsplit, filterMap_split]
      simp [PromptCall.failing]
    have hprompting : session.prompting index =
        before.filterMap (·.prompting index) ++ after.filterMap (·.prompting index) := by
      unfold RunningSession.prompting
      rw [hsplit, filterMap_split]
      rfl
    obtain ⟨hcalls, hothers⟩ := PromptCall.taken hsplit
    have hnot : runtime.task ≠ .running := by
      intro hrunning
      have hnil := (hkept.running hrunning).2
      rw [hfailing] at hnil
      simp at hnil
    obtain ⟨hcommands, hidle, hhand⟩ := hkept.ended hnot
    have hfinished : runtime.finished = [] := by
      refine hhand.resolve_right fun hhand => ?_
      rw [hfailing] at hhand
      simp at hhand
    rw [← hstep, herase]
    unfold RunningSession.apply
    split
    · rename_i row snapshot hrun
      obtain ⟨hactive, hnone, hsane, hstored, hids, hattachment⟩ :=
        run_finish ok _ row _ snapshot turnId _ hkept.sane hrun
      have hlength := h.length index runtime turnId hruntime hactive
      refine h.set index runtime _ row _ hruntime ?_ (.inr hlength)
        (fun other hmem => .inl (hcalls other hmem)) hothers ?_ (fun _ => .inl hlength) ?_ ?_
      · rw [hids]
        exact List.Subset.refl _
      · have hrest : (before ++ after).filterMap (·.prompting index) = session.prompting index := by
          rw [List.filterMap_append, hprompting]
        rw [hrest]
        exact hkept.finish row snapshot runtime.queue runtime.consumer _ hsane hnone hfinished
          hkept.exitLast (fun message hmem => ⟨message, hmem⟩)
          (fun hexiting => by
            by_contra hne
            rw [(hkept.early hne).2] at hexiting
            cases hexiting)
          (fun hrunning => absurd hrunning hnot)
      · intro hcurrent
        have hremoved := h.removed index runtime hruntime hcurrent
        exact ⟨fun heq => hremoved.detached (hattachment.symm.trans heq), hremoved.task, hfinished⟩
      · intro hcurrent
        obtain ⟨-, hold⟩ := h.attached index runtime hruntime hcurrent
        refine ⟨hold.consumer, ?_, hold.exit, ?_, ?_⟩
        · intro other hmem
          rw [hstored] at hmem
          obtain ⟨hmem, hne⟩ := List.mem_filter.mp hmem
          have heq := hold.active other hmem
          rw [hactive] at heq
          cases heq
          exact absurd rfl (of_decide_eq_true hne)
        · exact fun hremoving => hattachment.trans (hold.attached hremoving)
        · exact fun removed heq => fun hattached =>
            hold.detached removed heq (hattachment.symm.trans hattached)
    · refine h.set index runtime runtime session.row _ hruntime (List.Subset.refl _) (.inl rfl)
        (fun other hmem => .inl (hcalls other hmem)) hothers ?_ (fun hnone => .inr hnone)
        (h.removed index runtime hruntime)
        (fun hcurrent => (h.attached index runtime hruntime hcurrent).2)
      exact ⟨hkept.sane, hkept.stored, fun hrun => absurd hrun hnot,
        fun _ => ⟨hcommands, hidle, .inl hfinished⟩, hkept.exitLast, hkept.early, hkept.exiting⟩
  · cases hstep

end

/-- The consumer fails no operation of the attached runtime, and none is attached to a row with an
unfinished turn. -/
def RunningSession.ordinary (session : RunningSession) : RunningStep → Bool
  | .consume index ok => session.current ≠ some index ∨
      (session.runtimes[index]?).all fun runtime => match runtime.queue with
        | .agentTextChunk turnId _ :: _ => ok && runtime.snapshot.activeId = some turnId
        | _ => ok
  | .exit index ok => session.current ≠ some index ∨
      (session.runtimes[index]?).all fun runtime => match runtime.consumer with
        | .applying _ => ok
        | _ => true
  | .attach _ _ => session.row.unfinished = []
  | _ => true

theorem RunningSession.Kept.consumeAnswer (h : session.Kept) (index turnId : ℕ) (ok : Bool)
    (runtime : AgentRuntime) (event : AgentRuntimeEvent) (queue : List AgentRuntimeEvent)
    (outcome : TurnOutcome) (hruntime : session.runtimes[index]? = some runtime)
    (hconsumer : runtime.consumer = .waiting) (hqueue : runtime.queue = event :: queue)
    (hevent : event.finished = some turnId)
    (hok : session.current = some index → ok = true) :
    ∃ row snapshot, (LiveOperation.finishLiveTurn turnId outcome).run ok session.row
        runtime.snapshot = some (row, snapshot) ∧
      (RunningSession.set { session with row := row } index { runtime with
        snapshot := snapshot, queue := queue, consumer := .waiting }).Kept := by
  have hkept := h.each index runtime hruntime
  have hfinished : runtime.finished = turnId :: queue.filterMap (·.finished) := by
    unfold AgentRuntime.finished
    rw [hqueue, List.filterMap_cons_some hevent]
  have hcurrent : session.current = some index := by
    by_contra hnot
    have hnil := (h.removed index runtime hruntime hnot).finished
    rw [hfinished] at hnil
    cases hnil
  obtain ⟨hlength, hattached⟩ := h.attached index runtime hruntime hcurrent
  -- the event is the only hand that the turn is in
  have honly : runtime.snapshot.activeId = some turnId ∧ queue.filterMap (·.finished) = [] ∧
      (runtime.task = .running → session.prompting index = [] ∧ runtime.commands = [] ∧
        runtime.prompting.turns = [] ∧ session.failing index = []) := by
    by_cases hrunning : runtime.task = .running
    · obtain ⟨hhand, hfailing⟩ := hkept.running hrunning
      rw [hfinished] at hhand
      obtain ⟨hbefore, hafter, hactive⟩ := only_of_append _ _ _ _ hhand
      simp only [List.append_eq_nil_iff] at hbefore
      exact ⟨hactive, hafter, fun _ => ⟨hbefore.1.1, hbefore.1.2, hbefore.2, hfailing⟩⟩
    · obtain ⟨-, -, hhand⟩ := hkept.ended hrunning
      rw [hfinished] at hhand
      obtain ⟨hhand, -⟩ := hhand.resolve_left (List.cons_ne_nil _ _)
      obtain ⟨-, hafter, hactive⟩ := only_of_append [] _ turnId _ hhand
      exact ⟨hactive, hafter, fun hrun => absurd hrun hrunning⟩
  obtain ⟨hactive, hrest, hhands⟩ := honly
  have hlast := hkept.exitLast
  rw [hqueue] at hlast
  have hsome := run_finish_isSome session.row runtime.snapshot turnId outcome hkept.sane hactive
  obtain ⟨⟨row, snapshot⟩, hrun⟩ := Option.isSome_iff_exists.mp hsome
  rw [hok hcurrent]
  refine ⟨row, snapshot, hrun, ?_⟩
  obtain ⟨-, hnone, hsane, hstored, hids, hattachment⟩ :=
    run_finish true _ row _ snapshot turnId outcome hkept.sane hrun
  refine h.set index runtime _ row session.calls hruntime ?_ (.inr hlength)
    (fun _ hmem => .inl hmem) (fun _ _ => ⟨rfl, rfl⟩) ?_ (fun _ => .inl hlength)
    (fun hnot => absurd hcurrent hnot) ?_
  · rw [hids]
    exact List.Subset.refl _
  · refine hkept.finish row snapshot queue .waiting _ hsane hnone hrest hlast.tail ?_ nofun hhands
    intro message hmem
    refine ⟨message, ?_⟩
    rw [hqueue]
    exact List.mem_cons_of_mem _ hmem
  · intro _
    have hwaiting : ∀ ok, runtime.consumer ≠ .removing ok := by
      rw [hconsumer]
      exact nofun
    refine hattached.finish row snapshot queue .waiting turnId hactive hstored hattachment nofun
      nofun hwaiting ?_
    intro hexited
    rcases hattached.exit hexited with hhas | hexiting
    · obtain ⟨message, hmem⟩ := hhas
      rw [hqueue] at hmem
      rcases List.mem_cons.mp hmem with heq | hmem
      · rw [← heq] at hevent
        cases hevent
      · exact .inl ⟨message, hmem⟩
    · rw [hconsumer] at hexiting
      cases hexiting

theorem RunningSession.Kept.consumeSame (h : session.Kept) (index : ℕ) (ok : Bool)
    (runtime : AgentRuntime) (event : AgentRuntimeEvent) (queue : List AgentRuntimeEvent)
    (operation : LiveOperation) (hruntime : session.runtimes[index]? = some runtime)
    (hconsumer : runtime.consumer = .waiting) (hqueue : runtime.queue = event :: queue)
    (hevent : event.finished = none) (hexit : ∀ message, event ≠ .exited message)
    (hrun : ∀ row snapshot, operation.run ok session.row runtime.snapshot = some (row, snapshot) →
      SameTurns session.row runtime.snapshot row snapshot ∧
        snapshot.session.attachment = runtime.snapshot.session.attachment)
    (hsucceeds : session.current = some index →
      (operation.run ok session.row runtime.snapshot).isSome ∨
        operation.unchanged runtime.snapshot = true)
    (hstep : (if (session.apply index { runtime with queue := queue, consumer := .waiting } ok
        operation).2 then
        some (session.apply index { runtime with queue := queue, consumer := .waiting } ok operation).1
      else some (session.set index { runtime with queue := queue, consumer := .stopped })) =
        some next) : next.Kept := by
  have hkept := h.each index runtime hruntime
  have hpop : ∀ consumer : RuntimeConsumer, consumer.exiting = false →
      AgentRuntime.Kept session.row (session.prompting index) (session.failing index)
        { runtime with queue := queue, consumer := consumer } := by
    intro consumer hwaits
    apply hkept.pop event queue hqueue hevent
    intro hexiting
    rw [hwaits] at hexiting
    cases hexiting
  have hfinished : runtime.finished = queue.filterMap (·.finished) := by
    unfold AgentRuntime.finished
    rw [hqueue, List.filterMap_cons_none hevent]
  have hremoved : ∀ consumer snapshot, snapshot.session.attachment = runtime.snapshot.session.attachment →
      runtime.Removed → AgentRuntime.Removed
        { runtime with snapshot := snapshot, queue := queue, consumer := consumer } := by
    intro consumer snapshot hsession hremoved
    refine ⟨?_, hremoved.task, hfinished.symm.trans hremoved.finished⟩
    rw [hsession]
    exact hremoved.detached
  have hattached : ∀ row snapshot, session.current = some index →
      SameTurns session.row runtime.snapshot row snapshot →
      snapshot.session.attachment = runtime.snapshot.session.attachment → AgentRuntime.Attached row
        { runtime with snapshot := snapshot, queue := queue, consumer := .waiting } := by
    intro row snapshot hcurrent hsame hsession
    obtain ⟨-, hold⟩ := h.attached index runtime hruntime hcurrent
    refine ⟨nofun, ?_, ?_, ?_, nofun⟩
    · rw [hsame.unfinished]
      rw [hsame.active]
      exact hold.active
    · intro hexited
      rcases hold.exit hexited with hhas | hexiting
      · obtain ⟨message, hmem⟩ := hhas
        rw [hqueue] at hmem
        rcases List.mem_cons.mp hmem with heq | hmem
        · exact absurd heq.symm (hexit message)
        · exact .inl ⟨message, hmem⟩
      · rw [hconsumer] at hexiting
        cases hexiting
    · intro _
      rw [hsession]
      apply hold.attached
      rw [hconsumer]
      exact nofun
  have hself : SameTurns session.row runtime.snapshot session.row runtime.snapshot :=
    .of_activeTurn _ _ _ _ rfl rfl
  unfold RunningSession.apply at hstep
  cases hresult : operation.run ok session.row runtime.snapshot with
  | some result =>
    obtain ⟨row, snapshot⟩ := result
    rw [hresult] at hstep
    cases hstep
    obtain ⟨hsame, hsession⟩ := hrun row snapshot hresult
    exact h.applySame index runtime { runtime with queue := queue, consumer := .waiting } row
      snapshot hruntime (hpop .waiting rfl) rfl hsame (hremoved _ _ hsession)
      (fun hcurrent => hattached row snapshot hcurrent hsame hsession)
  | none =>
    rw [hresult] at hstep
    cases hunchanged : operation.unchanged runtime.snapshot with
    | true =>
      rw [hunchanged] at hstep
      cases hstep
      exact h.setRuntime index runtime _ hruntime (hpop .waiting rfl) rfl (hremoved _ _ rfl)
        (fun hcurrent => hattached session.row runtime.snapshot hcurrent hself rfl)
    | false =>
      rw [hunchanged] at hstep
      cases hstep
      refine h.setRuntime index runtime _ hruntime (hpop .stopped rfl) rfl (hremoved _ _ rfl) ?_
      intro hcurrent
      rw [hresult, hunchanged] at hsucceeds
      rcases hsucceeds hcurrent with hsome | htrue
      · cases hsome
      · cases htrue

theorem RunningSession.Kept.consumeExit (h : session.Kept) (index : ℕ) (runtime : AgentRuntime)
    (message : Option String) (queue : List AgentRuntimeEvent) (turnId : Option ℕ)
    (hruntime : session.runtimes[index]? = some runtime)
    (hconsumer : runtime.consumer = .waiting) (hqueue : runtime.queue = .exited message :: queue) :
    (session.set index { runtime with
      queue := queue, consumer := .finishing message turnId }).Kept := by
  have hkept := h.each index runtime hruntime
  have hexited : runtime.task = .exited := by
    by_contra hne
    refine (hkept.early hne).1 ⟨message, ?_⟩
    rw [hqueue]
    exact List.mem_cons_self
  have hrest : queue.filterMap (·.finished) = [] := by
    have hlast := hkept.exitLast
    rw [hqueue] at hlast
    exact hlast
  refine h.setRuntime index runtime _ hruntime ?_ rfl ?_ ?_
  · exact hkept.pop (.exited message) queue hqueue rfl _ fun _ => ⟨hrest, hexited⟩
  · exact fun hremoved => ⟨hremoved.detached, hexited, hrest⟩
  · intro hcurrent
    obtain ⟨-, hold⟩ := h.attached index runtime hruntime hcurrent
    refine ⟨nofun, hold.active, fun _ => .inr rfl, ?_, nofun⟩
    intro _
    apply hold.attached
    rw [hconsumer]
    exact nofun

theorem RunningSession.Kept.consume (h : session.Kept) (index : ℕ) (ok : Bool)
    (hordinary : session.ordinary (.consume index ok) = true)
    (hstep : session.consume index ok = some next) : next.Kept := by
  obtain ⟨runtime, hruntime, hstep⟩ := Option.bind_eq_some_iff.mp hstep
  have hkept := h.each index runtime hruntime
  split at hstep
  · rename_i event queue hconsumer hqueue
    have hcondition : session.current = some index → (match runtime.queue with
        | .agentTextChunk turnId _ :: _ => ok && runtime.snapshot.activeId = some turnId
        | _ => ok) = true := by
      intro hcurrent
      have hor := of_decide_eq_true hordinary
      rw [hruntime] at hor
      exact hor.resolve_left fun hne => hne hcurrent
    rw [hqueue] at hcondition
    cases event with
    | agentTextChunk turnId text =>
      refine h.consumeSame index ok runtime _ queue (.applyAgentTextChunk turnId text) hruntime
        hconsumer hqueue rfl nofun ?_ ?_ hstep
      · exact fun row snapshot hrun => run_chunk ok _ row _ snapshot turnId text hkept.sane hrun
      · intro hcurrent
        obtain ⟨hok, hactive⟩ := Bool.and_eq_true_iff.mp (hcondition hcurrent)
        rw [hok]
        exact .inl (run_chunk_isSome _ _ turnId text hkept.sane (of_decide_eq_true hactive))
    | usage used =>
      refine h.consumeSame index ok runtime _ queue (.applyAgentUsage used) hruntime hconsumer hqueue
        rfl nofun ?_ ?_ hstep
      · exact fun row snapshot hrun => run_usage ok _ row _ snapshot used hrun
      · intro hcurrent
        rw [show ok = true from hcondition hcurrent]
        exact .inl rfl
    | configOptions options =>
      refine h.consumeSame index ok runtime _ queue (.applyAgentConfigOptions options) hruntime
        hconsumer hqueue rfl nofun ?_ ?_ hstep
      · exact fun row snapshot hrun => run_config ok _ row _ snapshot options hrun
      · intro hcurrent
        rw [show ok = true from hcondition hcurrent]
        by_cases hsame : runtime.snapshot.configOptions = options
        · exact .inr (decide_eq_true hsame)
        · refine .inl ?_
          simp [LiveOperation.run, LiveOperation.check, hsame, LiveChange.commit]
    | promptFinished turnId stopReason =>
      obtain ⟨row, snapshot, hrun, hnext⟩ := h.consumeAnswer index turnId ok runtime _ queue
        (.finished stopReason) hruntime hconsumer hqueue rfl hcondition
      dsimp only [AgentRuntimeEvent.operation, RunningSession.apply] at hstep
      rw [hrun] at hstep
      cases hstep
      exact hnext
    | promptFailed turnId message =>
      obtain ⟨row, snapshot, hrun, hnext⟩ := h.consumeAnswer index turnId ok runtime _ queue
        (.failed (acpPromptFailure message)) hruntime hconsumer hqueue rfl hcondition
      dsimp only [AgentRuntimeEvent.operation, RunningSession.apply] at hstep
      rw [hrun] at hstep
      cases hstep
      exact hnext
    | exited message =>
      cases hstep
      exact h.consumeExit index runtime message queue _ hruntime hconsumer hqueue
  · cases hstep

section
variable {row : StoredSession} {prompting failing : List ℕ} {runtime : AgentRuntime}
  (h : runtime.Kept row prompting failing) (hexiting : runtime.consumer.exiting = true)
include row prompting failing runtime h hexiting

theorem AgentRuntime.Kept.exited : runtime.task = .exited := by
  by_contra hne
  rw [(h.early hne).2] at hexiting
  cases hexiting

theorem AgentRuntime.Kept.withConsumer (consumer : RuntimeConsumer) :
    AgentRuntime.Kept row prompting failing { runtime with consumer := consumer } :=
  ⟨h.sane, h.stored, h.running, h.ended, h.exitLast,
    fun hne => absurd (h.exited hexiting) hne, fun _ => h.exiting hexiting⟩

end

section
variable (h : session.Kept) (index : ℕ)
include h index

theorem RunningSession.Kept.finishExit (ok : Bool)
    (runtime : AgentRuntime) (message : Option String) (turnId : Option ℕ)
    (hruntime : session.runtimes[index]? = some runtime)
    (hconsumer : runtime.consumer = .finishing message turnId) :
    (session.set index { runtime with consumer := .applying message }).Kept ∧
      ∀ turnId outcome, (session.apply index { runtime with consumer := .applying message } ok
        (.finishLiveTurn turnId outcome)).1.Kept := by
  have hkept := h.each index runtime hruntime
  have hexiting : runtime.consumer.exiting = true := by
    rw [hconsumer]
    rfl
  have hexited := hkept.exited hexiting
  have hwaiting : ∀ ok, runtime.consumer ≠ .removing ok := by
    rw [hconsumer]
    exact nofun
  have happlying : (session.set index { runtime with consumer := .applying message }).Kept := by
    refine h.setRuntime index runtime _ hruntime (hkept.withConsumer hexiting _) rfl ?_ ?_
    · exact fun hremoved => ⟨hremoved.detached, hremoved.task, hremoved.finished⟩
    · intro hcurrent
      obtain ⟨-, hold⟩ := h.attached index runtime hruntime hcurrent
      exact ⟨nofun, hold.active, fun _ => .inr rfl, fun _ => hold.attached hwaiting, nofun⟩
  refine ⟨happlying, ?_⟩
  intro turnId outcome
  unfold RunningSession.apply
  split
  · rename_i row snapshot hrun
    obtain ⟨hactive, hnone, hsane, hstored, hids, hattachment⟩ :=
      run_finish ok _ row _ snapshot turnId outcome hkept.sane hrun
    have hlength := h.length index runtime turnId hruntime hactive
    refine h.set index runtime _ row session.calls hruntime ?_ (.inr hlength)
      (fun _ hmem => .inl hmem) (fun _ _ => ⟨rfl, rfl⟩) ?_ (fun _ => .inl hlength) ?_ ?_
    · rw [hids]
      exact List.Subset.refl _
    · refine hkept.finish row snapshot runtime.queue (.applying message) _ hsane hnone
        (hkept.exiting hexiting) hkept.exitLast (fun message hmem => ⟨message, hmem⟩)
        (fun _ => hexited) ?_
      intro hrunning
      rw [hexited] at hrunning
      cases hrunning
    · intro hcurrent
      have hremoved := h.removed index runtime hruntime hcurrent
      exact ⟨fun heq => hremoved.detached (hattachment.symm.trans heq), hexited,
        hkept.exiting hexiting⟩
    · intro hcurrent
      obtain ⟨-, hold⟩ := h.attached index runtime hruntime hcurrent
      exact hold.finish row snapshot runtime.queue (.applying message) turnId hactive hstored
        hattachment nofun nofun hwaiting fun _ => .inr rfl
  · exact happlying

theorem RunningSession.Kept.applyExit (ok : Bool)
    (runtime : AgentRuntime) (message : Option String)
    (hruntime : session.runtimes[index]? = some runtime)
    (hconsumer : runtime.consumer = .applying message)
    (hok : session.current = some index → ok = true)
    (hstep : (if (session.apply index { runtime with consumer := .removing true } ok
        (.applyRuntimeExit message)).2 then
        some (session.apply index { runtime with consumer := .removing true } ok
          (.applyRuntimeExit message)).1
      else some (session.set index { runtime with consumer := .removing false })) = some next) :
    next.Kept := by
  have hkept := h.each index runtime hruntime
  have hexiting : runtime.consumer.exiting = true := by
    rw [hconsumer]
    rfl
  unfold RunningSession.apply at hstep
  cases hrun : (LiveOperation.applyRuntimeExit message).run ok session.row runtime.snapshot with
  | some result =>
    obtain ⟨row, snapshot⟩ := result
    rw [hrun] at hstep
    cases hstep
    obtain ⟨hsame, hdetached⟩ := run_exit ok _ row _ snapshot message hrun
    refine h.applySame index runtime { runtime with consumer := .removing true } row snapshot hruntime
      (hkept.withConsumer hexiting _) rfl hsame ?_ ?_
    · exact fun hremoved => ⟨hdetached, hremoved.task, hremoved.finished⟩
    · intro hcurrent
      obtain ⟨-, hold⟩ := h.attached index runtime hruntime hcurrent
      refine ⟨nofun, ?_, fun _ => .inr rfl, fun hremoving => absurd rfl (hremoving true),
        fun _ _ => hdetached⟩
      rw [hsame.unfinished]
      rw [hsame.active]
      exact hold.active
  | none =>
    rw [hrun] at hstep
    cases hstep
    refine h.setRuntime index runtime _ hruntime (hkept.withConsumer hexiting _) rfl ?_ ?_
    · exact fun hremoved => ⟨hremoved.detached, hremoved.task, hremoved.finished⟩
    · intro hcurrent
      rw [hok hcurrent] at hrun
      cases hrun

theorem RunningSession.Kept.detach (runtime : AgentRuntime)
    (hruntime : session.runtimes[index]? = some runtime) (removed : Bool)
    (hconsumer : runtime.consumer = .removing removed) :
    ({ session with
      current := if session.current = some index then none else session.current } :
        RunningSession).Kept ∧ runtime.Removed := by
  have hkept := h.each index runtime hruntime
  have hexiting : runtime.consumer.exiting = true := by
    rw [hconsumer]
    rfl
  have hremoved : runtime.Removed := by
    by_cases hcurrent : session.current = some index
    · obtain ⟨-, hold⟩ := h.attached index runtime hruntime hcurrent
      exact ⟨hold.detached removed hconsumer, hkept.exited hexiting, hkept.exiting hexiting⟩
    · exact h.removed index runtime hruntime hcurrent
  refine ⟨⟨h.calls, h.each, h.older, ?_, ?_⟩, hremoved⟩
  · intro other found hfound hnot
    by_cases hcurrent : session.current = some other
    · by_cases hindex : session.current = some index
      · rw [hindex] at hcurrent
        cases hcurrent
        rw [show session.runtimes[index]? = some found from hfound] at hruntime
        cases hruntime
        exact hremoved
      · rw [if_neg hindex] at hnot
        exact absurd hcurrent hnot
    · exact h.removed other found hfound hcurrent
  · intro other heq
    split at heq
    · cases heq
    · exact h.current other heq

theorem RunningSession.Kept.exit (ok : Bool)
    (hordinary : session.ordinary (.exit index ok) = true)
    (hstep : session.exit index ok = some next) : next.Kept := by
  obtain ⟨runtime, hruntime, hstep⟩ := Option.bind_eq_some_iff.mp hstep
  have hcondition : session.current = some index → (match runtime.consumer with
      | .applying _ => ok
      | _ => true) = true := by
    intro hcurrent
    have hor := of_decide_eq_true hordinary
    rw [hruntime] at hor
    exact hor.resolve_left fun hne => hne hcurrent
  split at hstep
  · rename_i message turnId hconsumer
    obtain ⟨hset, hfinish⟩ := h.finishExit index ok runtime message turnId hruntime hconsumer
    cases turnId with
    | none =>
      cases hstep
      exact hset
    | some turnId =>
      cases hstep
      exact hfinish turnId _
  · rename_i message hconsumer
    rw [hconsumer] at hcondition
    exact h.applyExit index ok runtime message hruntime hconsumer hcondition hstep
  · rename_i removed hconsumer
    obtain ⟨hsession, hremoved⟩ := h.detach index runtime hruntime removed hconsumer
    have hexiting : runtime.consumer.exiting = true := by
      rw [hconsumer]
      rfl
    cases hstep
    refine hsession.setRuntime index runtime _ hruntime
      ((h.each index runtime hruntime).withConsumer hexiting _) rfl ?_ ?_
    · exact fun hremoved => ⟨hremoved.detached, hremoved.task, hremoved.finished⟩
    · intro hcurrent
      split at hcurrent
      · cases hcurrent
      · rename_i hne
        exact absurd hcurrent hne
  · cases hstep

end

theorem RunningSession.Kept.attach (h : session.Kept) (providerSessionId : String)
    (configOptions : List AgentConfigOption) (hcurrent : session.current = none)
    (hrow : session.row.unfinished = []) :
    ({ session with
      runtimes := session.runtimes ++ [.attached session.row providerSessionId configOptions]
      current := some session.runtimes.length } : RunningSession).Kept := by
  have hcases : ∀ index runtime, (session.runtimes ++
      [AgentRuntime.attached session.row providerSessionId configOptions])[index]? = some runtime →
      session.runtimes[index]? = some runtime ∨ index = session.runtimes.length ∧
        runtime = .attached session.row providerSessionId configOptions := by
    intro index runtime hruntime
    rcases Nat.lt_or_ge index session.runtimes.length with hlt | hle
    · rw [List.getElem?_append_left hlt] at hruntime
      exact .inl hruntime
    · rw [List.getElem?_append_right hle] at hruntime
      cases hindex : index - session.runtimes.length with
      | zero =>
        rw [hindex] at hruntime
        cases hruntime
        exact .inr ⟨by omega, rfl⟩
      | succ n =>
        rw [hindex] at hruntime
        cases hruntime
  have hnone : ∀ (index : ℕ) (runtime : AgentRuntime), session.runtimes[index]? = some runtime →
      runtime.snapshot.activeId = none := by
    intro index runtime hruntime
    cases hactive : runtime.snapshot.activeId with
    | none => rfl
    | some turnId =>
      have hmem := (h.each index runtime hruntime).stored turnId hactive
      rw [hrow] at hmem
      cases hmem
  have hlength : (session.runtimes ++
      [AgentRuntime.attached session.row providerSessionId configOptions]).length =
      session.runtimes.length + 1 := List.length_append
  refine ⟨?_, ?_, ?_, ?_, ?_⟩
  · intro call hmem
    have hlt := h.calls call hmem
    dsimp only
    omega
  · intro index runtime hruntime
    rcases hcases index runtime hruntime with hold | ⟨hindex, heq⟩
    · exact h.each index runtime hold
    · have hcalls : ∀ f : PromptCall → Option ℕ, (∀ call turnId, f call = some turnId →
          call.index = index) → session.calls.filterMap f = [] := by
        intro f hf
        rw [List.filterMap_eq_nil_iff]
        intro call hmem
        have hlt := h.calls call hmem
        cases hcall : f call with
        | none => rfl
        | some turnId =>
          have hat := hf call turnId hcall
          omega
      have hprompting : session.calls.filterMap (·.prompting index) = [] := by
        apply hcalls
        intro call turnId hcall
        cases call with
        | prompt at_ other => exact (Option.ite_none_right_eq_some.mp hcall).1
        | finish at_ other => cases hcall
      have hfailing : session.calls.filterMap (·.failing index) = [] := by
        apply hcalls
        intro call turnId hcall
        cases call with
        | prompt at_ other => cases hcall
        | finish at_ other => exact (Option.ite_none_right_eq_some.mp hcall).1
      rw [heq]
      show AgentRuntime.Kept session.row (session.calls.filterMap (·.prompting index))
        (session.calls.filterMap (·.failing index)) _
      rw [hprompting, hfailing]
      refine ⟨⟨nofun, nofun⟩, nofun,
        fun _ => ⟨rfl, rfl⟩, fun hne => absurd rfl hne, trivial, ?_, nofun⟩
      intro _
      refine ⟨?_, rfl⟩
      intro hhas
      obtain ⟨message, hmem⟩ := hhas
      cases hmem
  · intro index runtime hruntime hlt
    rcases hcases index runtime hruntime with hold | ⟨hindex, -⟩
    · exact hnone index runtime hold
    · dsimp only at hlt
      omega
  · intro index runtime hruntime hnot
    rcases hcases index runtime hruntime with hold | ⟨hindex, -⟩
    · refine h.removed index runtime hold ?_
      rw [hcurrent]
      exact nofun
    · rw [hindex] at hnot
      exact absurd rfl hnot
  · intro index heq
    cases heq
    refine ⟨hlength.symm, _, List.getElem?_concat_length, ?_⟩
    refine ⟨nofun, ?_, nofun, fun _ => rfl, nofun⟩
    rw [hrow]
    exact nofun

theorem RunningSession.created_kept (row : StoredSession) : (created row).Kept :=
  ⟨fun _ h => (nomatch h), fun _ _ h => (nomatch h), fun _ _ h => (nomatch h),
    fun _ _ h => (nomatch h), fun _ h => (nomatch h)⟩

def RunningSession.stepOrdinary (session : RunningSession) (step : RunningStep) :
    Option RunningSession :=
  if session.ordinary step then session.step step else none

theorem RunningSession.Kept.step (h : session.Kept) (step : RunningStep)
    (hstep : session.stepOrdinary step = some next) : next.Kept := by
  obtain ⟨hordinary, hstep⟩ := Option.ite_none_right_eq_some.mp hstep
  cases step with
  | createTurn index new ok => exact h.createTurn index new ok hstep
  | sendPrompt call => exact h.sendPrompt call hstep
  | failTurn call ok => exact h.failTurn call ok hstep
  | task index step => exact h.task index step hstep
  | consume index ok => exact h.consume index ok hordinary hstep
  | exit index ok => exact h.exit index ok hordinary hstep
  | attach providerSessionId configOptions =>
    obtain ⟨hcurrent, hstep⟩ := Option.ite_none_left_eq_some.mp hstep
    cases hstep
    exact h.attach providerSessionId configOptions (by simpa using hcurrent)
      (of_decide_eq_true hordinary)
  | restart =>
    cases hstep
    exact RunningSession.created_kept session.row

end

def AgentRuntime.queued (runtime : AgentRuntime) : List AgentRuntimeEvent :=
  if runtime.consumer = .stopped then [] else runtime.queue

structure AgentRuntime.Quiet (runtime : AgentRuntime) : Prop where
  task : ∀ message, runtime.task ≠ .ended message
  commands : runtime.commands = []
  prompting : runtime.prompting = .idle
  handlers : runtime.handlers = []
  queued : runtime.queued = []
  consumer : runtime.consumer.exiting = false

/-- A quiet session has no unfinished turn and accepts one, and a runtime whose exit was applied is
neither attached nor the session's. -/
structure RunningSession.Unstuck (session : RunningSession) : Prop where
  turns : ∀ index runtime, session.current = some index →
    session.runtimes[index]? = some runtime → runtime.Quiet → session.calls = [] →
    runtime.snapshot.activeTurn = none ∧ session.row.unfinished = [] ∧ ∀ new : NewTurn,
      new.Fresh session.row →
        ((LiveOperation.createTurn new).run true session.row runtime.snapshot).isSome
  exits : ∀ index (runtime : AgentRuntime), session.runtimes[index]? = some runtime →
    runtime.task = .exited → runtime.queued = [] → runtime.consumer.exiting = false →
    session.current ≠ some index ∧ runtime.snapshot.session.attachment ≠ .attached

theorem RunningSession.Kept.unstuck {session : RunningSession} (h : session.Kept) :
    session.Unstuck := by
  have hexit : ∀ index runtime, session.current = some index →
      session.runtimes[index]? = some runtime → runtime.queued = [] →
      runtime.consumer.exiting = false → runtime.queue = [] ∧ runtime.task ≠ .exited := by
    intro index runtime hcurrent hruntime hqueued hconsumer
    obtain ⟨-, hattached⟩ := h.attached index runtime hruntime hcurrent
    unfold AgentRuntime.queued at hqueued
    rw [if_neg hattached.consumer] at hqueued
    refine ⟨hqueued, fun hexited => ?_⟩
    rcases hattached.exit hexited with hhas | hexiting
    · obtain ⟨message, hmem⟩ := hhas
      rw [hqueued] at hmem
      cases hmem
    · rw [hconsumer] at hexiting
      cases hexiting
  refine ⟨?_, ?_⟩
  · intro index runtime hcurrent hruntime hquiet hcalls
    obtain ⟨-, hattached⟩ := h.attached index runtime hruntime hcurrent
    obtain ⟨hqueue, hnot⟩ := hexit index runtime hcurrent hruntime hquiet.queued hquiet.consumer
    have hrunning : runtime.task = .running := by
      cases htask : runtime.task with
      | running => rfl
      | ended message => exact absurd htask (hquiet.task message)
      | exited => exact absurd htask hnot
    have hhand := ((h.each index runtime hruntime).running hrunning).1
    unfold RunningSession.prompting AgentRuntime.finished at hhand
    rw [hcalls, hquiet.commands, hquiet.prompting, hqueue] at hhand
    have hnone : runtime.snapshot.activeId = none := by
      cases hactive : runtime.snapshot.activeId with
      | none => rfl
      | some turnId =>
        rw [hactive] at hhand
        cases hhand
    have hturn : runtime.snapshot.activeTurn = none := Option.map_eq_none_iff.mp hnone
    have hrow : session.row.unfinished = [] := by
      apply List.eq_nil_iff_forall_not_mem.mpr
      intro turnId hmem
      have hactive := hattached.active turnId hmem
      rw [hnone] at hactive
      cases hactive
    refine ⟨hturn, hrow, fun new hfresh => ?_⟩
    refine run_create_isSome session.row runtime.snapshot new (hattached.attached ?_) hturn hrow hfresh
    intro ok heq
    have hwaits := hquiet.consumer
    rw [heq] at hwaits
    cases hwaits
  · intro index runtime hruntime hexited hqueued hconsumer
    have hcurrent : session.current ≠ some index := by
      intro hcurrent
      exact (hexit index runtime hcurrent hruntime hqueued hconsumer).2 hexited
    exact ⟨hcurrent, (h.removed index runtime hruntime hcurrent).detached⟩

theorem turns_end (row : StoredSession) (steps : List RunningStep) (session : RunningSession)
    (hrun : steps.foldlM RunningSession.stepOrdinary (.created row) = some session) :
    session.Unstuck := by
  have hkept : session.Kept := by
    refine System.run_invariant RunningSession.stepOrdinary (·.Kept) ?_ steps
      (RunningSession.created_kept row) hrun
    exact fun session step next h hstep => h.step step hstep
  exact hkept.unstuck

def firstTurn : NewTurn := ⟨"first", 1, 10, 11, "Hello"⟩

def secondTurn : NewTurn := ⟨"second", 2, 20, 21, "Again"⟩

def promptSteps (new : NewTurn) : List RunningStep :=
  [.createTurn 0 new true, .sendPrompt 0, .task 0 .takeCommand, .task 0 .notify]

def answerSteps : List RunningStep :=
  [.task 0 (.answer (.ok .endTurn)), .task 0 .queueAnswer]

def promptTurn : List RunningStep :=
  [.attach "agent-session" []] ++ promptSteps firstTurn ++ [.task 0 (.queueChunk 0 "Hi")] ++
    answerSteps ++ [.consume 0 true, .consume 0 true]

/-- The handler of the first turn queues its chunk after the answer, and the consumer stops at
it. -/
def lateChunk : List RunningStep :=
  [.attach "agent-session" []] ++ promptSteps firstTurn ++ answerSteps ++
    [.task 0 (.queueChunk 0 "Hi"), .consume 0 true, .consume 0 true, .createTurn 0 secondTurn true,
      .sendPrompt 0, .task 0 .takeCommand] ++ answerSteps

def restartedTurn : List RunningStep :=
  [.attach "agent-session" []] ++ promptSteps firstTurn ++ [.restart, .attach "agent-session" []]

theorem turns_end_promptTurn : ∃ session runtime,
    promptTurn.foldlM RunningSession.stepOrdinary (.created emptyRow) = some session ∧
    session.runtimes[0]? = some runtime ∧ runtime.snapshot.activeTurn = none ∧ session.Unstuck := by
  refine ⟨_, _, rfl, rfl, rfl, ?_⟩
  exact turns_end emptyRow promptTurn _ rfl

theorem session_stuck :
    (∃ session runtime,
      lateChunk.foldlM RunningSession.step (.created emptyRow) = some session ∧
      session.current = some 0 ∧ session.calls = [] ∧ session.runtimes[0]? = some runtime ∧
      runtime.Quiet ∧ runtime.snapshot.activeId = some 2 ∧ ¬ session.Unstuck) ∧
    ∃ session runtime,
      restartedTurn.foldlM RunningSession.step (.created emptyRow) = some session ∧
      session.current = some 0 ∧ session.calls = [] ∧ session.runtimes[0]? = some runtime ∧
      runtime.Quiet ∧ secondTurn.Fresh session.row ∧
      (LiveOperation.createTurn secondTurn).run true session.row runtime.snapshot = none ∧
      ¬ session.Unstuck := by
  refine ⟨⟨_, _, rfl, rfl, rfl, rfl, ?_, rfl, ?_⟩, _, _, rfl, rfl, rfl, rfl, ?_, ?_, rfl, ?_⟩
  · exact ⟨nofun, rfl, rfl, rfl, rfl, rfl⟩
  · intro hunstuck
    have hturn := (hunstuck.turns 0 _ rfl rfl ⟨nofun, rfl, rfl, rfl, rfl, rfl⟩ rfl).1
    cases hturn
  · exact ⟨nofun, rfl, rfl, rfl, rfl, rfl⟩
  · exact ⟨by decide, by decide, by decide⟩
  · intro hunstuck
    have hturn := (hunstuck.turns 0 _ rfl rfl ⟨nofun, rfl, rfl, rfl, rfl, rfl⟩ rfl).2.1
    cases hturn

end Rieul.Agent
