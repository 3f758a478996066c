import Rieul.Agent.ConfigChange
import Rieul.Lib.System

/-!
# The configuration follows the agent

As long as no call is cancelled that the runtime still works for, and options are
not applied over later ones, a change excludes a turn, and what the agent reported
last is applied once everything is.
-/

namespace Rieul.Agent.Config

def AgentRuntimeCommand.turns : AgentRuntimeCommand → List ℕ
  | prompt turnId => [turnId]
  | setConfig _ _ _ => []

def AgentRuntimeCommand.responses : AgentRuntimeCommand → List ℕ
  | prompt _ => []
  | setConfig _ _ response => [response]

@[simp] theorem prompt_turns (turnId : ℕ) : (AgentRuntimeCommand.prompt turnId).turns = [turnId] :=
  rfl

@[simp] theorem prompt_responses (turnId : ℕ) : (AgentRuntimeCommand.prompt turnId).responses = [] :=
  rfl

@[simp] theorem setConfig_turns (configId : String) (value : AcpSessionConfigOptionValue)
    (response : ℕ) : (AgentRuntimeCommand.setConfig configId value response).turns = [] := rfl

@[simp] theorem setConfig_responses (configId : String) (value : AcpSessionConfigOptionValue)
    (response : ℕ) :
    (AgentRuntimeCommand.setConfig configId value response).responses = [response] := rfl

def Executing.turns : Executing → List ℕ
  | request command => command.turns
  | prompted turnId => [turnId]
  | _ => []

def Executing.responses : Executing → List ℕ
  | request command => command.responses
  | configured response _ => [response]
  | _ => []

def Executing.reports : Executing → List ConfigReport
  | configured _ answer => answer.toList
  | _ => []

def AgentRuntimeEvent.turns : AgentRuntimeEvent → List ℕ
  | promptEnded turnId => [turnId]
  | _ => []

@[simp] theorem promptEnded_turns (turnId : ℕ) :
    (AgentRuntimeEvent.promptEnded turnId).turns = [turnId] := rfl

def AgentRuntimeEvent.reports : AgentRuntimeEvent → List ConfigReport
  | configOptions report => [report]
  | _ => []

@[simp] theorem configOptions_reports (report : ConfigReport) :
    (AgentRuntimeEvent.configOptions report).reports = [report] := rfl

def ConfigCall.reports : ConfigCall → List ConfigReport
  | answered answer => answer.toList
  | _ => []

def ConfigCall.started : ConfigCall → Bool
  | check _ => false
  | _ => true

namespace ConfiguredSession
variable (session : ConfiguredSession)

def turns : List ℕ :=
  session.prompts ++ session.commands.flatMap (·.turns) ++ session.executing.turns ++
    session.queue.flatMap (·.turns)

def requests : List ℕ := session.commands.flatMap (·.responses) ++ session.executing.responses

def pending : List ConfigReport :=
  session.queue.flatMap (·.reports) ++ session.executing.reports ++
    session.configCall.toList.flatMap (·.reports)

def Changing : Prop := session.configCall.any (·.started) = true ∨ session.requests ≠ []

def Turning : Prop :=
  session.activeTurn ≠ none ∨ session.commands.flatMap (·.turns) ≠ [] ∨
    session.executing.turns ≠ []

structure Settled : Prop where
  task : session.task = .running
  commands : session.commands = []
  executing : session.executing = .idle
  queue : session.queue = []
  consumer : session.consumer = .waiting
  call : session.configCall = none
  prompts : session.prompts = []

structure Follows : Prop where
  exclusive : session.Changing → ¬ session.Turning
  settled : session.Settled → ∃ options, session.reported.getLast? = some options ∧
    session.configOptions = normalizeAcpConfigOptions options ∧
    session.configValues = storedConfigValues session.configOptions

def inOrder (report : ConfigReport) : Bool :=
  session.applied < report.number ∨ session.configOptions = normalizeAcpConfigOptions report.options

def storable (report : ConfigReport) (ok : Bool) : Bool :=
  let options := normalizeAcpConfigOptions report.options
  session.configOptions = options ∨
    ok = true ∧ ((storedConfigValues options).map (·.configId)).Nodup

/-- A call is cancelled when its runtime is over only, and options that change something are applied in
the order they were reported in; those of an answer can be stored. -/
def orderly : ConfigStep → Bool
  | .cancel => match session.configCall with
    | some (.await _) => session.task ≠ .running
    | some (.answered answer) => answer.isNone
    | _ => true
  | .applyAnswer ok => session.configCall.toList.all fun call =>
      call.reports.all fun report => session.inOrder report && session.storable report ok
  | .consume _ => session.queue.head?.all fun event => event.reports.all session.inOrder
  | _ => true

def stepOrderly (step : ConfigStep) : Option ConfiguredSession :=
  if session.orderly step then session.step step else none

def Held (turns : List ℕ) (active : Option ℕ) : Prop :=
  turns.length ≤ 1 ∧ ∀ turnId ∈ turns, active = some turnId

theorem Held.mono {turns rest : List ℕ} {active : Option ℕ} (h : Held turns active)
    (hlen : rest.length ≤ turns.length) (hsub : ∀ turnId ∈ rest, turnId ∈ turns) :
    Held rest active :=
  ⟨Nat.le_trans hlen h.1, fun turnId hmem => h.2 turnId (hsub turnId hmem)⟩

theorem Held.nil_of_none {turns : List ℕ} (h : Held turns none) : turns = [] := by
  refine List.eq_nil_iff_forall_not_mem.mpr ?_
  intro turnId hmem
  cases h.2 turnId hmem

theorem held_nil (active : Option ℕ) : Held [] active :=
  ⟨Nat.zero_le 1, fun _ hmem => absurd hmem List.not_mem_nil⟩

structure Kept : Prop where
  held : session.task = .running → Held session.turns session.activeTurn
  ended : session.task ≠ .running → session.commands = [] ∧ session.executing = .idle
  consumer : session.task = .running → session.consumer = .waiting ∨ session.consumer = .stopped
  exits : session.task = .running → ∀ message, .exited message ∉ session.queue
  failing : session.task = .running → session.failing = []
  calm : session.configCall.any (·.started) = true → session.activeTurn = none
  request : session.requests.length ≤ 1
  awaited : ∀ response ∈ session.requests, session.configCall = some (.await response)

variable {session} {next : ConfiguredSession}

section
variable (h : session.Kept)
include h

theorem Kept.exclusive (hchanging : session.Changing) : ¬ session.Turning := by
  have hstarted : session.configCall.any (·.started) = true := by
    rcases hchanging with hcall | hrequests
    · exact hcall
    · obtain ⟨response, hmem⟩ := List.exists_mem_of_ne_nil _ hrequests
      rw [h.awaited response hmem]
      rfl
  have hnone := h.calm hstarted
  by_cases hrunning : session.task = .running
  · have hturns := h.held hrunning
    rw [hnone] at hturns
    have hnil := hturns.nil_of_none
    simp only [turns, List.append_eq_nil_iff] at hnil
    simp [Turning, hnone, hnil.1.1.2, hnil.1.2]
  · obtain ⟨hcommands, hexecuting⟩ := h.ended hrunning
    simp [Turning, hnone, hcommands, hexecuting, Executing.turns]

theorem Kept.no_request
    (hcall : ∀ response, session.configCall ≠ some (.await response)) : session.requests = [] := by
  refine List.eq_nil_iff_forall_not_mem.mpr ?_
  intro response hmem
  exact hcall response (h.awaited response hmem)

theorem Kept.withCall (call : Option ConfigCall)
    (hrequests : session.requests = [])
    (hcalm : call.any (·.started) = true → session.activeTurn = none) :
    { session with configCall := call }.Kept := by
  refine ⟨h.held, h.ended, h.consumer, h.exits, h.failing, hcalm, h.request, ?_⟩
  intro response hmem
  have hmem : response ∈ session.requests := hmem
  rw [hrequests] at hmem
  exact absurd hmem List.not_mem_nil

theorem Kept.finishLiveTurn (hover : session.task ≠ .running) (turnId : ℕ)
    (ok : Bool) : ((session.finishLiveTurn turnId ok).getD session).Kept := by
  unfold ConfiguredSession.finishLiveTurn
  split
  · refine ⟨fun hrunning => absurd hrunning hover, h.ended, h.consumer, h.exits, h.failing,
      fun _ => rfl, h.request, h.awaited⟩
  · exact h

theorem Kept.setSessionConfig (request : SetAgentSessionConfigReq)
    (hstep : session.setSessionConfig request = some next) : next.Kept := by
  unfold ConfiguredSession.setSessionConfig at hstep
  split at hstep
  · cases hstep
    exact h
  · rename_i hfree
    cases hstep
    refine h.withCall _ ?_ nofun
    refine h.no_request ?_
    intro response hcall
    rw [hcall] at hfree
    exact hfree (.inr rfl)

theorem Kept.checkConfig (hstep : session.checkConfig = some next) :
    next.Kept := by
  unfold ConfiguredSession.checkConfig at hstep
  split at hstep
  · rename_i request hcall
    have hrequests : session.requests = [] := by
      refine h.no_request ?_
      intro response hawait
      rw [hcall] at hawait
      cases hawait
    have hover : { session with configCall := none }.Kept := h.withCall none hrequests nofun
    split at hstep
    · cases hstep
      exact hover
    · split at hstep
      · cases hstep
        exact hover
      · rename_i hidle
        split at hstep
        · cases hstep
          exact hover
        · split at hstep
          · cases hstep
            exact hover
          · cases hstep
            refine h.withCall _ hrequests ?_
            intro _
            exact Option.not_isSome_iff_eq_none.mp hidle
  · cases hstep

theorem Kept.sendConfig (hstep : session.sendConfig = some next) :
    next.Kept := by
  unfold ConfiguredSession.sendConfig at hstep
  split at hstep
  · rename_i configId value hcall
    have hrequests : session.requests = [] := by
      refine h.no_request ?_
      intro response hawait
      rw [hcall] at hawait
      cases hawait
    have hnone : session.activeTurn = none := by
      refine h.calm ?_
      rw [hcall]
      rfl
    split at hstep
    · rename_i hrunning
      cases hstep
      simp only [ConfiguredSession.requests, List.append_eq_nil_iff] at hrequests
      refine ⟨?_, fun hover => absurd hrunning hover, h.consumer, h.exits, h.failing,
        fun _ => hnone, ?_, ?_⟩
      · intro _
        refine (h.held hrunning).mono ?_ ?_
        · simp [ConfiguredSession.turns]
        · simp [ConfiguredSession.turns]
      · simp [ConfiguredSession.requests, hrequests]
      · simp [ConfiguredSession.requests, hrequests]
    · cases hstep
      exact h.withCall none hrequests nofun
  · cases hstep

theorem Kept.over (hover : session.task ≠ .running) : session.requests = [] := by
  obtain ⟨hcommands, hexecuting⟩ := h.ended hover
  simp [ConfiguredSession.requests, hcommands, hexecuting, Executing.responses]

theorem Kept.loseAnswer (hstep : session.loseAnswer = some next) :
    next.Kept := by
  unfold ConfiguredSession.loseAnswer at hstep
  split at hstep
  · split at hstep
    · cases hstep
    · rename_i hover
      cases hstep
      exact h.withCall none (h.over hover) nofun
  · cases hstep

end

theorem applyOptions_spec (report : ConfigReport) (ok : Bool)
    (hstep : session.applyAgentConfigOptions report ok = some next) :
    ∃ values, next = { session with
        configValues := values
        configOptions := normalizeAcpConfigOptions report.options
        applied := if session.configOptions = normalizeAcpConfigOptions report.options then
          max session.applied report.number else report.number } ∧
      (session.configValues = storedConfigValues session.configOptions →
        values = storedConfigValues (normalizeAcpConfigOptions report.options)) := by
  unfold ConfiguredSession.applyAgentConfigOptions at hstep
  dsimp only at hstep
  split at hstep
  · rename_i hsame
    cases hstep
    refine ⟨session.configValues, ?_, ?_⟩
    · rw [if_pos hsame, ← hsame]
    · intro hstored
      rw [← hsame]
      exact hstored
  · rename_i hdiffers
    obtain ⟨values, hreplace, heq⟩ := Option.map_eq_some_iff.mp hstep
    refine ⟨values, ?_, ?_⟩
    · rw [if_neg hdiffers]
      exact heq.symm
    intro _
    split at hreplace
    · obtain ⟨-, hsame⟩ := Option.ite_none_right_eq_some.mp hreplace
      cases hsame
      rfl
    · cases hreplace

theorem Kept.applyOptions (h : session.Kept) (report : ConfigReport) (ok : Bool)
    (hstep : session.applyAgentConfigOptions report ok = some next) : next.Kept := by
  obtain ⟨values, heq, -⟩ := applyOptions_spec report ok hstep
  rw [heq]
  exact ⟨h.held, h.ended, h.consumer, h.exits, h.failing, h.calm, h.request, h.awaited⟩

theorem applyOptions_requests (report : ConfigReport) (ok : Bool) :
    ((session.applyAgentConfigOptions report ok).getD session).requests = session.requests := by
  cases happly : session.applyAgentConfigOptions report ok with
  | none => rfl
  | some applied =>
    obtain ⟨values, heq, -⟩ := applyOptions_spec report ok happly
    rw [heq]
    rfl

section
variable (h : session.Kept)
include h

theorem Kept.applyAnswer (ok : Bool)
    (hstep : session.applyAnswer ok = some next) : next.Kept := by
  unfold ConfiguredSession.applyAnswer at hstep
  have hrequests (answer : Option ConfigReport) (hcall : session.configCall = some (.answered answer)) :
      session.requests = [] := by
    refine h.no_request ?_
    intro response hawait
    rw [hcall] at hawait
    cases hawait
  split at hstep
  · rename_i hcall
    cases hstep
    exact h.withCall none (hrequests none hcall) nofun
  · rename_i report hcall
    cases hstep
    have happlied : ((session.applyAgentConfigOptions report ok).getD session).Kept := by
      cases hoptions : session.applyAgentConfigOptions report ok with
      | none => exact h
      | some applied => exact h.applyOptions report ok hoptions
    refine happlied.withCall none ?_ nofun
    rw [applyOptions_requests]
    exact hrequests (some report) hcall
  · cases hstep

theorem Kept.cancel (horderly : session.orderly .cancel = true)
    (hstep : session.cancel = some next) : next.Kept := by
  unfold ConfiguredSession.cancel at hstep
  unfold ConfiguredSession.orderly at horderly
  split at hstep
  · rename_i response hcall
    rw [hcall] at horderly
    cases hstep
    exact h.withCall none (h.over (of_decide_eq_true horderly)) nofun
  · rename_i answer hcall
    cases hstep
    refine h.withCall none ?_ nofun
    refine h.no_request ?_
    intro response hawait
    rw [hcall] at hawait
    cases hawait
  · cases hstep

theorem Kept.createTurn (turnId : ℕ) (ok : Bool)
    (hstep : session.createTurn turnId ok = some next) : next.Kept := by
  unfold ConfiguredSession.createTurn at hstep
  split at hstep
  · cases hstep
    exact h
  · rename_i hfree
    simp only [not_or, Option.not_isSome_iff_eq_none] at hfree
    obtain ⟨hcall, -, hnone, -⟩ := hfree
    cases hstep
    refine ⟨?_, h.ended, h.consumer, h.exits, h.failing, ?_, h.request, h.awaited⟩
    · intro hrunning
      have hheld := h.held hrunning
      rw [hnone] at hheld
      have hnil := hheld.nil_of_none
      simp only [ConfiguredSession.turns, List.append_eq_nil_iff] at hnil
      simp [ConfiguredSession.turns, hnil, Held]
    · intro hstarted
      rw [hcall] at hstarted
      cases hstarted

theorem Kept.sendPrompt (index : ℕ)
    (hstep : session.sendPrompt index = some next) : next.Kept := by
  obtain ⟨turnId, hindex, heq⟩ := Option.map_eq_some_iff.mp hstep
  rw [← heq]
  split
  · rename_i hrunning
    have hperm := Calls.perm_eraseIdx hindex
    refine ⟨?_, fun hover => absurd hrunning hover, h.consumer, h.exits, h.failing, h.calm, ?_, ?_⟩
    · intro _
      refine (h.held hrunning).mono ?_ ?_
      · have hlen := hperm.length_eq
        simp only [ConfiguredSession.turns, List.length_append, List.flatMap_append,
          List.flatMap_singleton, prompt_turns, List.length_cons, List.length_nil] at hlen ⊢
        omega
      · intro other hmem
        simp only [ConfiguredSession.turns, List.mem_append, List.flatMap_append,
          List.flatMap_singleton, prompt_turns, List.mem_singleton] at hmem ⊢
        rcases hmem with ((hprompt | hcommand | hsame) | hexecuting) | hqueue
        · exact .inl (.inl (.inl (List.mem_of_mem_eraseIdx hprompt)))
        · exact .inl (.inl (.inr hcommand))
        · rw [hsame]
          exact .inl (.inl (.inl (Calls.mem hindex)))
        · exact .inl (.inr hexecuting)
        · exact .inr hqueue
    · simpa [ConfiguredSession.requests] using h.request
    · simpa [ConfiguredSession.requests] using h.awaited
  · rename_i hover
    exact ⟨fun hrunning => absurd hrunning hover, h.ended, h.consumer, h.exits,
      fun hrunning => absurd hrunning hover, h.calm, h.request, h.awaited⟩

theorem Kept.failTurn (index : ℕ) (ok : Bool)
    (hstep : session.failTurn index ok = some next) : next.Kept := by
  obtain ⟨turnId, hindex, heq⟩ := Option.map_eq_some_iff.mp hstep
  have hover : session.task ≠ .running := by
    intro hrunning
    rw [h.failing hrunning] at hindex
    cases hindex
  have herased : { session with failing := session.failing.eraseIdx index }.Kept :=
    ⟨h.held, h.ended, h.consumer, h.exits, fun hrunning => absurd hrunning hover, h.calm,
      h.request, h.awaited⟩
  rw [← heq]
  exact herased.finishLiveTurn hover turnId ok

theorem Kept.running
    (hbusy : session.commands ≠ [] ∨ session.executing ≠ .idle) : session.task = .running := by
  by_contra hover
  obtain ⟨hcommands, hexecuting⟩ := h.ended hover
  rcases hbusy with hbusy | hbusy
  · exact hbusy hcommands
  · exact hbusy hexecuting

theorem Kept.takeCommand (hstep : session.takeCommand = some next) :
    next.Kept := by
  unfold ConfiguredSession.takeCommand at hstep
  split at hstep
  · rename_i command commands hidle hcommands
    have hrunning := h.running (.inl (by simp [hcommands]))
    cases hstep
    have hrequests : session.requests =
        command.responses ++ commands.flatMap (·.responses) := by
      simp [ConfiguredSession.requests, hcommands, hidle, Executing.responses]
    refine ⟨?_, fun hover => absurd hrunning hover, h.consumer, h.exits, h.failing, h.calm, ?_, ?_⟩
    · intro _
      refine (h.held hrunning).mono ?_ ?_
      · simp only [ConfiguredSession.turns, hcommands, hidle, Executing.turns, List.length_append,
          List.flatMap_cons, List.length_nil]
        omega
      · intro turnId hmem
        simp only [ConfiguredSession.turns, hcommands, hidle, Executing.turns, List.mem_append,
          List.flatMap_cons, List.not_mem_nil, or_false] at hmem ⊢
        tauto
    · have hrequest := h.request
      rw [hrequests] at hrequest
      simp only [ConfiguredSession.requests, Executing.responses, List.length_append] at hrequest ⊢
      omega
    · intro response hmem
      refine h.awaited response ?_
      rw [hrequests]
      simp only [ConfiguredSession.requests, Executing.responses, List.mem_append] at hmem ⊢
      exact hmem.symm
  · cases hstep

theorem Kept.executing (executing : Executing) (hbusy : session.executing ≠ .idle)
    (hturns : executing.turns = session.executing.turns)
    (hresponses : executing.responses = session.executing.responses) :
    { session with executing := executing }.Kept := by
  have hrunning := h.running (.inr hbusy)
  refine ⟨?_, fun hover => absurd hrunning hover, h.consumer, h.exits, h.failing, h.calm, ?_, ?_⟩
  · have hheld := h.held
    unfold ConfiguredSession.turns at hheld ⊢
    rw [hturns]
    exact hheld
  · have hrequest := h.request
    unfold ConfiguredSession.requests at hrequest ⊢
    rw [hresponses]
    exact hrequest
  · have hawaited := h.awaited
    unfold ConfiguredSession.requests at hawaited ⊢
    rw [hresponses]
    exact hawaited

theorem Kept.answerPrompt (hstep : session.answerPrompt = some next) :
    next.Kept := by
  unfold ConfiguredSession.answerPrompt at hstep
  split at hstep
  · rename_i turnId hexecuting
    cases hstep
    refine h.executing _ ?_ ?_ ?_
    · rw [hexecuting]
      nofun
    · rw [hexecuting]
      rfl
    · rw [hexecuting]
      rfl
  · cases hstep

theorem Kept.report (reported : List (List AcpSessionConfigOption)) :
    { session with reported := reported }.Kept :=
  ⟨h.held, h.ended, h.consumer, h.exits, h.failing, h.calm, h.request, h.awaited⟩

theorem Kept.answerConfig (options : Option (List AcpSessionConfigOption))
    (hstep : session.answerConfig options = some next) : next.Kept := by
  unfold ConfiguredSession.answerConfig at hstep
  split at hstep
  · rename_i configId value response hexecuting
    cases hstep
    have hkept := h.executing (.configured response (options.map (⟨session.reported.length, ·⟩)))
      (by rw [hexecuting]; nofun) (by rw [hexecuting]; rfl) (by rw [hexecuting]; rfl)
    exact hkept.report _
  · cases hstep

theorem Kept.passAnswer (hstep : session.passAnswer = some next) :
    next.Kept := by
  unfold ConfiguredSession.passAnswer at hstep
  split at hstep
  · rename_i turnId hexecuting
    have hrunning := h.running (.inr (by rw [hexecuting]; nofun))
    cases hstep
    refine ⟨?_, fun hover => absurd hrunning hover, h.consumer, ?_, h.failing, h.calm, ?_, ?_⟩
    · intro _
      refine (h.held hrunning).mono ?_ ?_
      · simp only [ConfiguredSession.turns, hexecuting, Executing.turns, List.length_append,
          List.flatMap_append, List.flatMap_singleton, promptEnded_turns, List.length_nil]
        omega
      · intro other hmem
        simp only [ConfiguredSession.turns, hexecuting, Executing.turns, List.mem_append,
          List.flatMap_append, List.flatMap_singleton, promptEnded_turns,
          List.not_mem_nil, or_false] at hmem ⊢
        tauto
    · intro _ message hmem
      rcases List.mem_append.mp hmem with hold | hnew
      · exact h.exits hrunning message hold
      · cases List.mem_singleton.mp hnew
    · simpa [ConfiguredSession.requests, hexecuting, Executing.responses] using h.request
    · simpa [ConfiguredSession.requests, hexecuting, Executing.responses] using h.awaited
  · rename_i response answer hexecuting
    have hrunning := h.running (.inr (by rw [hexecuting]; nofun))
    have hcall : session.configCall = some (.await response) := by
      refine h.awaited response ?_
      simp [ConfiguredSession.requests, hexecuting, Executing.responses]
    cases hstep
    have hrequests : session.commands.flatMap (·.responses) = [] := by
      have hrequest := h.request
      simp only [ConfiguredSession.requests, hexecuting, Executing.responses, List.length_append,
        List.length_singleton] at hrequest
      exact List.eq_nil_of_length_eq_zero (by omega)
    have hnone : session.activeTurn = none := by
      refine h.calm ?_
      rw [hcall]
      rfl
    refine ⟨?_, fun hover => absurd hrunning hover, h.consumer, h.exits, h.failing,
      fun _ => hnone, ?_, ?_⟩
    · have hheld := h.held
      unfold ConfiguredSession.turns at hheld ⊢
      rw [hexecuting] at hheld
      exact hheld
    · simp [ConfiguredSession.requests, Executing.responses, hrequests]
    · simp [ConfiguredSession.requests, Executing.responses, hrequests]
  · cases hstep

theorem Kept.queueEvent (event : AgentRuntimeEvent) (hturns : event.turns = [])
    (hexit : ∀ message, .exited message ≠ event) (hstep : session.queueEvent event = some next) :
    next.Kept := by
  obtain ⟨hrunning, heq⟩ := Option.ite_none_right_eq_some.mp hstep
  cases heq
  refine ⟨?_, h.ended, h.consumer, ?_, h.failing, h.calm, h.request, h.awaited⟩
  · simpa [ConfiguredSession.turns, hturns] using h.held
  · intro _ message hmem
    rcases List.mem_append.mp hmem with hold | hnew
    · exact h.exits hrunning message hold
    · exact hexit message (List.mem_singleton.mp hnew)

theorem Kept.endTask (message : Option String)
    (hstep : session.endTask message = some next) : next.Kept := by
  unfold ConfiguredSession.endTask at hstep
  split at hstep
  · cases hstep
  · cases hstep
  · cases hstep
    refine ⟨nofun, fun _ => ⟨rfl, rfl⟩, nofun, nofun, nofun, h.calm, Nat.zero_le 1, ?_⟩
    exact fun _ hmem => absurd hmem List.not_mem_nil
  · cases hstep

theorem Kept.queueExit (hstep : session.queueExit = some next) :
    next.Kept := by
  unfold ConfiguredSession.queueExit at hstep
  split at hstep
  · rename_i message htask
    cases hstep
    refine ⟨nofun, fun _ => h.ended (by rw [htask]; nofun), nofun, nofun, nofun, h.calm, h.request,
      h.awaited⟩
  · cases hstep

end

section
variable (h : session.Kept)
include h

theorem Kept.consuming (consumer : RuntimeConsumer)
    (hrunning : session.task = .running → consumer = .waiting ∨ consumer = .stopped) :
    { session with consumer := consumer }.Kept :=
  ⟨h.held, h.ended, hrunning, h.exits, h.failing, h.calm, h.request, h.awaited⟩

theorem Kept.take (event : AgentRuntimeEvent) (queue : List AgentRuntimeEvent)
    (hqueue : session.queue = event :: queue) : { session with queue := queue }.Kept := by
  refine ⟨?_, h.ended, h.consumer, ?_, h.failing, h.calm, h.request, h.awaited⟩
  · intro hrunning
    refine (h.held hrunning).mono ?_ ?_
    · simp only [ConfiguredSession.turns, hqueue, List.length_append, List.flatMap_cons]
      omega
    · intro turnId hmem
      simp only [ConfiguredSession.turns, hqueue, List.mem_append, List.flatMap_cons] at hmem ⊢
      tauto
  · intro hrunning message hmem
    refine h.exits hrunning message ?_
    rw [hqueue]
    exact List.mem_cons_of_mem _ hmem

theorem Kept.promptEnded (turnId : ℕ) (queue : List AgentRuntimeEvent)
    (hqueue : session.queue = .promptEnded turnId :: queue) :
    { session with queue := queue, activeTurn := none }.Kept := by
  have htaken := h.take _ queue hqueue
  refine ⟨?_, h.ended, h.consumer, htaken.exits, h.failing, fun _ => rfl, h.request, h.awaited⟩
  intro hrunning
  have hlen := (h.held hrunning).1
  simp only [ConfiguredSession.turns, hqueue, List.flatMap_cons, promptEnded_turns,
    List.length_append, List.length_singleton] at hlen
  have hnil : ConfiguredSession.turns { session with queue := queue, activeTurn := none } = [] := by
    refine List.eq_nil_of_length_eq_zero ?_
    simp only [ConfiguredSession.turns, List.length_append]
    omega
  rw [hnil]
  exact held_nil _

theorem Kept.consume (ok : Bool) (hstep : session.consume ok = some next) :
    next.Kept := by
  unfold ConfiguredSession.consume at hstep
  split at hstep
  · rename_i event queue hconsumer hqueue
    have htaken := h.take event queue hqueue
    have hstopped := htaken.consuming .stopped (fun _ => .inr rfl)
    cases hstep
    cases happly : ConfiguredSession.applyEvent { session with queue := queue } ok event with
    | none => exact hstopped
    | some applied =>
      cases event with
      | agentTextChunk turnId | usage =>
        obtain ⟨-, heq⟩ := Option.ite_none_right_eq_some.mp happly
        cases heq
        exact htaken
      | configOptions report => exact htaken.applyOptions report ok happly
      | promptEnded turnId =>
        obtain ⟨-, heq⟩ := Option.ite_none_right_eq_some.mp happly
        cases heq
        exact h.promptEnded turnId queue hqueue
      | exited message =>
        cases happly
        refine htaken.consuming _ ?_
        intro hrunning
        refine absurd ?_ (h.exits hrunning message)
        rw [hqueue]
        exact List.mem_cons_self
  · cases hstep

theorem Kept.exit (ok : Bool) (hstep : session.exit ok = some next) :
    next.Kept := by
  have hover (consumer : RuntimeConsumer) (hconsumer : session.consumer = consumer)
      (hwaiting : consumer ≠ .waiting) (hstopped : consumer ≠ .stopped) :
      session.task ≠ .running := by
    intro hrunning
    rcases h.consumer hrunning with heq | heq
    · exact hwaiting (hconsumer.symm.trans heq)
    · exact hstopped (hconsumer.symm.trans heq)
  unfold ConfiguredSession.exit at hstep
  split at hstep
  · rename_i message turnId hconsumer
    have hover := hover _ hconsumer nofun nofun
    have happlying := h.consuming (.applying message) (fun hrunning => absurd hrunning hover)
    cases hstep
    cases turnId with
    | none => exact happlying
    | some turnId => exact happlying.finishLiveTurn hover turnId ok
  · rename_i message hconsumer
    have hover := hover _ hconsumer nofun nofun
    have hremoving (applied : Bool) :=
      h.consuming (.removing applied) (fun hrunning => absurd hrunning hover)
    split at hstep
    · cases hstep
      have hkept := hremoving true
      exact ⟨hkept.held, hkept.ended, hkept.consumer, hkept.exits, hkept.failing, hkept.calm,
        hkept.request, hkept.awaited⟩
    · cases hstep
      exact hremoving false
  · rename_i applied hconsumer
    have hover := hover _ hconsumer nofun nofun
    cases hstep
    exact h.consuming _ (fun hrunning => absurd hrunning hover)
  · cases hstep

theorem Kept.step (step : ConfigStep)
    (hstep : session.stepOrderly step = some next) : next.Kept := by
  obtain ⟨horderly, hstep⟩ := Option.ite_none_right_eq_some.mp hstep
  cases step with
  | setSessionConfig request => exact h.setSessionConfig request hstep
  | checkConfig => exact h.checkConfig hstep
  | sendConfig => exact h.sendConfig hstep
  | loseAnswer => exact h.loseAnswer hstep
  | applyAnswer ok => exact h.applyAnswer ok hstep
  | cancel => exact h.cancel horderly hstep
  | createTurn turnId ok => exact h.createTurn turnId ok hstep
  | sendPrompt index => exact h.sendPrompt index hstep
  | failTurn index ok => exact h.failTurn index ok hstep
  | takeCommand => exact h.takeCommand hstep
  | answerPrompt => exact h.answerPrompt hstep
  | answerConfig options => exact h.answerConfig options hstep
  | passAnswer => exact h.passAnswer hstep
  | notifyChunk turnId => exact h.queueEvent (.agentTextChunk turnId) rfl nofun hstep
  | notifyUsage => exact h.queueEvent .usage rfl nofun hstep
  | notifyConfig options =>
    obtain ⟨queued, hqueue, heq⟩ := Option.map_eq_some_iff.mp hstep
    rw [← heq]
    exact (h.queueEvent (.configOptions _) rfl nofun hqueue).report _
  | endTask message => exact h.endTask message hstep
  | queueExit => exact h.queueExit hstep
  | consume ok => exact h.consume ok hstep
  | exit ok => exact h.exit ok hstep

end

variable (session) in
structure Reported : Prop where
  present : ∃ options, session.reported[session.applied]? = some options ∧
    session.configOptions = normalizeAcpConfigOptions options
  stored : session.configValues = storedConfigValues session.configOptions
  genuine : ∀ report ∈ session.pending, session.reported[report.number]? = some report.options
  coming : session.consumer ≠ .stopped → ∀ number, session.applied < number →
    number < session.reported.length → ∃ report ∈ session.pending, report.number = number

section
variable (h : session.Reported)
include h

theorem Reported.settled (hsettled : session.Settled) :
    ∃ options, session.reported.getLast? = some options ∧
      session.configOptions = normalizeAcpConfigOptions options ∧
      session.configValues = storedConfigValues session.configOptions := by
  obtain ⟨options, hreported, hoptions⟩ := h.present
  have hpending : session.pending = [] := by
    simp [ConfiguredSession.pending, hsettled.queue, hsettled.executing, hsettled.call,
      Executing.reports]
  obtain ⟨hlt, -⟩ := List.getElem?_eq_some_iff.mp hreported
  have hlast : session.applied = session.reported.length - 1 := by
    by_contra hne
    have hconsumer : session.consumer ≠ .stopped := by
      rw [hsettled.consumer]
      nofun
    obtain ⟨report, hmem, -⟩ := h.coming hconsumer (session.applied + 1) (by omega) (by omega)
    rw [hpending] at hmem
    exact absurd hmem List.not_mem_nil
  refine ⟨options, ?_, hoptions, h.stored⟩
  rw [List.getLast?_eq_getElem?, ← hlast]
  exact hreported

theorem Reported.frame (hreported : next.reported = session.reported)
    (happlied : next.applied = session.applied)
    (hoptions : next.configOptions = session.configOptions)
    (hvalues : next.configValues = session.configValues)
    (hpending : ∀ report, report ∈ next.pending ↔ report ∈ session.pending)
    (hconsumer : next.consumer ≠ .stopped → session.consumer ≠ .stopped) : next.Reported := by
  obtain ⟨hpresent, hstored, hgenuine, hcoming⟩ := h
  refine ⟨?_, ?_, ?_, ?_⟩
  · rw [hreported, happlied, hoptions]
    exact hpresent
  · rw [hvalues, hoptions]
    exact hstored
  · intro report hmem
    rw [hreported]
    exact hgenuine report ((hpending report).mp hmem)
  · rw [hreported, happlied]
    intro hgoes number hlow hhigh
    obtain ⟨report, hmem, hnumber⟩ := hcoming (hconsumer hgoes) number hlow hhigh
    exact ⟨report, (hpending report).mpr hmem, hnumber⟩

theorem Reported.report (options : List AcpSessionConfigOption)
    (hreported : next.reported = session.reported ++ [options])
    (happlied : next.applied = session.applied)
    (hoptions : next.configOptions = session.configOptions)
    (hvalues : next.configValues = session.configValues)
    (hpending : ∀ report, report ∈ next.pending ↔
      report ∈ session.pending ∨ report = ⟨session.reported.length, options⟩)
    (hconsumer : next.consumer = session.consumer) : next.Reported := by
  have hold (number : ℕ) (acpOptions : List AcpSessionConfigOption)
      (hnumber : session.reported[number]? = some acpOptions) :
      next.reported[number]? = some acpOptions := by
    obtain ⟨hlt, -⟩ := List.getElem?_eq_some_iff.mp hnumber
    rw [hreported, List.getElem?_append_left hlt]
    exact hnumber
  obtain ⟨acpOptions, hpresent, heq⟩ := h.present
  refine ⟨⟨acpOptions, ?_, hoptions.trans heq⟩, ?_, ?_, ?_⟩
  · rw [happlied]
    exact hold _ _ hpresent
  · rw [hvalues, hoptions]
    exact h.stored
  · intro report hmem
    rcases (hpending report).mp hmem with hmem | hnew
    · exact hold _ _ (h.genuine report hmem)
    · rw [hnew, hreported]
      exact List.getElem?_concat_length
  · intro hgoes number hlow hhigh
    rw [hconsumer] at hgoes
    rw [happlied] at hlow
    rw [hreported, List.length_append, List.length_singleton] at hhigh
    by_cases hlast : number = session.reported.length
    · exact ⟨_, (hpending _).mpr (.inr rfl), hlast.symm⟩
    · obtain ⟨report, hmem, hnumber⟩ := h.coming hgoes number hlow (by omega)
      exact ⟨report, (hpending report).mpr (.inl hmem), hnumber⟩

theorem Reported.apply (report : ConfigReport)
    (hmem : report ∈ session.pending) (horder : session.inOrder report = true)
    (hreported : next.reported = session.reported)
    (happlied : next.applied =
      if session.configOptions = normalizeAcpConfigOptions report.options then
        max session.applied report.number else report.number)
    (hoptions : next.configOptions = normalizeAcpConfigOptions report.options)
    (hvalues : next.configValues = storedConfigValues next.configOptions)
    (hsub : ∀ other ∈ next.pending, other ∈ session.pending)
    (hpending : ∀ other ∈ session.pending, other = report ∨ other ∈ next.pending)
    (hconsumer : next.consumer = session.consumer) : next.Reported := by
  have hpresent : ∃ options, session.reported[next.applied]? = some options ∧
      next.configOptions = normalizeAcpConfigOptions options := by
    by_cases hlt : session.applied < report.number
    · have hnumber : next.applied = report.number := by
        rw [happlied, max_eq_right (Nat.le_of_lt hlt), ite_self]
      exact ⟨report.options, hnumber ▸ h.genuine report hmem, hoptions⟩
    · -- options that change nothing leave the report that is in force
      have hsame := (of_decide_eq_true horder).resolve_left hlt
      rw [happlied, if_pos hsame, max_eq_left (Nat.le_of_not_lt hlt), hoptions, ← hsame]
      exact h.present
  have happlied : session.applied ≤ next.applied ∧ report.number ≤ next.applied := by
    rw [happlied]
    split
    · exact ⟨Nat.le_max_left _ _, Nat.le_max_right _ _⟩
    · rename_i hdiffers
      exact ⟨Nat.le_of_lt ((of_decide_eq_true horder).resolve_right hdiffers), Nat.le_refl _⟩
  refine ⟨hreported ▸ hpresent, hvalues, ?_, ?_⟩
  · intro other hother
    rw [hreported]
    exact h.genuine other (hsub other hother)
  · intro hgoes number hlow hhigh
    rw [hconsumer] at hgoes
    rw [hreported] at hhigh
    obtain ⟨other, hother, heq⟩ := h.coming hgoes number (by omega) hhigh
    rcases hpending other hother with hsame | hrest
    · rw [hsame] at heq
      omega
    · exact ⟨other, hrest, heq⟩

theorem Reported.withCall (call : Option ConfigCall)
    (hold : session.configCall.toList.flatMap (·.reports) = [])
    (hnew : call.toList.flatMap (·.reports) = []) :
    { session with configCall := call }.Reported := by
  refine h.frame rfl rfl rfl rfl ?_ id
  intro report
  simp only [ConfiguredSession.pending, hold, hnew]

theorem Reported.ofCall (hstep : (∃ request, session.setSessionConfig request = some next) ∨
      session.checkConfig = some next ∨ session.loseAnswer = some next) : next.Reported := by
  rcases hstep with ⟨request, hstep⟩ | hstep | hstep
  · unfold ConfiguredSession.setSessionConfig at hstep
    split at hstep
    · cases hstep
      exact h
    · rename_i hfree
      simp only [not_or, Option.not_isSome_iff_eq_none] at hfree
      cases hstep
      exact h.withCall _ (by rw [hfree.2]; rfl) rfl
  · unfold ConfiguredSession.checkConfig at hstep
    split at hstep
    · rename_i request hcall
      have hold : session.configCall.toList.flatMap (·.reports) = [] := by
        rw [hcall]
        rfl
      split at hstep
      · cases hstep
        exact h.withCall none hold rfl
      · split at hstep
        · cases hstep
          exact h.withCall none hold rfl
        · split at hstep
          · cases hstep
            exact h.withCall none hold rfl
          · split at hstep
            · cases hstep
              exact h.withCall none hold rfl
            · cases hstep
              exact h.withCall _ hold rfl
    · cases hstep
  · unfold ConfiguredSession.loseAnswer at hstep
    split at hstep
    · rename_i response hcall
      split at hstep
      · cases hstep
      · cases hstep
        exact h.withCall none (by rw [hcall]; rfl) rfl
    · cases hstep

theorem Reported.sendConfig (hstep : session.sendConfig = some next) :
    next.Reported := by
  unfold ConfiguredSession.sendConfig at hstep
  split at hstep
  · rename_i configId value hcall
    have hold : session.configCall.toList.flatMap (·.reports) = [] := by
      rw [hcall]
      rfl
    split at hstep
    · cases hstep
      refine h.frame rfl rfl rfl rfl ?_ id
      intro report
      simp only [ConfiguredSession.pending, hold]
      rfl
    · cases hstep
      exact h.withCall none hold rfl
  · cases hstep

theorem Reported.cancel (horderly : session.orderly .cancel = true)
    (hstep : session.cancel = some next) : next.Reported := by
  unfold ConfiguredSession.cancel at hstep
  unfold ConfiguredSession.orderly at horderly
  split at hstep
  · rename_i response hcall
    cases hstep
    exact h.withCall none (by rw [hcall]; rfl) rfl
  · rename_i answer hcall
    rw [hcall] at horderly
    cases hstep
    refine h.withCall none ?_ rfl
    rw [hcall, Option.isNone_iff_eq_none.mp horderly]
    rfl
  · cases hstep

theorem Reported.applyAnswer (ok : Bool)
    (horderly : session.orderly (.applyAnswer ok) = true)
    (hstep : session.applyAnswer ok = some next) : next.Reported := by
  unfold ConfiguredSession.applyAnswer at hstep
  split at hstep
  · rename_i hcall
    cases hstep
    exact h.withCall none (by rw [hcall]; rfl) rfl
  · rename_i report hcall
    unfold ConfiguredSession.orderly at horderly
    rw [hcall] at horderly
    simp only [Option.toList_some, ConfigCall.reports, List.all_cons, List.all_nil, Bool.and_true,
      Bool.and_eq_true] at horderly
    obtain ⟨horder, hstorable⟩ := horderly
    have happly : ∃ applied, session.applyAgentConfigOptions report ok = some applied := by
      unfold ConfiguredSession.applyAgentConfigOptions
      rcases of_decide_eq_true hstorable with hsame | ⟨hok, hnodup⟩
      · exact ⟨_, if_pos hsame⟩
      · by_cases hsame : session.configOptions = normalizeAcpConfigOptions report.options
        · exact ⟨_, if_pos hsame⟩
        · rw [if_neg hsame, if_pos hok, replaceAgentSessionConfigValues, if_pos hnodup]
          exact ⟨_, rfl⟩
    obtain ⟨applied, happly⟩ := happly
    obtain ⟨values, heq, hvalues⟩ := applyOptions_spec report ok happly
    rw [happly, heq] at hstep
    cases hstep
    refine h.apply report ?_ horder rfl rfl rfl (hvalues h.stored) ?_ ?_ rfl
    · simp [ConfiguredSession.pending, hcall, ConfigCall.reports]
    · intro other hmem
      simp only [ConfiguredSession.pending, Option.getD_some, Option.toList_none, List.flatMap_nil,
        List.append_nil] at hmem ⊢
      exact List.mem_append_left _ hmem
    · intro other hmem
      simp only [ConfiguredSession.pending, Option.getD_some, hcall, Option.toList_none,
        Option.toList_some, List.flatMap_nil, List.append_nil, List.flatMap_singleton,
        ConfigCall.reports, List.mem_append, List.mem_singleton] at hmem ⊢
      exact hmem.symm
  · cases hstep

theorem Reported.ofTask
    (hstep : session.takeCommand = some next ∨ session.answerPrompt = some next ∨
      (∃ message, session.endTask message = some next) ∨ session.queueExit = some next) :
    next.Reported := by
  rcases hstep with hstep | hstep | ⟨message, hstep⟩ | hstep
  · unfold ConfiguredSession.takeCommand at hstep
    split at hstep
    · rename_i command commands hidle hcommands
      cases hstep
      refine h.frame rfl rfl rfl rfl ?_ id
      simp [ConfiguredSession.pending, hidle, Executing.reports]
    · cases hstep
  · unfold ConfiguredSession.answerPrompt at hstep
    split at hstep
    · rename_i turnId hexecuting
      cases hstep
      refine h.frame rfl rfl rfl rfl ?_ id
      simp [ConfiguredSession.pending, hexecuting, Executing.reports]
    · cases hstep
  · unfold ConfiguredSession.endTask at hstep
    split at hstep
    · cases hstep
    · cases hstep
    · rename_i hprompted hconfigured
      cases hstep
      refine h.frame rfl rfl rfl rfl ?_ id
      have hnone : session.executing.reports = [] := by
        cases hexecuting : session.executing with
        | idle | request command | prompted turnId => rfl
        | configured response answer => exact absurd hexecuting (hconfigured response answer)
      simp [ConfiguredSession.pending, Executing.reports]
    · cases hstep
  · unfold ConfiguredSession.queueExit at hstep
    split at hstep
    · cases hstep
      refine h.frame rfl rfl rfl rfl ?_ id
      simp [ConfiguredSession.pending, AgentRuntimeEvent.reports]
    · cases hstep

theorem Reported.answerConfig (options : Option (List AcpSessionConfigOption))
    (hstep : session.answerConfig options = some next) : next.Reported := by
  unfold ConfiguredSession.answerConfig at hstep
  split at hstep
  · rename_i configId value response hexecuting
    cases hstep
    cases options with
    | none =>
      refine h.frame (List.append_nil _) rfl rfl rfl ?_ id
      simp [ConfiguredSession.pending, hexecuting, Executing.reports]
    | some options =>
      refine h.report options rfl rfl rfl rfl ?_ rfl
      intro report
      simp only [ConfiguredSession.pending, hexecuting, Executing.reports, Option.map_some,
        Option.toList_some, List.mem_append, List.mem_singleton, List.append_nil]
      tauto
  · cases hstep

theorem Reported.passAnswer (hkept : session.Kept)
    (hstep : session.passAnswer = some next) : next.Reported := by
  unfold ConfiguredSession.passAnswer at hstep
  split at hstep
  · rename_i turnId hexecuting
    cases hstep
    refine h.frame rfl rfl rfl rfl ?_ id
    simp [ConfiguredSession.pending, hexecuting, Executing.reports, AgentRuntimeEvent.reports]
  · rename_i response answer hexecuting
    -- the call that asked still waits for the answer
    have hcall : session.configCall = some (.await response) := by
      refine hkept.awaited response ?_
      simp [ConfiguredSession.requests, hexecuting, Executing.responses]
    cases hstep
    refine h.frame rfl rfl rfl rfl ?_ id
    simp [ConfiguredSession.pending, hexecuting, hcall, Executing.reports, ConfigCall.reports]
  · cases hstep

theorem Reported.queueEvent (event : AgentRuntimeEvent)
    (hevent : event.reports = []) (hstep : session.queueEvent event = some next) :
    next.Reported := by
  obtain ⟨-, heq⟩ := Option.ite_none_right_eq_some.mp hstep
  cases heq
  refine h.frame rfl rfl rfl rfl ?_ id
  simp [ConfiguredSession.pending, hevent]

theorem Reported.notifyConfig (options : List AcpSessionConfigOption)
    (hstep : session.notifyConfig options = some next) : next.Reported := by
  obtain ⟨queued, hqueue, heq⟩ := Option.map_eq_some_iff.mp hstep
  obtain ⟨-, hqueued⟩ := Option.ite_none_right_eq_some.mp hqueue
  rw [← heq]
  cases hqueued
  refine h.report options rfl rfl rfl rfl ?_ rfl
  intro report
  simp only [ConfiguredSession.pending, List.flatMap_append, List.flatMap_singleton,
    AgentRuntimeEvent.reports, List.mem_append, List.mem_singleton]
  tauto

theorem Reported.finishLiveTurn (turnId : ℕ) (ok : Bool) :
    ((session.finishLiveTurn turnId ok).getD session).Reported := by
  unfold ConfiguredSession.finishLiveTurn
  split
  · exact h.frame rfl rfl rfl rfl (fun _ => Iff.rfl) id
  · exact h

theorem Reported.ofTurn (hstep : (∃ turnId ok, session.createTurn turnId ok = some next) ∨
      (∃ index, session.sendPrompt index = some next) ∨
      ∃ index ok, session.failTurn index ok = some next) : next.Reported := by
  rcases hstep with ⟨turnId, ok, hstep⟩ | ⟨index, hstep⟩ | ⟨index, ok, hstep⟩
  · unfold ConfiguredSession.createTurn at hstep
    split at hstep
    · cases hstep
      exact h
    · cases hstep
      exact h.frame rfl rfl rfl rfl (fun _ => Iff.rfl) id
  · obtain ⟨turnId, -, heq⟩ := Option.map_eq_some_iff.mp hstep
    rw [← heq]
    split
    · exact h.frame rfl rfl rfl rfl (fun _ => Iff.rfl) id
    · exact h.frame rfl rfl rfl rfl (fun _ => Iff.rfl) id
  · obtain ⟨turnId, -, heq⟩ := Option.map_eq_some_iff.mp hstep
    rw [← heq]
    have herased : { session with failing := session.failing.eraseIdx index }.Reported :=
      h.frame rfl rfl rfl rfl (fun _ => Iff.rfl) id
    exact herased.finishLiveTurn turnId ok

section
variable (event : AgentRuntimeEvent) (queue : List AgentRuntimeEvent)
  (hqueue : session.queue = event :: queue)
include event queue hqueue

theorem Reported.take (hevent : event.reports = []) : { session with queue := queue }.Reported := by
  refine h.frame rfl rfl rfl rfl ?_ id
  simp [ConfiguredSession.pending, hqueue, hevent]

theorem Reported.stop :
    { session with queue := queue, consumer := .stopped }.Reported := by
  refine ⟨h.present, h.stored, ?_, fun hgoes => absurd rfl hgoes⟩
  intro report hmem
  refine h.genuine report ?_
  simp only [ConfiguredSession.pending, hqueue, List.flatMap_cons, List.mem_append] at hmem ⊢
  tauto

end

theorem Reported.consume (ok : Bool)
    (horderly : session.orderly (.consume ok) = true) (hstep : session.consume ok = some next) :
    next.Reported := by
  unfold ConfiguredSession.consume at hstep
  split at hstep
  · rename_i event queue hconsumer hqueue
    cases hstep
    cases happly : ConfiguredSession.applyEvent { session with queue := queue } ok event with
    | none => exact h.stop event queue hqueue
    | some applied =>
      cases event with
      | agentTextChunk turnId | usage =>
        obtain ⟨-, heq⟩ := Option.ite_none_right_eq_some.mp happly
        cases heq
        exact h.take _ queue hqueue rfl
      | configOptions report =>
        unfold ConfiguredSession.orderly at horderly
        rw [hqueue] at horderly
        simp only [List.head?_cons, Option.all_some, AgentRuntimeEvent.reports, List.all_cons,
          List.all_nil, Bool.and_true] at horderly
        obtain ⟨values, heq, hvalues⟩ := applyOptions_spec report ok happly
        rw [heq]
        refine h.apply report ?_ horderly rfl rfl rfl (hvalues h.stored) ?_ ?_ rfl
        · simp [ConfiguredSession.pending, hqueue]
        · intro other hmem
          simp only [ConfiguredSession.pending, hqueue, List.flatMap_cons, List.mem_append] at hmem ⊢
          tauto
        · intro other hmem
          simp only [ConfiguredSession.pending, hqueue, List.flatMap_cons, configOptions_reports,
            List.mem_append, List.mem_singleton] at hmem ⊢
          tauto
      | promptEnded turnId =>
        obtain ⟨-, heq⟩ := Option.ite_none_right_eq_some.mp happly
        cases heq
        have htaken := h.take _ queue hqueue rfl
        exact htaken.frame rfl rfl rfl rfl (fun _ => Iff.rfl) id
      | exited message =>
        cases happly
        have htaken := h.take _ queue hqueue rfl
        refine htaken.frame rfl rfl rfl rfl (fun _ => Iff.rfl) ?_
        intro _ hstopped
        rw [show session.consumer = _ from hstopped] at hconsumer
        cases hconsumer
  · cases hstep

theorem Reported.exit (ok : Bool) (hstep : session.exit ok = some next) :
    next.Reported := by
  have hconsuming (consumer : RuntimeConsumer) (hconsumer : session.consumer ≠ .stopped) :
      { session with consumer := consumer }.Reported :=
    h.frame rfl rfl rfl rfl (fun _ => Iff.rfl) (fun _ => hconsumer)
  unfold ConfiguredSession.exit at hstep
  split at hstep
  · rename_i message turnId hconsumer
    have happlying := hconsuming (.applying message) (by rw [hconsumer]; nofun)
    cases hstep
    cases turnId with
    | none => exact happlying
    | some turnId => exact happlying.finishLiveTurn turnId ok
  · rename_i message hconsumer
    have hremoving (applied : Bool) :=
      hconsuming (.removing applied) (by rw [hconsumer]; nofun)
    split at hstep
    · cases hstep
      exact (hremoving true).frame rfl rfl rfl rfl (fun _ => Iff.rfl) id
    · cases hstep
      exact hremoving false
  · rename_i applied hconsumer
    cases hstep
    exact hconsuming _ (by rw [hconsumer]; nofun)
  · cases hstep

theorem Reported.step (hkept : session.Kept) (step : ConfigStep)
    (hstep : session.stepOrderly step = some next) : next.Reported := by
  obtain ⟨horderly, hstep⟩ := Option.ite_none_right_eq_some.mp hstep
  cases step with
  | setSessionConfig request => exact h.ofCall (.inl ⟨request, hstep⟩)
  | checkConfig => exact h.ofCall (.inr (.inl hstep))
  | sendConfig => exact h.sendConfig hstep
  | loseAnswer => exact h.ofCall (.inr (.inr hstep))
  | applyAnswer ok => exact h.applyAnswer ok horderly hstep
  | cancel => exact h.cancel horderly hstep
  | createTurn turnId ok => exact h.ofTurn (.inl ⟨turnId, ok, hstep⟩)
  | sendPrompt index => exact h.ofTurn (.inr (.inl ⟨index, hstep⟩))
  | failTurn index ok => exact h.ofTurn (.inr (.inr ⟨index, ok, hstep⟩))
  | takeCommand => exact h.ofTask (.inl hstep)
  | answerPrompt => exact h.ofTask (.inr (.inl hstep))
  | answerConfig options => exact h.answerConfig options hstep
  | passAnswer => exact h.passAnswer hkept hstep
  | notifyChunk turnId => exact h.queueEvent (.agentTextChunk turnId) rfl hstep
  | notifyUsage => exact h.queueEvent .usage rfl hstep
  | notifyConfig options => exact h.notifyConfig options hstep
  | endTask message => exact h.ofTask (.inr (.inr (.inl ⟨message, hstep⟩)))
  | queueExit => exact h.ofTask (.inr (.inr (.inr hstep)))
  | consume ok => exact h.consume ok horderly hstep
  | exit ok => exact h.exit ok hstep

end

end ConfiguredSession

theorem attached_kept (early : List (List AcpSessionConfigOption))
    (options : List AcpSessionConfigOption) (session : ConfiguredSession)
    (h : ConfiguredSession.attached early options = some session) :
    session.Kept ∧ session.Reported := by
  have hevents : ∀ event ∈ early.mapIdx fun number options =>
      AgentRuntimeEvent.configOptions ⟨number, options⟩, ∃ report,
        event = .configOptions report ∧ early[report.number]? = some report.options := by
    intro event hevent
    obtain ⟨number, hnumber, heq⟩ := List.mem_mapIdx.mp hevent
    exact ⟨⟨number, early[number]⟩, heq.symm, List.getElem?_eq_getElem hnumber⟩
  obtain ⟨values, hreplace, heq⟩ := Option.map_eq_some_iff.mp h
  obtain ⟨-, hsame⟩ := Option.ite_none_right_eq_some.mp hreplace
  rw [← heq, ← Option.some.inj hsame]
  refine ⟨⟨fun _ => ?_, fun _ => ⟨rfl, rfl⟩, fun _ => .inl rfl, ?_, fun _ => rfl,
    fun _ => rfl, Nat.zero_le 1, ?_⟩, ⟨options, List.getElem?_concat_length, rfl⟩, rfl, ?_, ?_⟩
  · refine (congrArg (ConfiguredSession.Held · none) (List.flatMap_eq_nil_iff.mpr ?_)).mpr
      (ConfiguredSession.held_nil _)
    intro event hevent
    obtain ⟨report, rfl, -⟩ := hevents event hevent
    rfl
  · intro _ message hmem
    obtain ⟨report, heq, -⟩ := hevents _ hmem
    cases heq
  · exact fun _ hmem => absurd hmem List.not_mem_nil
  · intro report hmem
    simp only [ConfiguredSession.pending, Executing.reports, Option.toList_none, List.flatMap_nil,
      List.append_nil, List.mem_flatMap] at hmem
    obtain ⟨event, hevent, hmem⟩ := hmem
    obtain ⟨other, rfl, hother⟩ := hevents event hevent
    rw [List.mem_singleton.mp hmem, List.getElem?_append_left]
    · exact hother
    · exact (List.getElem?_eq_some_iff.mp hother).1
  · intro _ number hlow hhigh
    have hlow : early.length < number := hlow
    simp only [List.length_append, List.length_singleton] at hhigh
    omega

theorem config_follows (early : List (List AcpSessionConfigOption))
    (options : List AcpSessionConfigOption) (steps : List ConfigStep)
    (first session : ConfiguredSession)
    (hattach : ConfiguredSession.attached early options = some first)
    (hrun : steps.foldlM ConfiguredSession.stepOrderly first = some session) :
    session.Follows := by
  have hkept : session.Kept ∧ session.Reported := by
    refine System.run_invariant ConfiguredSession.stepOrderly (fun s => s.Kept ∧ s.Reported) ?_
      steps (attached_kept early options first hattach) hrun
    exact fun session step next h hstep => ⟨h.1.step step hstep, h.2.step h.1 step hstep⟩
  exact ⟨hkept.1.exclusive, hkept.2.settled⟩

def modelOptions (currentValue : String) : List AcpSessionConfigOption :=
  [⟨"model", "Model", none,
    .select currentValue (.ungrouped [⟨"small", "Small", none⟩, ⟨"large", "Large", none⟩]),
    some .model⟩]

def chooseLarge : SetAgentSessionConfigReq := ⟨"model", .string "large"⟩

def requested : List ConfigStep :=
  [.setSessionConfig chooseLarge, .checkConfig, .sendConfig, .takeCommand]

def changeAndTurn : List ConfigStep :=
  .consume true :: requested ++
    [.answerConfig (some (modelOptions "large")), .passAnswer, .applyAnswer true, .createTurn 7 true,
    .sendPrompt 0, .takeCommand, .notifyConfig (modelOptions "small"),
    .answerPrompt, .passAnswer, .consume true, .consume true]

def cancelledChange : List ConfigStep := requested ++ [.cancel, .createTurn 7 true, .sendPrompt 0]

def lostAnswer : List ConfigStep :=
  requested ++ [.cancel, .answerConfig (some (modelOptions "large")), .passAnswer]

def lateNotification : List ConfigStep :=
  requested ++ [.notifyConfig (modelOptions "medium"),
    .answerConfig (some (modelOptions "large")), .passAnswer, .applyAnswer true, .consume true]

def lateAnswer : List ConfigStep :=
  requested ++ [.answerConfig (some (modelOptions "large")), .passAnswer,
    .notifyConfig (modelOptions "medium"), .consume true, .applyAnswer true]

def earlyNotification : List ConfigStep := [.consume true]

theorem config_follows_changeAndTurn : ∃ first session,
    ConfiguredSession.attached [modelOptions "small"] (modelOptions "small") = some first ∧
    changeAndTurn.foldlM ConfiguredSession.stepOrderly first = some session ∧
    session.Settled ∧ session.reported.length = 4 ∧ session.Follows := by
  refine ⟨_, _, rfl, rfl, ⟨rfl, rfl, rfl, rfl, rfl, rfl, rfl⟩, rfl, ?_⟩
  exact config_follows [modelOptions "small"] (modelOptions "small") changeAndTurn _ _ rfl rfl

theorem config_strays :
    (∃ first session,
      ConfiguredSession.attached [modelOptions "large"] (modelOptions "small") = some first ∧
      earlyNotification.foldlM ConfiguredSession.step first = some session ∧
      session.Settled ∧ ¬ session.Follows) ∧
    ∃ first, ConfiguredSession.attached [] (modelOptions "small") = some first ∧
    (∃ session, cancelledChange.foldlM ConfiguredSession.step first = some session ∧
      session.requests = [0] ∧ session.activeTurn = some 7 ∧ ¬ session.Follows) ∧
    (∃ session, lostAnswer.foldlM ConfiguredSession.step first = some session ∧
      session.Settled ∧ ¬ session.Follows) ∧
    (∃ session, lateNotification.foldlM ConfiguredSession.step first = some session ∧
      session.Settled ∧ ¬ session.Follows) ∧
    ∃ session, lateAnswer.foldlM ConfiguredSession.step first = some session ∧
      session.Settled ∧ ¬ session.Follows := by
  have hdiffer : ∀ session : ConfiguredSession, ∀ options : List AcpSessionConfigOption,
      session.Settled → session.reported.getLast? = some options →
      session.configOptions ≠ normalizeAcpConfigOptions options → ¬ session.Follows := by
    intro session options hsettled hlast hne hfollows
    obtain ⟨last, hreported, hoptions, -⟩ := hfollows.settled hsettled
    rw [hlast] at hreported
    cases hreported
    exact hne hoptions
  refine ⟨⟨_, _, rfl, rfl, ⟨rfl, rfl, rfl, rfl, rfl, rfl, rfl⟩, ?_⟩, _, rfl,
    ⟨_, rfl, rfl, rfl, ?_⟩, ⟨_, rfl, ⟨rfl, rfl, rfl, rfl, rfl, rfl, rfl⟩, ?_⟩,
    ⟨_, rfl, ⟨rfl, rfl, rfl, rfl, rfl, rfl, rfl⟩, ?_⟩,
    _, rfl, ⟨rfl, rfl, rfl, rfl, rfl, rfl, rfl⟩, ?_⟩
  · exact hdiffer _ (modelOptions "small") ⟨rfl, rfl, rfl, rfl, rfl, rfl, rfl⟩ rfl (by decide)
  · intro hfollows
    refine hfollows.exclusive (.inr ?_) (.inl ?_)
    · exact List.cons_ne_nil 0 []
    · exact Option.some_ne_none 7
  · exact hdiffer _ (modelOptions "large") ⟨rfl, rfl, rfl, rfl, rfl, rfl, rfl⟩ rfl (by decide)
  · exact hdiffer _ (modelOptions "large") ⟨rfl, rfl, rfl, rfl, rfl, rfl, rfl⟩ rfl (by decide)
  · exact hdiffer _ (modelOptions "medium") ⟨rfl, rfl, rfl, rfl, rfl, rfl, rfl⟩ rfl (by decide)

end Rieul.Agent.Config
