import Mathlib.Tactic.ByContra
import Rieul.RootUpdate.Control
import Mathlib.Data.List.Induction

/-!
# What a client that joined a check is told

The channel of a check takes one outcome.
-/

namespace Rieul.RootUpdate.Control

namespace Controller

def Live (host : Controller) (channel : ℕ) : Prop :=
  host.inner.completion = some channel ∧ (host.operation.isSome ∨ ∃ command,
    host.command = some command ∧ (command.launch = .accepted ∨ command.launch = .spawning))

/-- No outcome is `checking`, a subscriber has one when its operation has ended, and an outcome is
never replaced. -/
structure Answered (host : Controller) : Prop where
  answers : ∀ channel status, host.outcomes channel = some status → status.phase ≠ .checking
  ended : ∀ channel ∈ host.subscribers, host.outcomes channel = none → host.Live channel
  once : ∀ step next channel status, host.step step = some next →
    host.outcomes channel = some status → next.outcomes channel = some status

def Unstranded (host : Controller) : Step → Prop
  | .operation (.held _) => ∀ operation, host.operation = some operation →
      operation.task = .check true → operation.stage = .lock →
      ∀ channel ∈ host.subscribers, host.inner.completion = some channel →
        host.outcomes channel ≠ none
  | .join => ∀ operation, host.operation = some operation → operation.stage = .gaveUp →
      ∀ channel, host.inner.completion = some channel → host.outcomes channel ≠ none
  | _ => True

def Fits (host : Controller) (task : Task) : Stage → Prop
  | .done => ∀ channel, host.inner.completion = some channel → host.outcomes channel ≠ none
  | .gaveUp => task = .check true ∧ ∀ channel ∈ host.subscribers,
      host.inner.completion = some channel → host.outcomes channel ≠ none
  | .report phase _ => phase ≠ .checking
  | .staged | .install | .submit | .exit => ∀ deferDiscovery, task ≠ .check deferDiscovery
  | _ => True

def Fitting (host : Controller) (task : Task) : Prop :=
  match task with
  | .check _ => ∃ channel, host.inner.completion = some channel
  | _ => host.inner.completion = none

structure Kept (host : Controller) : Prop where
  answers : ∀ channel status, host.outcomes channel = some status → status.phase ≠ .checking
  ended : ∀ channel ∈ host.subscribers, host.outcomes channel = none → host.Live channel
  fresh : ∀ channel, host.channels ≤ channel →
    host.outcomes channel = none ∧ channel ∉ host.subscribers ∧
      host.inner.completion ≠ some channel
  joins : ∀ command, host.command = some command → command.caller = .join →
    command.task = .check false
  launching : ∀ command, host.command = some command → command.launch ≠ .returned →
    host.running = true ∧ host.operation = none
  accepted : ∀ command, host.command = some command →
    command.launch = .accepted ∨ command.launch = .spawning → host.Fitting command.task
  returned : ∀ command, host.command = some command → command.caller = .join →
    command.launch = .returned → ∃ channel, host.inner.completion = some channel ∧
      (host.outcomes channel ≠ none ∨
        ∃ operation, host.operation = some operation ∧ operation.task = .check false)
  operating : ∀ operation, host.operation = some operation → host.running = true ∧
    host.Fitting operation.task ∧ host.Fits operation.task operation.stage
  idle : host.running = true → host.operation.isSome ∨ ∃ command,
    host.command = some command ∧ command.launch ≠ .returned

variable {host next : Controller}

section
variable (host)

theorem publish_eq : host.publish = { host with outcomes := host.publish.outcomes } := by
  unfold publish
  split
  · split <;> rfl
  · rfl

@[simp] theorem publish_inner : host.publish.inner = host.inner := by rw [publish_eq]

@[simp] theorem publish_running : host.publish.running = host.running := by rw [publish_eq]

@[simp] theorem publish_command : host.publish.command = host.command := by rw [publish_eq]

@[simp] theorem publish_operation : host.publish.operation = host.operation := by rw [publish_eq]

@[simp] theorem publish_channels : host.publish.channels = host.channels := by rw [publish_eq]

@[simp] theorem publish_subscribers : host.publish.subscribers = host.subscribers := by
  rw [publish_eq]

end

theorem publish_outcomes {channel : ℕ} {status : UpdateStatus}
    (h : host.publish.outcomes channel = some status) :
    host.outcomes channel = some status ∨ (host.inner.completion = some channel ∧
      status = host.inner.status ∧ host.inner.status.phase ≠ .checking) := by
  unfold publish at h
  split at h
  · next current hcurrent =>
    split at h
    · next hnew =>
      dsimp only at h
      split at h
      · next heq => exact .inr ⟨heq ▸ hcurrent, (Option.some.inj h).symm, hnew.1⟩
      · exact .inl h
    · exact .inl h
  · exact .inl h

theorem publish_once {channel : ℕ} {status : UpdateStatus}
    (h : host.outcomes channel = some status) : host.publish.outcomes channel = some status := by
  unfold publish
  split
  · next current hcurrent =>
    split
    · next hnew =>
      have hne : channel ≠ current := by
        rintro rfl
        rw [hnew.2] at h
        cases h
      simp [hne, h]
    · exact h
  · exact h

/-- A status that is not `checking` answers the check that was launched last. -/
theorem publish_answers (hphase : host.inner.status.phase ≠ .checking) (channel : ℕ)
    (hchannel : host.inner.completion = some channel) : host.publish.outcomes channel ≠ none := by
  unfold publish
  rw [hchannel]
  dsimp only
  split
  · simp
  · next hold =>
    intro hnone
    exact hold ⟨hphase, hnone⟩

structure Tells (host next : Controller) : Prop where
  completion : next.inner.completion = host.inner.completion
  running : next.running = host.running
  channels : next.channels = host.channels
  subscribers : next.subscribers = host.subscribers
  once : ∀ channel status, host.outcomes channel = some status → next.outcomes channel = some status
  told : ∀ channel status, next.outcomes channel = some status →
    host.outcomes channel = some status ∨
      (host.inner.completion = some channel ∧ status.phase ≠ .checking)

theorem Tells.of_same (hcompletion : next.inner.completion = host.inner.completion)
    (hrunning : next.running = host.running) (hchannels : next.channels = host.channels)
    (hsubscribers : next.subscribers = host.subscribers)
    (houtcomes : next.outcomes = host.outcomes) : host.Tells next := by
  refine ⟨hcompletion, hrunning, hchannels, hsubscribers, ?_, ?_⟩
  · intro channel status h
    rw [houtcomes]
    exact h
  · intro channel status h
    rw [houtcomes] at h
    exact .inl h

theorem Tells.publish (h : host.Tells next) : host.Tells next.publish := by
  refine ⟨?_, ?_, ?_, ?_, ?_, ?_⟩
  · rw [publish_inner, h.completion]
  · rw [publish_running, h.running]
  · rw [publish_channels, h.channels]
  · rw [publish_subscribers, h.subscribers]
  · intro channel status hold
    exact publish_once (h.once channel status hold)
  · intro channel status hnew
    rcases publish_outcomes hnew with hnew | ⟨hcompletion, rfl, hphase⟩
    · exact h.told channel status hnew
    · exact .inr ⟨h.completion ▸ hcompletion, hphase⟩

theorem Tells.answered (h : host.Tells next) {channel : ℕ} (hold : host.outcomes channel ≠ none) :
    next.outcomes channel ≠ none := by
  obtain ⟨status, hstatus⟩ := Option.ne_none_iff_exists'.mp hold
  rw [h.once channel status hstatus]
  exact Option.some_ne_none status

theorem Tells.fitting (h : host.Tells next) {task : Task} (hold : host.Fitting task) :
    next.Fitting task := by
  unfold Fitting at hold ⊢
  rw [h.completion]
  exact hold

theorem Tells.fits (h : host.Tells next) {task : Task} {stage : Stage}
    (hold : host.Fits task stage) : next.Fits task stage := by
  cases stage with
  | done =>
    intro channel hchannel
    exact h.answered (hold channel (h.completion ▸ hchannel))
  | gaveUp =>
    refine ⟨hold.1, ?_⟩
    intro channel hmem hchannel
    exact h.answered (hold.2 channel (h.subscribers ▸ hmem) (h.completion ▸ hchannel))
  | _ => exact hold

theorem Tells.withStatus (host : Controller) (status : UpdateStatus) :
    host.Tells (host.withStatus status) := Tells.of_same rfl rfl rfl rfl rfl

theorem Tells.set (host : Controller) (phase : UpdatePhase) (reason : Option String) :
    host.Tells (host.set phase reason) :=
  (Tells.withStatus host { host.inner.status with phase := phase, reason := reason }).publish

section
variable (h : host.Kept) (htells : host.Tells next)
include h htells

theorem Kept.fresh_of_tells (channel : ℕ)
    (hle : next.channels ≤ channel) : next.outcomes channel = none ∧
      channel ∉ next.subscribers ∧ next.inner.completion ≠ some channel := by
  rw [htells.channels] at hle
  obtain ⟨hnone, hsubscribers, hcompletion⟩ := h.fresh channel hle
  rw [htells.subscribers, htells.completion]
  refine ⟨?_, hsubscribers, hcompletion⟩
  rw [Option.eq_none_iff_forall_ne_some]
  intro status hstatus
  rcases htells.told channel status hstatus with hold | ⟨hcurrent, -⟩
  · rw [hnone] at hold
    cases hold
  · exact hcompletion hcurrent

theorem Kept.answers_of_tells (channel : ℕ)
    (status : UpdateStatus) (hstatus : next.outcomes channel = some status) :
    status.phase ≠ .checking := by
  rcases htells.told channel status hstatus with hold | ⟨-, hphase⟩
  · exact h.answers channel status hold
  · exact hphase

theorem Kept.ended_of_tells (channel : ℕ)
    (hmem : channel ∈ next.subscribers) (hnone : next.outcomes channel = none) :
    host.Live channel := by
  refine h.ended channel (htells.subscribers ▸ hmem) ?_
  by_contra hold
  exact htells.answered hold hnone

theorem Kept.tells
    (hcommand : next.command = host.command) (hoperation : next.operation = host.operation) : next.Kept := by
  refine ⟨h.answers_of_tells htells, ?_, h.fresh_of_tells htells, ?_, ?_, ?_, ?_, ?_, ?_⟩
  · intro channel hmem hnone
    unfold Live
    rw [htells.completion, hcommand, hoperation]
    exact h.ended_of_tells htells channel hmem hnone
  · rw [hcommand]
    exact h.joins
  · rw [hcommand, hoperation, htells.running]
    exact h.launching
  · rw [hcommand]
    exact fun command hcommand hlaunch => htells.fitting (h.accepted command hcommand hlaunch)
  · rw [hcommand, hoperation, htells.completion]
    intro command hcommand hcaller hlaunch
    obtain ⟨channel, hchannel, hcase⟩ := h.returned command hcommand hcaller hlaunch
    exact ⟨channel, hchannel, hcase.imp_left htells.answered⟩
  · rw [hoperation, htells.running]
    intro operation hoperation
    obtain ⟨hrunning, hfitting, hfits⟩ := h.operating operation hoperation
    exact ⟨hrunning, htells.fitting hfitting, htells.fits hfits⟩
  · rw [hoperation, hcommand, htells.running]
    exact h.idle

end

theorem Kept.goOn (h : host.Kept) {operation : Operation}
    (hoperation : host.operation = some operation) {after : Controller} (htells : host.Tells after)
    (hcommand : after.command = host.command) (stage : Stage)
    (hfits : after.Fits operation.task stage) : (after.goOn operation stage).Kept := by
  obtain ⟨hrunning, hfitting, -⟩ := h.operating operation hoperation
  have hnone : ∀ command, host.command = some command → command.launch = .returned := by
    intro command hcommand
    by_contra hne
    have hidle := (h.launching command hcommand hne).2
    rw [hoperation] at hidle
    cases hidle
  have hgoes : host.Tells (after.goOn operation stage) := ⟨htells.completion, htells.running,
    htells.channels, htells.subscribers, htells.once, htells.told⟩
  refine ⟨h.answers_of_tells hgoes, ?_, h.fresh_of_tells hgoes, ?_, ?_, ?_, ?_, ?_, ?_⟩
  · intro channel hmem hno
    have hlive := h.ended_of_tells htells channel hmem hno
    exact ⟨htells.completion.trans hlive.1, .inl rfl⟩
  · intro command hsome
    exact h.joins command (hcommand ▸ hsome)
  · intro command hsome hne
    exact absurd (hnone command (hcommand ▸ hsome)) hne
  · intro command hsome hlaunch
    rw [hnone command (hcommand ▸ hsome)] at hlaunch
    rcases hlaunch with hlaunch | hlaunch <;> cases hlaunch
  · intro command hsome hcaller hlaunch
    obtain ⟨channel, hchannel, hcase⟩ := h.returned command (hcommand ▸ hsome) hcaller hlaunch
    refine ⟨channel, htells.completion.trans hchannel, ?_⟩
    rcases hcase with hold | ⟨other, hother, htask⟩
    · exact .inl (htells.answered hold)
    · cases hoperation.symm.trans hother
      exact .inr ⟨_, rfl, htask⟩
  · rintro _ ⟨⟩
    exact ⟨htells.running.trans hrunning, htells.fitting hfitting, hfits⟩
  · intro _
    exact .inl rfl

section
variable {operation : Operation} (h : host.Kept) (hoperation : host.operation = some operation)
include h hoperation

theorem Kept.fail (reason : String) {after : Controller} (htells : host.Tells after)
    (hcommand : after.command = host.command) : (after.fail operation reason).Kept := by
  unfold Controller.fail
  split <;> exact h.goOn hoperation htells hcommand _ nofun

theorem Kept.sets (phase : UpdatePhase) (reason : Option String) (stage : Stage)
    (hstage : (host.set phase reason).Fits operation.task stage) :
    ((host.set phase reason).goOn operation stage).Kept :=
  h.goOn hoperation (Tells.set host phase reason) (publish_command _) stage hstage

theorem Kept.settles {after : Controller} (htells : host.Tells after)
    (hcommand : after.command = host.command)
    (hanswers : ∀ channel, after.inner.completion = some channel → after.outcomes channel ≠ none) :
    (after.goOn operation (Stage.checked operation.task)).Kept := by
  refine h.goOn hoperation htells hcommand _ ?_
  unfold Stage.checked
  split
  · next htask =>
    intro deferDiscovery hcheck
    rw [htask] at hcheck
    cases hcheck
  · exact hanswers

theorem Kept.ends (hanswers : ∀ channel ∈ host.subscribers, host.inner.completion = some channel →
      host.outcomes channel ≠ none)
    (hjoined : operation.task = .check false → ∀ channel, host.inner.completion = some channel →
      host.outcomes channel ≠ none) :
    { host with running := false, operation := none }.Kept := by
  have hnone : ∀ command, host.command = some command → command.launch = .returned := by
    intro command hcommand
    by_contra hne
    have hidle := (h.launching command hcommand hne).2
    rw [hoperation] at hidle
    cases hidle
  refine ⟨h.answers, ?_, h.fresh, h.joins, ?_, h.accepted, ?_, ?_, ?_⟩
  · intro channel hmem hno
    exact absurd hno (hanswers channel hmem (h.ended channel hmem hno).1)
  · intro command hcommand hne
    exact absurd (hnone command hcommand) hne
  · intro command hcommand hcaller hlaunch
    obtain ⟨channel, hchannel, hcase⟩ := h.returned command hcommand hcaller hlaunch
    refine ⟨channel, hchannel, .inl ?_⟩
    rcases hcase with hold | ⟨other, hother, htask⟩
    · exact hold
    · cases hoperation.symm.trans hother
      exact hjoined htask channel hchannel
  · intro _ hsome
    cases hsome
  · intro hrunning
    cases hrunning

end

section
variable {operation : Operation} (h : host.Kept) (hoperation : host.operation = some operation)
include h hoperation

theorem Kept.keeps (stage : Stage) (hfits : host.Fits operation.task stage) :
    (host.goOn operation stage).Kept :=
  h.goOn hoperation (Tells.of_same rfl rfl rfl rfl rfl) rfl stage hfits

theorem Kept.fails (reason : String) : (host.fail operation reason).Kept :=
  h.fail hoperation reason (Tells.of_same rfl rfl rfl rfl rfl) rfl

/-- What is no check has no channel. -/
theorem Kept.fits_done (hother : ∀ deferDiscovery, operation.task ≠ .check deferDiscovery) :
    host.Fits operation.task .done := by
  have hfitting := (h.operating operation hoperation).2.1
  intro channel hchannel
  unfold Fitting at hfitting
  split at hfitting
  · next deferDiscovery htask => exact absurd htask (hother deferDiscovery)
  · rw [hfitting] at hchannel
    cases hchannel

theorem Kept.errorStep {reason : String} {now : ℕ}
    (hstep : host.operationStep operation operation.stage (.error reason now) = some next) :
    next.Kept := by
  cases hstage : operation.stage with
  | finish version =>
    rw [hstage] at hstep
    cases version with
    | none => cases hstep
    | some version =>
      cases hstep
      refine h.fail hoperation reason ?_ ?_
      · exact Tells.of_same rfl rfl rfl rfl rfl
      · rfl
  | announce | stamp | ready | download | verify | install | report | gaveUp | done =>
    rw [hstage] at hstep
    cases hstep
  | _ =>
    rw [hstage] at hstep
    cases hstep
    exact h.fails hoperation reason

theorem Kept.goOnStep {now : ℕ}
    (hstep : host.operationStep operation operation.stage (.goOn now) = some next) :
    next.Kept := by
  have hfits := (h.operating operation hoperation).2.2
  cases hstage : operation.stage with
  | announce | download version | verify | latest =>
    rw [hstage] at hstep
    cases hstep
    exact h.sets hoperation _ _ _ trivial
  | stamp =>
    rw [hstage] at hstep
    cases hstep
    refine h.goOn hoperation ?_ ?_ _ trivial
    · exact Tells.of_same rfl rfl rfl rfl rfl
    · rfl
  | ready =>
    rw [hstage] at hstep
    cases hstep
    refine h.settles hoperation (Tells.set host _ _) (publish_command _) ?_
    intro channel hchannel
    exact publish_answers (fun hphase => by cases hphase) channel (publish_inner _ ▸ hchannel)
  | fetch =>
    rw [hstage] at hstep
    cases hstep
    exact h.keeps hoperation _ trivial
  | finish version =>
    rw [hstage] at hstep
    cases hstep
    refine h.settles hoperation (Tells.publish (Tells.of_same rfl rfl rfl rfl rfl))
      (publish_command _) ?_
    intro channel hchannel
    refine publish_answers ?_ channel (publish_inner _ ▸ hchannel)
    cases version <;> exact nofun
  | install =>
    rw [hstage] at hstep hfits
    cases hstep
    exact h.sets hoperation _ _ _ hfits
  | submit | exit =>
    rw [hstage] at hstep hfits
    cases hstep
    exact h.keeps hoperation _ (h.fits_done hoperation hfits)
  | report phase reason =>
    rw [hstage] at hstep hfits
    cases hstep
    refine h.sets hoperation _ _ _ ?_
    intro channel hchannel
    refine publish_answers ?_ channel (publish_inner _ ▸ hchannel)
    exact hfits
  | gaveUp =>
    rw [hstage] at hstep hfits
    cases hstep
    refine h.ends hoperation hfits.2 ?_
    intro htask
    rw [hfits.1] at htask
    cases htask
  | done =>
    rw [hstage] at hstep hfits
    cases hstep
    exact h.ends hoperation (fun channel _ => hfits channel) fun _ => hfits
  | staged | lock | journal | verifyInstalled | lookup | validate =>
    rw [hstage] at hstep
    cases hstep

theorem Kept.operationStep {answer : Answer} (hfree : host.Unstranded (.operation answer))
    (hstep : host.operationStep operation operation.stage answer = some next) : next.Kept := by
  have hstatus (status : UpdateStatus) (stage : Stage)
      (hstage : (host.withStatus status).Fits operation.task stage) :
      ((host.withStatus status).goOn operation stage).Kept :=
    h.goOn hoperation (Tells.withStatus host status) rfl stage hstage
  cases answer with
  | error reason now => exact h.errorStep hoperation hstep
  | goOn now => exact h.goOnStep hoperation hstep
  | noJournal =>
    cases hstage : operation.stage <;> rw [hstage] at hstep <;> cases hstep
    · exact h.keeps hoperation _ trivial
    · exact h.keeps hoperation _ trivial
  | journal old new prepared =>
    have hfits := (h.operating operation hoperation).2.2
    cases hstage : operation.stage <;> rw [hstage] at hstep hfits <;> cases hstep
    · exact h.keeps hoperation _ hfits
    · exact hstatus _ _ trivial
  | held now =>
    cases hstage : operation.stage <;> rw [hstage] at hstep <;> cases hstep
    have hwaits : host.Tells (host.deferDiscovery now) := Tells.of_same rfl rfl rfl rfl rfl
    unfold Controller.lockHeld
    split
    · next htask =>
      refine h.goOn hoperation hwaits rfl _ ⟨htask, ?_⟩
      exact hfree operation hoperation htask hstage
    · exact h.fail hoperation _ hwaits rfl
    · exact h.fails hoperation _
  | acquired =>
    cases hstage : operation.stage <;> rw [hstage] at hstep <;> cases hstep
    split
    · refine h.goOn hoperation ?_ ?_ _ trivial
      · exact Tells.of_same rfl rfl rfl rfl rfl
      · rfl
    · exact h.keeps hoperation _ trivial
  | installed version =>
    cases hstage : operation.stage <;> rw [hstage] at hstep <;> cases hstep
    exact hstatus _ _ trivial
  | found version =>
    cases version with
    | none =>
      cases hstage : operation.stage <;> rw [hstage] at hstep <;> cases hstep
      exact h.keeps hoperation _ trivial
    | some version =>
      cases hstage : operation.stage <;> rw [hstage] at hstep <;> cases hstep
      exact hstatus _ _ trivial
  | prepared version =>
    -- the policy may be off, or the release is validated
    cases hstage : operation.stage <;> rw [hstage] at hstep <;> cases version <;> cases hstep
    all_goals exact h.keeps hoperation _ trivial
  | busy reason =>
    cases hstage : operation.stage <;> rw [hstage] at hstep <;> cases hstep
    exact h.keeps hoperation _ nofun

end

theorem Kept.enter (h : host.Kept) (hfree : host.command = none) (hidle : host.running = false)
    (caller : Caller) (task : Task) (hjoin : caller = .join → task = .check false) :
    (host.enter caller task).Kept := by
  have hnone : host.operation = none := by
    rw [Option.eq_none_iff_forall_ne_some]
    intro operation hoperation
    have hrunning := (h.operating operation hoperation).1
    rw [hidle] at hrunning
    cases hrunning
  refine ⟨h.answers, ?_, h.fresh, ?_, ?_, ?_, ?_, ?_, ?_⟩
  · intro channel hmem hno
    obtain ⟨_, hsome | ⟨command, hcommand, _⟩⟩ := h.ended channel hmem hno
    · rw [hnone] at hsome
      cases hsome
    · rw [hfree] at hcommand
      cases hcommand
  · rintro _ ⟨⟩ hcaller
    exact hjoin hcaller
  · rintro _ ⟨⟩ _
    exact ⟨rfl, hnone⟩
  · rintro _ ⟨⟩ hlaunch
    rcases hlaunch with hlaunch | hlaunch <;> cases hlaunch
  · rintro _ ⟨⟩ _ hlaunch
    cases hlaunch
  · intro operation hoperation
    exact absurd (hnone.symm.trans hoperation) (Option.some_ne_none _).symm
  · intro _
    exact .inr ⟨_, rfl, fun hlaunch => by cases hlaunch⟩

/-- The caller lets `command` go, and its receivers are of the check that was launched last. -/
theorem Kept.releases (h : host.Kept) (hcommand : ∀ command, host.command = some command →
      command.launch = .returned) (ticking : Option Tick) (subscribers : List ℕ)
    (hsubscribers : ∀ channel ∈ subscribers, channel ∈ host.subscribers ∨
      (host.inner.completion = some channel ∧ (host.outcomes channel ≠ none ∨
        ∃ operation, host.operation = some operation ∧ operation.stage ≠ .gaveUp))) :
    { host with command := none, ticking := ticking, subscribers := subscribers }.Kept := by
  refine ⟨h.answers, ?_, ?_, ?_, ?_, ?_, ?_, ?_, ?_⟩
  · intro channel hmem hno
    rcases hsubscribers channel hmem with hold | ⟨hchannel, hanswered | ⟨operation, hoperation, _⟩⟩
    · obtain ⟨hchannel, hsome | ⟨command, hsome, hlaunch⟩⟩ := h.ended channel hold hno
      · exact ⟨hchannel, .inl hsome⟩
      · rw [hcommand command hsome] at hlaunch
        rcases hlaunch with hlaunch | hlaunch <;> cases hlaunch
    · exact absurd hno hanswered
    · exact ⟨hchannel, .inl (Option.isSome_iff_exists.mpr ⟨operation, hoperation⟩)⟩
  · intro channel hle
    obtain ⟨hno, hnever, hother⟩ := h.fresh channel hle
    refine ⟨hno, ?_, hother⟩
    intro hmem
    rcases hsubscribers channel hmem with hold | ⟨hchannel, _⟩
    · exact hnever hold
    · exact hother hchannel
  · exact nofun
  · exact nofun
  · exact nofun
  · exact nofun
  · intro operation hoperation
    obtain ⟨hrunning, hfitting, hfits⟩ := h.operating operation hoperation
    refine ⟨hrunning, hfitting, ?_⟩
    cases hstage : operation.stage with
    | gaveUp =>
      rw [hstage] at hfits
      refine ⟨hfits.1, ?_⟩
      intro channel hmem hchannel
      rcases hsubscribers channel hmem with hold | ⟨_, hanswered | ⟨other, hother, hne⟩⟩
      · exact hfits.2 channel hold hchannel
      · exact hanswered
      · cases hoperation.symm.trans hother
        exact absurd hstage hne
    | _ =>
      rw [hstage] at hfits
      exact hfits
  · intro hrunning
    rcases h.idle hrunning with hsome | ⟨command, hsome, hne⟩
    · exact .inl hsome
    · exact absurd (hcommand command hsome) hne

theorem Kept.settled (h : host.Kept) {command : Command} (hcommand : host.command = some command)
    (hlaunch : command.launch = .admitted) (channel : ℕ) (hmem : channel ∈ host.subscribers) :
    host.outcomes channel ≠ none := by
  intro hno
  obtain ⟨_, hsome | ⟨other, hother, hcase⟩⟩ := h.ended channel hmem hno
  · have hnone := (h.launching command hcommand (fun heq => by cases heq.symm.trans hlaunch)).2
    rw [hnone] at hsome
    cases hsome
  · cases hcommand.symm.trans hother
    rw [hlaunch] at hcase
    rcases hcase with hcase | hcase <;> cases hcase

theorem Kept.launchStep {command : Command} (h : host.Kept)
    (hcommand : host.command = some command) : (host.launchStep command).Kept := by
  obtain ⟨caller, task, launch⟩ := command
  have hjoins := h.joins _ hcommand
  cases launch with
  | admitted =>
    obtain ⟨hrunning, hnone⟩ := h.launching _ hcommand nofun
    have hsettled := h.settled hcommand rfl
    have hoperation : ∀ operation, host.operation ≠ some operation := by
      intro operation hsome
      rw [hnone] at hsome
      cases hsome
    cases task with
    | check deferDiscovery =>
      refine ⟨h.answers, ?_, ?_, ?_, ?_, ?_, ?_, ?_, ?_⟩
      · exact fun channel hmem hno => absurd hno (hsettled channel hmem)
      · intro channel hle
        have hle : host.channels + 1 ≤ channel := hle
        obtain ⟨hno, hnever, _⟩ := h.fresh channel (by omega)
        refine ⟨hno, hnever, ?_⟩
        intro hsome
        have hsame : host.channels = channel := Option.some.inj hsome
        omega
      · rintro _ ⟨⟩
        exact hjoins
      · rintro _ ⟨⟩ _
        exact ⟨hrunning, hnone⟩
      · rintro _ ⟨⟩ _
        exact ⟨host.channels, rfl⟩
      · rintro _ ⟨⟩ _ hlaunch
        cases hlaunch
      · exact fun operation hsome => absurd hsome (hoperation operation)
      · exact fun _ => .inr ⟨_, rfl, fun hlaunch => by cases hlaunch⟩
    | dispatch manual | restart =>
      refine ⟨h.answers, ?_, ?_, ?_, ?_, ?_, ?_, ?_, ?_⟩
      · exact fun channel hmem hno => absurd hno (hsettled channel hmem)
      · intro channel hle
        obtain ⟨hno, hnever, _⟩ := h.fresh channel hle
        exact ⟨hno, hnever, fun hsome => by cases hsome⟩
      · rintro _ ⟨⟩
        exact hjoins
      · rintro _ ⟨⟩ _
        exact ⟨hrunning, hnone⟩
      · rintro _ ⟨⟩ _
        rfl
      · rintro _ ⟨⟩ _ hlaunch
        cases hlaunch
      · exact fun operation hsome => absurd hsome (hoperation operation)
      · exact fun _ => .inr ⟨_, rfl, fun hlaunch => by cases hlaunch⟩
  | accepted =>
    obtain ⟨hrunning, hnone⟩ := h.launching _ hcommand nofun
    have hfitting := h.accepted _ hcommand (.inl rfl)
    -- another section may have published in between
    have hspawning : { host with command := some ⟨caller, task, .spawning⟩ }.Kept := by
      refine ⟨h.answers, ?_, h.fresh, ?_, ?_, ?_, ?_, h.operating, ?_⟩
      · intro channel hmem hno
        exact ⟨(h.ended channel hmem hno).1, .inr ⟨_, rfl, .inr rfl⟩⟩
      · rintro _ ⟨⟩
        exact hjoins
      · rintro _ ⟨⟩ _
        exact ⟨hrunning, hnone⟩
      · rintro _ ⟨⟩ _
        exact hfitting
      · rintro _ ⟨⟩ _ hlaunch
        cases hlaunch
      · exact fun _ => .inr ⟨_, rfl, fun hlaunch => by cases hlaunch⟩
    exact hspawning.tells (Tells.set _ task.phase none) (publish_command _) (publish_operation _)
  | spawning =>
    obtain ⟨hrunning, hnone⟩ := h.launching _ hcommand nofun
    have hfitting := h.accepted _ hcommand (.inr rfl)
    refine ⟨h.answers, ?_, h.fresh, ?_, ?_, ?_, ?_, ?_, ?_⟩
    · intro channel hmem hno
      exact ⟨(h.ended channel hmem hno).1, .inl rfl⟩
    · rintro _ ⟨⟩
      exact hjoins
    · rintro _ ⟨⟩ hne
      exact absurd rfl hne
    · rintro _ ⟨⟩ hlaunch
      rcases hlaunch with hlaunch | hlaunch <;> cases hlaunch
    · rintro _ ⟨⟩ hcaller _
      have htask := hjoins hcaller
      subst htask
      obtain ⟨channel, hchannel⟩ := hfitting
      exact ⟨channel, hchannel, .inr ⟨_, rfl, rfl⟩⟩
    · rintro _ ⟨⟩
      refine ⟨hrunning, hfitting, ?_⟩
      cases task with
      | check deferDiscovery => trivial
      | dispatch manual => cases manual <;> exact nofun
      | restart => exact nofun
    · exact fun _ => .inl rfl
  | returned =>
    have hreturned : ∀ command, host.command = some command → command.launch = .returned := by
      intro command hsome
      cases hcommand.symm.trans hsome
      rfl
    have hkept := fun ticking => h.releases hreturned ticking host.subscribers
      fun channel hmem => .inl hmem
    cases caller with
    | join =>
      obtain ⟨channel, hchannel, hcase⟩ := h.returned _ hcommand rfl rfl
      refine h.releases hreturned host.ticking _ ?_
      intro other hmem
      rw [hchannel] at hmem
      rcases List.mem_append.mp hmem with hold | hnew
      · exact .inl hold
      · obtain rfl := List.mem_singleton.mp hnew
        refine .inr ⟨hchannel, ?_⟩
        rcases hcase with hanswered | ⟨operation, hoperation, htask⟩
        · exact .inl hanswered
        · refine .inr ⟨operation, hoperation, ?_⟩
          intro hstage
          have hfits := (h.operating operation hoperation).2.2
          rw [hstage] at hfits
          cases htask.symm.trans hfits.1
    | tick => cases task <;> exact hkept _
    | restart => exact hkept _

theorem Kept.joinCheck (h : host.Kept) (hfree : host.Unstranded .join)
    (hstep : host.joinCheck = some next) : next.Kept := by
  unfold Controller.joinCheck at hstep
  split at hstep
  · next hcommand =>
    split at hstep
    · next hrunning =>
      split at hstep
      · next channel hchannel =>
        cases hstep
        have hnone : ∀ command, host.command = some command → command.launch = .returned := by
          intro command hsome
          rw [hcommand] at hsome
          cases hsome
        have hkept := h.releases hnone host.ticking (host.subscribers ++ [channel]) (by
          intro other hmem
          rcases List.mem_append.mp hmem with hold | hnew
          · exact .inl hold
          · obtain rfl := List.mem_singleton.mp hnew
            refine .inr ⟨hchannel, ?_⟩
            rcases h.idle hrunning with hsome | ⟨command, hsome, _⟩
            · obtain ⟨operation, hoperation⟩ := Option.isSome_iff_exists.mp hsome
              by_cases hstage : operation.stage = .gaveUp
              · exact .inl (hfree operation hoperation hstage other hchannel)
              · exact .inr ⟨operation, hoperation, hstage⟩
            · rw [hcommand] at hsome
              cases hsome)
        rw [← hcommand] at hkept
        exact hkept
      · cases hstep
    · next hidle =>
      cases hstep
      exact h.enter hcommand (Bool.eq_false_iff.mpr hidle) .join _ fun _ => rfl
  · cases hstep

theorem Kept.tick {step : TickStep} (h : host.Kept) (hstep : host.tick step = some next) :
    next.Kept := by
  cases step with
  | «begin» blocks now | clear =>
    unfold Controller.tick at hstep
    dsimp only at hstep
    split at hstep
    · cases hstep
      exact h.tells (Tells.of_same rfl rfl rfl rfl rfl) rfl rfl
    · cases hstep
  | observe status =>
    unfold Controller.tick at hstep
    dsimp only at hstep
    split at hstep
    · cases hstep
      split
      · exact h.tells (Tells.of_same rfl rfl rfl rfl rfl) rfl rfl
      · next status _ =>
        split
        · exact h.tells (Tells.of_same rfl rfl rfl rfl rfl) rfl rfl
        · have hobserved : ∀ tick : Option Tick, { host with ticking := tick }.Kept :=
            fun tick => h.tells (Tells.of_same rfl rfl rfl rfl rfl) rfl rfl
          split
          · exact (hobserved _).tells (Tells.set _ _ _) (publish_command _) (publish_operation _)
          · exact hobserved _
    · cases hstep
  | decide now =>
    unfold Controller.tick at hstep
    dsimp only at hstep
    split at hstep
    · cases hstep
      split
      · exact h.tells (Tells.of_same rfl rfl rfl rfl rfl) rfl rfl
      · split <;> exact h.tells (Tells.of_same rfl rfl rfl rfl rfl) rfl rfl
    · cases hstep
  | launch =>
    unfold Controller.tick at hstep
    dsimp only at hstep
    split at hstep
    · next task _ =>
      split at hstep
      · next hcommand =>
        cases hstep
        split
        · exact h.tells (Tells.of_same rfl rfl rfl rfl rfl) rfl rfl
        · next hidle =>
          exact h.enter hcommand (Bool.eq_false_iff.mpr hidle) .tick task fun hcaller => by
            cases hcaller
      · cases hstep
    · cases hstep

theorem Kept.queueInstall {status : UpdateStatus} (h : host.Kept)
    (hstep : host.queueInstall status = some next) : next.Kept := by
  unfold Controller.queueInstall at hstep
  split at hstep
  · split at hstep
    · cases hstep
      exact h.tells (Tells.publish (Tells.of_same rfl rfl rfl rfl rfl)) (publish_command _)
        (publish_operation _)
    · split at hstep
      · cases hstep
        exact h.tells (Tells.publish (Tells.of_same rfl rfl rfl rfl rfl)) (publish_command _)
          (publish_operation _)
      · cases hstep
  · cases hstep

theorem Kept.step {step : Step} (h : host.Kept) (hfree : host.Unstranded step)
    (hstep : host.step step = some next) : next.Kept := by
  cases step with
  | join => exact h.joinCheck hfree hstep
  | tick step => exact h.tick hstep
  | launch =>
    obtain ⟨command, hcommand, rfl⟩ := Option.map_eq_some_iff.mp hstep
    exact h.launchStep hcommand
  | queueInstall status => exact h.queueInstall hstep
  | requestRestart =>
    dsimp only [Controller.step, Controller.requestRestart] at hstep
    split at hstep
    · next hcan =>
      cases hstep
      exact h.enter hcan.1 hcan.2.2 .restart .restart fun hcaller => by cases hcaller
    · cases hstep
  | watched reason =>
    cases hstep
    exact h.tells (Tells.set host _ _) (publish_command _) (publish_operation _)
  | operation answer =>
    obtain ⟨operation, hoperation, hnext⟩ := Option.bind_eq_some_iff.mp hstep
    exact h.operationStep hoperation hfree hnext

section
variable {channel : ℕ} {status : UpdateStatus} (h : host.outcomes channel = some status)
include h

theorem fail_once (operation : Operation) (reason : String) :
    (host.fail operation reason).outcomes channel = some status := by
  unfold Controller.fail
  split <;> exact h

theorem operationStep_once {operation : Operation} {answer : Answer}
    (hstep : host.operationStep operation operation.stage answer = some next) :
    next.outcomes channel = some status := by
  unfold Controller.operationStep at hstep
  split at hstep
  case h_5 =>
    cases hstep
    unfold lockHeld
    split
    · exact h
    · refine fail_once ?_ _ _
      exact h
    · exact fail_once h _ _
  case h_6 =>
    cases hstep
    split <;> exact h
  all_goals cases hstep
  -- sections that keep the outcomes, that publish, and errors
  all_goals first
    | exact h
    | exact publish_once h
    | exact fail_once (by exact h) _ _

theorem launchStep_once (command : Command) :
    (host.launchStep command).outcomes channel = some status := by
  unfold Controller.launchStep
  split
  · split <;> exact h
  · exact publish_once h
  · exact h
  · split <;> exact h

theorem tick_once {step : TickStep} (hstep : host.tick step = some next) :
    next.outcomes channel = some status := by
  cases step with
  | «begin» blocks now | clear =>
    dsimp only [Controller.tick] at hstep
    split at hstep
    · cases hstep
      exact h
    · cases hstep
  | observe status =>
    dsimp only [Controller.tick] at hstep
    split at hstep
    · cases hstep
      split
      · exact h
      · split
        · exact h
        · split
          · exact publish_once h
          · exact h
    · cases hstep
  | decide now =>
    dsimp only [Controller.tick] at hstep
    split at hstep
    · cases hstep
      split
      · exact h
      · split <;> exact h
    · cases hstep
  | launch =>
    dsimp only [Controller.tick] at hstep
    split at hstep
    · split at hstep
      · cases hstep
        split <;> exact h
      · cases hstep
    · cases hstep

theorem step_once {step : Step} (hstep : host.step step = some next) :
    next.outcomes channel = some status := by
  cases step with
  | join =>
    dsimp only [Controller.step, Controller.joinCheck] at hstep
    split at hstep
    · split at hstep
      · split at hstep
        · cases hstep
          exact h
        · cases hstep
      · cases hstep
        exact h
    · cases hstep
  | tick step => exact tick_once h hstep
  | launch =>
    obtain ⟨command, -, rfl⟩ := Option.map_eq_some_iff.mp hstep
    exact launchStep_once h command
  | queueInstall status =>
    dsimp only [Controller.step, Controller.queueInstall] at hstep
    split at hstep
    · split at hstep
      · cases hstep
        exact publish_once h
      · split at hstep
        · cases hstep
          exact publish_once h
        · cases hstep
    · cases hstep
  | requestRestart =>
    dsimp only [Controller.step, Controller.requestRestart] at hstep
    split at hstep
    · cases hstep
      exact h
    · cases hstep
  | watched reason =>
    cases hstep
    exact publish_once h
  | operation answer =>
    obtain ⟨operation, -, hnext⟩ := Option.bind_eq_some_iff.mp hstep
    exact operationStep_once h hnext

end

theorem Kept.answered (h : host.Kept) : host.Answered :=
  ⟨h.answers, h.ended, fun _ _ _ _ hstep hold => step_once hold hstep⟩

theorem kept_initial : initial.Kept := by
  refine ⟨?_, ?_, ?_, ?_, ?_, ?_, ?_, ?_, ?_⟩
  · exact nofun
  · exact fun _ hmem => absurd hmem List.not_mem_nil
  · exact fun _ _ => ⟨rfl, List.not_mem_nil, fun hsome => by cases hsome⟩
  · exact nofun
  · exact nofun
  · exact nofun
  · exact nofun
  · exact nofun
  · exact nofun

def UnstrandedRun (steps : List Step) : Prop :=
  ∀ before step after host, steps = before ++ step :: after →
    before.foldlM Controller.step initial = some host → host.Unstranded step

theorem check_answered (steps : List Step) (host : Controller) (hfree : UnstrandedRun steps)
    (hrun : steps.foldlM step initial = some host) : host.Answered := by
  refine Kept.answered ?_
  induction steps using List.reverseRecOn generalizing host with
  | nil =>
    obtain rfl := Option.some.inj hrun
    exact kept_initial
  | append_singleton steps last ih =>
    rw [List.foldlM_append] at hrun
    obtain ⟨before, hbefore, hlast⟩ := Option.bind_eq_some_iff.mp hrun
    obtain ⟨after, hafter, hsome⟩ := Option.bind_eq_some_iff.mp hlast
    obtain rfl := Option.some.inj hsome
    refine (ih before ?_ hbefore).step (hfree steps last [] before rfl hbefore) hafter
    intro first step rest host hsteps
    exact hfree first step (rest ++ [last]) host (by rw [hsteps]; simp)

def stagedSteps : List Step :=
  List.replicate 4 .launch ++ [.operation (.goOn 0), .operation (.goOn 0), .operation .acquired,
    .operation (.journal "1.0.0" "1.0.1" true), .operation (.goOn 0), .operation (.goOn 0)]

theorem unstranded_of_first (steps : List Step)
    (h : ∀ step ∈ steps, step ≠ .join ∧ ∀ now, step ≠ .operation (.held now)) :
    UnstrandedRun (.join :: steps) := by
  intro before step after host hsteps hrun
  cases before with
  | nil =>
    obtain rfl := Option.some.inj hrun
    obtain ⟨rfl, -⟩ := List.cons.inj hsteps
    intro operation hoperation
    cases hoperation
  | cons first before =>
    obtain ⟨-, rfl⟩ := List.cons.inj hsteps
    obtain ⟨hjoin, hheld⟩ := h step (List.mem_append_right _ List.mem_cons_self)
    cases step with
    | join => exact absurd rfl hjoin
    | operation answer =>
      cases answer with
      | held now => exact absurd rfl (hheld now)
      | _ => trivial
    | _ => trivial

theorem check_answered_sample : ∃ host, (Step.join :: stagedSteps).foldlM step initial = some host ∧
    host.subscribers = [0] ∧ host.operation = none ∧
    host.outcomes 0 = some ⟨.ready, some "1.0.0", some "1.0.1",
      some "A verified update is already staged", true⟩ ∧ host.Answered := by
  have hrun : ((Step.join :: stagedSteps).foldlM step initial).map (fun host =>
      (host.subscribers, host.operation, host.outcomes 0)) =
      some ([0], none, some ⟨.ready, some "1.0.0", some "1.0.1",
        some "A verified update is already staged", true⟩) := by
    rfl
  obtain ⟨host, hhost, hview⟩ := Option.map_eq_some_iff.mp hrun
  simp only [Prod.mk.injEq] at hview
  obtain ⟨hsubscribers, hoperation, houtcome⟩ := hview
  refine ⟨host, hhost, hsubscribers, hoperation, houtcome, check_answered _ host ?_ hhost⟩
  refine unstranded_of_first _ ?_
  intro step hmem
  simp only [stagedSteps, List.replicate, List.cons_append, List.nil_append, List.mem_cons,
    List.not_mem_nil, or_false] at hmem
  rcases hmem with rfl | rfl | rfl | rfl | rfl | rfl | rfl | rfl | rfl | rfl <;>
    exact ⟨fun heq => (by cases heq), fun _ heq => (by cases heq)⟩

def strandedSteps : List Step :=
  [.tick (.begin (fun _ => false) 0), .tick (.observe (some initial.inner.status)),
    .tick (.decide 0), .tick .launch] ++ List.replicate 4 .launch ++
  [.join, .operation (.goOn 0), .operation (.goOn 0), .operation (.held 0), .operation (.goOn 0)]

theorem check_stranded : ¬ ∀ (steps : List Step) (host : Controller),
    steps.foldlM step initial = some host → host.Answered := by
  intro hall
  have hrun : (strandedSteps.foldlM step initial).map (fun host =>
      (host.subscribers, host.operation, host.command, host.outcomes 0)) =
      some ([0], none, none, none) := by
    rfl
  obtain ⟨host, hhost, hview⟩ := Option.map_eq_some_iff.mp hrun
  simp only [Prod.mk.injEq] at hview
  obtain ⟨hsubscribers, hoperation, hcommand, houtcome⟩ := hview
  have hmem : 0 ∈ host.subscribers := by
    rw [hsubscribers]
    exact List.mem_cons_self
  obtain ⟨-, hsome | ⟨command, hsome, -⟩⟩ := (hall strandedSteps host hhost).ended 0 hmem houtcome
  · rw [hoperation] at hsome
    cases hsome
  · rw [hcommand] at hsome
    cases hsome

end Controller

end Rieul.RootUpdate.Control
