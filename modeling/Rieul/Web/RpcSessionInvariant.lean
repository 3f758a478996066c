import Rieul.Web.RpcSession

/-!
# What a session controller keeps

Only one attempt belongs to a generation, and its promise is `rpcSession` until the next
generation begins.
-/

namespace Rieul.Web.RpcSession
open Rieul.Web (Machine)

def Attempt.Opening (attempt : Attempt) : Prop :=
  attempt.stage = .connecting ∨ attempt.stage = .connected

def Attempt.Open (attempt : Attempt) : Prop :=
  ∃ session, attempt.session = some session ∧ session.closed = false

def Attempt.Running (attempt : Attempt) : Prop :=
  (attempt.race = .pending ∧ (attempt.deadline = true ∨ attempt.aborted = true)) ∨
    ((∃ error, attempt.race = .rejected error) ∧ attempt.caught = false)

structure Attempt.Kept (attempt : Attempt) (managed : Prop) : Prop where
  opening : attempt.Opening → attempt.session = none ∧ attempt.transport = .opened
  transport : attempt.transport = .opened → attempt.Opening ∨ attempt.Open
  opened : attempt.Open → managed ∧ attempt.transport = .opened

structure Attempt.Live (attempt : Attempt) : Prop where
  caught : attempt.caught = false
  pending : attempt.race = .pending → attempt.deadline = true ∨ attempt.aborted = true
  resolved : attempt.race = .resolved → attempt.stage = .returned
  opened : attempt.Opening ∨ (∃ error, attempt.stage = .failed error) ∨ attempt.Open

theorem Attempt.Live.running {attempt : Attempt} (h : attempt.Live) :
    attempt.Running ∨ attempt.Open := by
  cases hrace : attempt.race with
  | pending => exact .inl (.inl ⟨hrace, h.pending hrace⟩)
  | rejected error => exact .inl (.inr ⟨⟨error, hrace⟩, h.caught⟩)
  | resolved =>
    rcases h.opened with hopening | ⟨error, hfailed⟩ | hopen
    · simp [Attempt.Opening, h.resolved hrace] at hopening
    · simp [h.resolved hrace] at hfailed
    · exact .inr hopen

def Stage.Managed : Stage → Prop
  | authenticating _ => True
  | renewing => True
  | renewed => True
  | returned => True
  | _ => False

structure Attempt.Fails (attempt next : Attempt) : Prop where
  generation : next.generation = attempt.generation
  caught : next.caught = attempt.caught
  race : next.race = attempt.race
  deadline : next.deadline = attempt.deadline
  aborted : next.aborted = attempt.aborted
  stage : ∃ error, next.stage = .failed error
  transport : next.transport = .closed
  closed : ¬ next.Open

theorem Attempt.not_opening {attempt : Attempt} (h : attempt.stage.Managed) : ¬ attempt.Opening := by
  rintro (hopening | hopening)
  · simp [hopening, Stage.Managed] at h
  · simp [hopening, Stage.Managed] at h

section
variable (attempt : Attempt)

@[simp] theorem Attempt.closeSession_generation :
    attempt.closeSession.generation = attempt.generation := by
  unfold Attempt.closeSession
  split <;> [split; skip] <;> rfl

@[simp] theorem Attempt.closeSession_stage : attempt.closeSession.stage = attempt.stage := by
  unfold Attempt.closeSession
  split <;> [split; skip] <;> rfl

@[simp] theorem Attempt.closeSession_race : attempt.closeSession.race = attempt.race := by
  unfold Attempt.closeSession
  split <;> [split; skip] <;> rfl

@[simp] theorem Attempt.closeSession_caught : attempt.closeSession.caught = attempt.caught := by
  unfold Attempt.closeSession
  split <;> [split; skip] <;> rfl

@[simp] theorem Attempt.closeSession_deadline :
    attempt.closeSession.deadline = attempt.deadline := by
  unfold Attempt.closeSession
  split <;> [split; skip] <;> rfl

@[simp] theorem Attempt.closeSession_aborted : attempt.closeSession.aborted = attempt.aborted := by
  unfold Attempt.closeSession
  split <;> [split; skip] <;> rfl

theorem Attempt.closeSession_not_open : ¬ attempt.closeSession.Open := by
  rintro ⟨session, hsession, hopen⟩
  unfold Attempt.closeSession at hsession
  split at hsession
  · split at hsession
    · simp_all
    · cases hsession
      simp [Session.close] at hopen
  · simp_all

theorem Attempt.closeSession_of_not_open (h : ¬ attempt.Open) : attempt.closeSession = attempt := by
  unfold Attempt.closeSession
  split
  · rename_i session hsession
    split
    · rfl
    · rename_i hclosed
      exact absurd ⟨session, hsession, by simpa using hclosed⟩ h
  · rfl

theorem Attempt.closeSession_of_open (h : attempt.Open) : attempt.closeSession.transport = .closed := by
  obtain ⟨session, hsession, hopen⟩ := h
  simp [Attempt.closeSession, hsession, hopen]

end

section
variable {attempt : Attempt} {managed : Prop}

theorem Attempt.Kept.close (h : attempt.Kept managed) : attempt.closeSession.Kept False := by
  by_cases hopen : attempt.Open
  · have hclosed := attempt.closeSession_of_open hopen
    have hstage : ¬ attempt.Opening := by
      intro hopening
      obtain ⟨session, hsession, _⟩ := hopen
      simp [(h.opening hopening).1] at hsession
    refine ⟨?_, ?_, fun hopen => absurd hopen attempt.closeSession_not_open⟩
    · intro hopening
      simp only [Attempt.Opening, Attempt.closeSession_stage] at hopening
      exact absurd hopening hstage
    · intro hopened
      rw [hclosed] at hopened
      cases hopened
  · rw [attempt.closeSession_of_not_open hopen]
    exact ⟨h.opening, h.transport, fun hopen' => absurd hopen' hopen⟩

theorem Attempt.Kept.mono {managed' : Prop} (h : attempt.Kept managed) (himp : managed → managed') :
    attempt.Kept managed' :=
  ⟨h.opening, h.transport, fun hopen => ⟨himp (h.opened hopen).1, (h.opened hopen).2⟩⟩

end

def Write.Current (write : Write) : Prop :=
  write.generation = write.sessionGeneration ∧ ∀ a, write.attempt = some a → write.rpcSession = some a

namespace Controller

def Of (s : Controller) (a generation : ℕ) : Prop :=
  ∃ attempt, s.attempts[a]? = some attempt ∧ attempt.generation = generation

def Holds (s : Controller) : Task → Prop
  | .initial generation (some a) => s.Of a generation
  | .orphan a => ∃ generation < s.sessionGeneration, s.Of a generation
  | .info generation a => s.Of a generation
  | .infoReply generation a => s.Of a generation
  | _ => True

structure Base (s : Controller) : Prop where
  timers : s.timers = s.retryTimer.toList
  waiting : s.retryTimer ≠ none → s.rpcSession = none
  managed : ∀ a, s.managed = some a → s.rpcSession = some a
  current : ∀ a, s.rpcSession = some a → s.Of a s.sessionGeneration
  past : ∀ a generation, s.Of a generation → generation ≤ s.sessionGeneration
  unique : ∀ a, s.Of a s.sessionGeneration → s.rpcSession = some a
  attempts : ∀ a (attempt : Attempt), s.attempts[a]? = some attempt →
    attempt.Kept (s.managed = some a)
  tasks : ∀ task ∈ s.tasks, s.Holds task
  writes : ∀ write ∈ s.writes, write.Current

structure Kept (s : Controller) : Prop extends Base s where
  active : s.rpcSession ≠ none ∨ s.retryTimer ≠ none → s.closed = false ∧ s.paused = false
  live : ∀ a (attempt : Attempt), s.rpcSession = some a → s.attempts[a]? = some attempt →
    attempt.Live

structure Served (s : Controller) : Prop where
  machine : s.machine ≠ none
  served : s.closed = false → s.paused = false → s.rpcSession ≠ none ∨ s.retryTimer ≠ none

/-- `present` says that the machine is never removed. -/
structure Good (present : Prop) (s : Controller) : Prop extends Kept s where
  served : present → s.Served

section
variable {s : Controller}

theorem getElem?_onAttempt (a b : ℕ) (f : Attempt → Attempt) :
    (s.onAttempt a f).attempts[b]? = if a = b then s.attempts[b]?.map f else s.attempts[b]? := by
  simp only [onAttempt, List.getElem?_modify]
  split
  · rfl
  · simp

theorem of_onAttempt (a b generation : ℕ) (f : Attempt → Attempt)
    (hf : ∀ attempt, s.attempts[a]? = some attempt → (f attempt).generation = attempt.generation) :
    (s.onAttempt a f).Of b generation ↔ s.Of b generation := by
  unfold Of
  rw [getElem?_onAttempt]
  split
  · rename_i hab
    subst hab
    cases h : s.attempts[a]? with
    | none => simp
    | some attempt => simp [hf attempt h]
  · rfl

theorem Holds.congr {t : Controller} {task : Task} (h : s.Holds task)
    (hof : ∀ a generation, s.Of a generation → t.Of a generation)
    (hgeneration : s.sessionGeneration ≤ t.sessionGeneration) : t.Holds task := by
  match task, h with
  | .initial _ (some _), h => exact hof _ _ h
  | .orphan _, ⟨generation, hlt, h⟩ => exact ⟨generation, by omega, hof _ _ h⟩
  | .info _ _, h => exact hof _ _ h
  | .infoReply _ _, h => exact hof _ _ h
  | .initial _ none, _ => trivial
  | .authenticated _ _, _ => trivial
  | .authenticating _ _, _ => trivial
  | .synchronize _, _ => trivial
  | .applied _ _, _ => trivial
  | .startPairing _, _ => trivial
  | .pairingStarted, _ => trivial
  | .completePairing _, _ => trivial
  | .credentials, _ => trivial
  | .paired _ _, _ => trivial

theorem Base.onAttempt (h : s.Base) (a : ℕ) (f : Attempt → Attempt)
    (hf : ∀ attempt, s.attempts[a]? = some attempt → (f attempt).generation = attempt.generation ∧
      (f attempt).Kept (s.managed = some a)) : (s.onAttempt a f).Base := by
  have hof := fun b generation => of_onAttempt a b generation f fun attempt ha => (hf attempt ha).1
  refine ⟨h.timers, h.waiting, h.managed, ?_, ?_, ?_, ?_, ?_, h.writes⟩
  · exact fun b hb => (hof _ _).mpr (h.current b hb)
  · exact fun b generation hb => h.past b generation ((hof _ _).mp hb)
  · exact fun b hb => h.unique b ((hof _ _).mp hb)
  · intro b attempt hb
    rw [getElem?_onAttempt] at hb
    split at hb
    · rename_i hab
      subst hab
      obtain ⟨before, hbefore, rfl⟩ := Option.map_eq_some_iff.mp hb
      exact (hf before hbefore).2
    · exact h.attempts b attempt hb
  · exact fun task htask => (h.tasks task htask).congr (fun b g hb => (hof b g).mpr hb) le_rfl

theorem Kept.onAttempt (h : s.Kept) (a : ℕ) (f : Attempt → Attempt)
    (hf : ∀ attempt, s.attempts[a]? = some attempt → (f attempt).generation = attempt.generation ∧
      (f attempt).Kept (s.managed = some a) ∧ (s.rpcSession = some a → (f attempt).Live)) :
    (s.onAttempt a f).Kept := by
  refine ⟨h.toBase.onAttempt a f fun attempt ha => ⟨(hf attempt ha).1, (hf attempt ha).2.1⟩,
    h.active, ?_⟩
  intro b attempt hb hattempt
  rw [getElem?_onAttempt] at hattempt
  split at hattempt
  · rename_i hab
    subst hab
    obtain ⟨before, hbefore, rfl⟩ := Option.map_eq_some_iff.mp hattempt
    exact (hf before hbefore).2.2 hb
  · exact h.live b attempt hb hattempt

variable {present : Prop}

theorem Good.onAttempt (h : s.Good present) (a : ℕ) (f : Attempt → Attempt)
    (hf : ∀ attempt, s.attempts[a]? = some attempt → (f attempt).generation = attempt.generation ∧
      (f attempt).Kept (s.managed = some a) ∧ (s.rpcSession = some a → (f attempt).Live)) :
    (s.onAttempt a f).Good present :=
  ⟨h.toKept.onAttempt a f hf, fun hp => ⟨(h.served hp).machine, (h.served hp).served⟩⟩

theorem Good.spawn (h : s.Good present) (task : Task) (htask : s.Holds task) :
    (s.spawn task).Good present := by
  have htasks : ∀ other ∈ task :: s.tasks, (s.spawn task).Holds other := by
    intro other hother
    rcases List.mem_cons.mp hother with rfl | hother
    · exact htask.congr (fun _ _ hof => hof) le_rfl
    · exact (h.tasks other hother).congr (fun _ _ hof => hof) le_rfl
  exact ⟨⟨{ h.toBase with tasks := htasks }, h.active, h.live⟩,
    fun hp => ⟨(h.served hp).machine, (h.served hp).served⟩⟩

theorem Good.eraseTask (h : s.Good present) (index : ℕ) :
    { s with tasks := s.tasks.eraseIdx index }.Good present := by
  have htasks : ∀ other ∈ s.tasks.eraseIdx index,
      { s with tasks := s.tasks.eraseIdx index }.Holds other := fun other hother =>
    (h.tasks other (List.mem_of_mem_eraseIdx hother)).congr (fun _ _ hof => hof) le_rfl
  exact ⟨⟨{ h.toBase with tasks := htasks }, h.active, h.live⟩,
    fun hp => ⟨(h.served hp).machine, (h.served hp).served⟩⟩

theorem Base.setState (h : s.Base) (generation : ℕ) (a : Option ℕ)
    (f : RpcSessionState → RpcSessionState) (hgeneration : generation = s.sessionGeneration)
    (ha : ∀ b, a = some b → s.Of b generation) : (s.setState generation a f).Base := by
  subst hgeneration
  have hwrites : ∀ write ∈ (s.setState s.sessionGeneration a f).writes, write.Current := by
    intro write hwrite
    rcases List.mem_cons.mp hwrite with rfl | hwrite
    · exact ⟨rfl, fun b hb => h.unique b (ha b hb)⟩
    · exact h.writes write hwrite
  have htasks : ∀ task ∈ s.tasks, (s.setState s.sessionGeneration a f).Holds task := fun task htask =>
    (h.tasks task htask).congr (fun _ _ hof => hof) le_rfl
  exact { h with tasks := htasks, writes := hwrites }

theorem Good.setState (h : s.Good present) (generation : ℕ) (a : Option ℕ)
    (f : RpcSessionState → RpcSessionState) (hgeneration : generation = s.sessionGeneration)
    (ha : ∀ b, a = some b → s.Of b generation) : (s.setState generation a f).Good present :=
  ⟨⟨h.toBase.setState generation a f hgeneration ha, h.active, h.live⟩,
    fun hp => ⟨(h.served hp).machine, (h.served hp).served⟩⟩

theorem Base.closed_of_ne (h : s.Base) (a : ℕ) (ha : s.rpcSession ≠ some a) :
    s.closeManagedRpcSession a = s := by
  have hsame : s.attempts.modify a Attempt.closeSession = s.attempts := by
    apply List.ext_getElem?
    intro b
    have hb := getElem?_onAttempt (s := s) a b Attempt.closeSession
    refine hb.trans ?_
    split
    · rename_i hab
      subst hab
      cases hattempt : s.attempts[a]? with
      | none => rfl
      | some attempt =>
        have hopen : ¬ attempt.Open := fun hopen =>
          ha (h.managed a ((h.attempts a attempt hattempt).opened hopen).1)
        rw [Option.map_some, attempt.closeSession_of_not_open hopen]
    · rfl
  unfold closeManagedRpcSession Controller.onAttempt
  rw [hsame]

theorem Good.onSession (h : s.Good present) (a : ℕ) (f : Session → Session)
    (hf : ∀ session, (f session).closed = session.closed) : (s.onSession a f).Good present := by
  have hopen : ∀ attempt : Attempt, (attempt.onSession f).Open ↔ attempt.Open := by
    intro attempt
    unfold Attempt.Open Attempt.onSession
    cases attempt.session with
    | none => simp
    | some session => simp [hf]
  refine h.onAttempt a _ fun attempt ha => ⟨rfl, ⟨?_, ?_, ?_⟩, ?_⟩
  · intro hopening
    have hkept := (h.attempts a attempt ha).opening hopening
    exact ⟨by simp [Attempt.onSession, hkept.1], hkept.2⟩
  · intro hopened
    rw [hopen]
    exact (h.attempts a attempt ha).transport hopened
  · rw [hopen]
    exact (h.attempts a attempt ha).opened
  · intro hcurrent
    have hlive := h.live a attempt hcurrent ha
    refine ⟨hlive.caught, hlive.pending, hlive.resolved, ?_⟩
    rw [hopen]
    exact hlive.opened

structure Idle (s : Controller) : Prop extends Kept s where
  rpcSession : s.rpcSession = none
  retryTimer : s.retryTimer = none

theorem getElem?_abortAttempt (attempts : List Attempt) (current : Option ℕ) (a : ℕ) :
    (abortAttempt attempts current)[a]? = attempts[a]?.map fun attempt =>
      if current = some a then { attempt with aborted := true } else attempt := by
  cases current with
  | none => simp [abortAttempt]
  | some b =>
    simp only [abortAttempt, List.getElem?_modify, Option.some.injEq]
    rfl

theorem getElem?_closeManaged (attempts : List Attempt) (managed : Option ℕ) (a : ℕ) :
    (closeManaged attempts managed)[a]? = attempts[a]?.map fun attempt =>
      if managed = some a then attempt.closeSession else attempt := by
  cases managed with
  | none => simp [closeManaged]
  | some b =>
    simp only [closeManaged, List.getElem?_modify, Option.some.injEq]
    rfl

theorem Base.cancelled (h : s.Base) : clearTimeout s.timers s.retryTimer = [] := by
  rw [h.timers]
  cases s.retryTimer with
  | none => rfl
  | some timer => simp [clearTimeout]

/-- An attempt after `invalidateSession`. -/
theorem getElem?_dropSession (a : ℕ) :
    s.dropSession.attempts[a]? = s.attempts[a]?.map fun attempt =>
      let attempt := if s.attempt = some a then { attempt with aborted := true } else attempt
      if s.managed = some a then attempt.closeSession else attempt := by
  show (closeManaged (abortAttempt s.attempts s.attempt) s.managed)[a]? = _
  rw [getElem?_closeManaged, getElem?_abortAttempt, Option.map_map]
  rfl

theorem of_dropSession (a generation : ℕ) : s.dropSession.Of a generation ↔ s.Of a generation := by
  unfold Of
  rw [getElem?_dropSession]
  cases s.attempts[a]? with
  | none => simp
  | some attempt =>
    simp only [Option.map_some, Option.some.injEq, exists_eq_left']
    split <;> split <;> simp

theorem Base.dropSession (h : s.Base) : s.dropSession.Idle := by
  have htimers : s.dropSession.timers = [] := h.cancelled
  have hpast : ∀ a generation, s.dropSession.Of a generation → generation < s.sessionGeneration + 1 :=
    fun a generation hof => Nat.lt_succ_of_le (h.past a generation ((of_dropSession _ _).mp hof))
  have hholds : ∀ task, s.Holds task → s.dropSession.Holds task := fun task htask =>
    htask.congr (fun a generation hof => (of_dropSession a generation).mpr hof) (Nat.le_succ _)
  refine ⟨⟨⟨htimers, fun _ => rfl, ?_, ?_, ?_, ?_, ?_, ?_, h.writes⟩, ?_, ?_⟩, rfl, rfl⟩
  · exact fun a ha => absurd ha (by simp [Controller.dropSession])
  · exact fun a ha => absurd ha (by simp [Controller.dropSession])
  · exact fun a generation hof => (hpast a generation hof).le
  · exact fun a hof => absurd (hpast a _ hof) (lt_irrefl _)
  · intro a attempt ha
    rw [getElem?_dropSession] at ha
    obtain ⟨before, hbefore, rfl⟩ := Option.map_eq_some_iff.mp ha
    have hkept := h.attempts a before hbefore
    dsimp only
    split
    · apply Attempt.Kept.mono (@Attempt.Kept.close _ (s.managed = some a) ?_) False.elim
      split
      · exact ⟨hkept.opening, hkept.transport, hkept.opened⟩
      · exact hkept
    · rename_i hmanaged
      have hclosed : ¬ before.Open := fun hopen => hmanaged (hkept.opened hopen).1
      split
      · exact ⟨hkept.opening, hkept.transport, fun hopen => absurd hopen hclosed⟩
      · exact ⟨hkept.opening, hkept.transport, fun hopen => absurd hopen hclosed⟩
  · intro task htask
    change task ∈ closeLater s.tasks s.rpcSession at htask
    cases hsession : s.rpcSession with
    | none =>
      rw [hsession] at htask
      exact hholds task (h.tasks task htask)
    | some a =>
      rw [hsession] at htask
      rcases List.mem_cons.mp htask with rfl | htask
      · exact ⟨s.sessionGeneration, Nat.lt_succ_self _, (of_dropSession _ _).mpr (h.current a hsession)⟩
      · exact hholds task (h.tasks task htask)
  · intro hactive
    simp [Controller.dropSession, cancelRetry] at hactive
  · intro a attempt ha
    simp [Controller.dropSession] at ha

theorem Idle.setState (h : s.Idle) (f : RpcSessionState → RpcSessionState) :
    (s.setState s.sessionGeneration none f).Idle :=
  ⟨⟨h.toBase.setState _ none f rfl fun _ hb => (nomatch hb), h.active, h.live⟩, h.rpcSession,
    h.retryTimer⟩

theorem Base.invalidateSession (h : s.Base) : s.invalidateSession.Idle := by
  unfold Controller.invalidateSession
  dsimp only
  split
  · exact h.dropSession
  · exact h.dropSession.setState _

@[simp] theorem invalidateSession_paused : s.invalidateSession.paused = s.paused := by
  unfold Controller.invalidateSession
  dsimp only
  split <;> rfl

@[simp] theorem invalidateSession_machine : s.invalidateSession.machine = s.machine := by
  unfold Controller.invalidateSession
  dsimp only
  split <;> rfl

theorem Idle.update (h : s.Idle) (paused : Bool) (retryCount : ℕ) :
    { s with paused, retryCount }.Idle := by
  have htasks : ∀ task ∈ s.tasks, { s with paused, retryCount }.Holds task := fun task htask =>
    (h.tasks task htask).congr (fun _ _ hof => hof) le_rfl
  refine ⟨⟨{ h.toBase with tasks := htasks }, ?_, h.live⟩, h.rpcSession, h.retryTimer⟩
  intro hactive
  simp [h.rpcSession, h.retryTimer] at hactive

theorem Idle.good (h : s.Idle) (hmachine : present → s.machine ≠ none)
    (hstopped : s.closed = true ∨ s.paused = true) : s.Good present := by
  refine ⟨h.toKept, fun hp => ⟨hmachine hp, ?_⟩⟩
  intro hclosed hpaused
  simp [hclosed, hpaused] at hstopped

theorem Idle.scheduleRetry (h : s.Idle) (hmachine : present → s.machine ≠ none) :
    s.scheduleRetry.Good present := by
  unfold Controller.scheduleRetry
  split
  · rename_i hstopped
    simp only [h.retryTimer, Option.isSome_none, Bool.or_false, Bool.or_eq_true] at hstopped
    exact h.good hmachine hstopped
  · rename_i hstopped
    simp only [Bool.or_eq_true, not_or, Bool.not_eq_true] at hstopped
    have htimers := h.timers
    rw [h.retryTimer] at htimers
    refine ⟨⟨⟨?_, fun _ => h.rpcSession, h.managed, h.current, h.past, h.unique, h.attempts, ?_,
      h.writes⟩, fun _ => hstopped.1, h.live⟩, fun hp => ⟨hmachine hp, ?_⟩⟩
    · simp [htimers]
    · exact fun task htask => (h.tasks task htask).congr (fun _ _ hof => hof) le_rfl
    · exact fun _ _ => .inr (by simp)

theorem Base.loseSession (h : s.Base) (generation : ℕ) (error : Option Error)
    (hclosed : s.closed = false) (hgeneration : generation = s.sessionGeneration)
    (hmachine : present → s.machine ≠ none) : (s.loseSession generation error).Good present := by
  unfold Controller.loseSession
  rw [if_neg (by simp [hclosed, hgeneration])]
  split
  · apply (h.invalidateSession.update true _).scheduleRetry
    simpa using hmachine
  · apply h.invalidateSession.scheduleRetry
    simpa using hmachine

theorem Kept.cancelRetry (h : s.Kept) : s.cancelRetry.Kept := by
  have htimers : s.cancelRetry.timers = [] := h.cancelled
  have htasks : ∀ task ∈ s.tasks, s.cancelRetry.Holds task := fun task htask =>
    (h.tasks task htask).congr (fun _ _ hof => hof) le_rfl
  refine ⟨⟨htimers, fun hnone => absurd rfl hnone, h.managed, h.current, h.past, h.unique, h.attempts,
    htasks, h.writes⟩, ?_, h.live⟩
  rintro (hsession | hnone)
  · exact h.active (.inl hsession)
  · exact absurd rfl hnone

/-- `getRpcSession` when it starts an attempt. -/
def startAttempt (s : Controller) (machine : Machine) : Controller :=
  { s with
    attempts := s.attempts ++ [{ generation := s.sessionGeneration, machine }]
    attempt := some s.attempts.length
    rpcSession := some s.attempts.length }

theorem of_startAttempt (machine : Machine) (a generation : ℕ) (h : (s.startAttempt machine).Of a generation) :
    s.Of a generation ∨ (a = s.attempts.length ∧ generation = s.sessionGeneration) := by
  obtain ⟨attempt, ha, hgeneration⟩ := h
  rcases lt_trichotomy a s.attempts.length with hlt | heq | hgt
  · exact .inl ⟨attempt, by rwa [startAttempt, List.getElem?_append_left hlt] at ha, hgeneration⟩
  · subst heq
    simp only [startAttempt, List.getElem?_concat_length, Option.some.injEq] at ha
    subst ha
    exact .inr ⟨rfl, hgeneration.symm⟩
  · simp only [startAttempt] at ha
    rw [List.getElem?_eq_none (by simp; omega)] at ha
    cases ha

theorem Kept.startAttempt (h : s.Kept) (machine : Machine) (hsession : s.rpcSession = none)
    (htimer : s.retryTimer = none) (hclosed : s.closed = false) (hpaused : s.paused = false) :
    (s.startAttempt machine).Kept := by
  have hkeeps : ∀ a generation, s.Of a generation → (s.startAttempt machine).Of a generation := by
    rintro a generation ⟨attempt, ha, hgeneration⟩
    have hlt : a < s.attempts.length := (List.getElem?_eq_some_iff.mp ha).1
    exact ⟨attempt, by rwa [Controller.startAttempt, List.getElem?_append_left hlt], hgeneration⟩
  have hnew : (s.startAttempt machine).attempts[s.attempts.length]? =
      some { generation := s.sessionGeneration, machine } := List.getElem?_concat_length
  have hmanaged : s.managed = none := by
    cases hm : s.managed with
    | none => rfl
    | some a => simp [h.managed a hm] at hsession
  refine ⟨⟨h.timers, fun hsome => absurd htimer hsome, ?_, ?_, ?_, ?_, ?_, ?_, h.writes⟩,
    fun _ => ⟨hclosed, hpaused⟩, ?_⟩
  · intro a ha
    rw [show (s.startAttempt machine).managed = none from hmanaged] at ha
    cases ha
  · intro a ha
    cases ha
    exact ⟨_, hnew, rfl⟩
  · intro a generation hof
    rcases of_startAttempt machine a generation hof with hof | ⟨_, rfl⟩
    · exact h.past a generation hof
    · exact le_rfl
  · intro a hof
    rcases of_startAttempt machine a _ hof with hof | ⟨rfl, _⟩
    · rw [h.unique a hof] at hsession
      cases hsession
    · rfl
  · intro a attempt ha
    rcases lt_trichotomy a s.attempts.length with hlt | heq | hgt
    · rw [Controller.startAttempt, List.getElem?_append_left hlt] at ha
      exact h.attempts a attempt ha
    · subst heq
      rw [hnew] at ha
      cases ha
      refine ⟨fun _ => ⟨rfl, rfl⟩, fun _ => .inl (.inl rfl), ?_⟩
      rintro ⟨session, hnone, _⟩
      cases hnone
    · simp only [Controller.startAttempt] at ha
      rw [List.getElem?_eq_none (by simp; omega)] at ha
      cases ha
  · exact fun task htask => (h.tasks task htask).congr hkeeps le_rfl
  · intro a attempt ha hattempt
    cases ha
    rw [hnew] at hattempt
    cases hattempt
    exact ⟨rfl, fun _ => .inl rfl, fun hnever => (by cases hnever), .inl (.inl rfl)⟩

/-- What `getRpcSession` does. -/
structure Got (s t : Controller) (promise : Except Error ℕ) : Prop where
  kept : t.Kept
  closed : t.closed = s.closed
  paused : t.paused = s.paused
  machine : t.machine = s.machine
  generation : t.sessionGeneration = s.sessionGeneration
  ok : ∀ a, promise = .ok a → t.rpcSession = some a
  error : ∀ error, promise = .error error → s.closed = true ∨ s.paused = true ∨ s.machine = none

theorem Kept.getRpcSession (h : s.Kept) : Got s s.getRpcSession.1 s.getRpcSession.2 := by
  unfold Controller.getRpcSession
  split
  · rename_i hstopped
    simp only [Bool.or_eq_true] at hstopped
    exact ⟨h, rfl, rfl, rfl, rfl, fun _ hok => (nomatch hok), fun _ _ => hstopped.imp_right .inl⟩
  · rename_i hstopped
    simp only [Bool.or_eq_true, not_or, Bool.not_eq_true] at hstopped
    split
    · rename_i a hsession
      refine ⟨h, rfl, rfl, rfl, rfl, ?_, fun _ herror => (nomatch herror)⟩
      intro b hb
      cases hb
      exact hsession
    · rename_i hsession
      dsimp only
      split
      · rename_i hmachine
        exact ⟨h.cancelRetry, rfl, rfl, rfl, rfl, fun _ hok => (nomatch hok),
          fun _ _ => .inr (.inr hmachine)⟩
      · rename_i machine hmachine
        refine ⟨h.cancelRetry.startAttempt machine hsession rfl hstopped.1 hstopped.2, rfl, rfl, rfl,
          rfl, ?_, fun _ herror => (nomatch herror)⟩
        intro a ha
        cases ha
        rfl

theorem Got.served {t : Controller} {promise : Except Error ℕ} (h : Got s t promise)
    (hmachine : s.machine ≠ none) : t.Served := by
  refine ⟨by rwa [h.machine], fun hclosed hpaused => ?_⟩
  cases hpromise : promise with
  | ok a => exact .inl (by simp [h.ok a hpromise])
  | error error =>
    rw [h.closed] at hclosed
    rw [h.paused] at hpaused
    simpa [hclosed, hpaused, hmachine] using h.error error hpromise

theorem Got.good {t : Controller} {promise : Except Error ℕ} (h : Got s t promise)
    (hmachine : present → s.machine ≠ none) : t.Good present :=
  ⟨h.kept, fun hp => h.served (hmachine hp)⟩

theorem Kept.openInitialSession (h : s.Kept) (hmachine : present → s.machine ≠ none) :
    s.openInitialSession.Good present := by
  have hgot := h.getRpcSession
  unfold Controller.openInitialSession
  cases hcall : s.getRpcSession with
  | mk t promise =>
    rw [hcall] at hgot
    have hgood := hgot.good hmachine
    cases promise with
    | ok a =>
      refine hgood.spawn _ ?_
      show t.Of a s.sessionGeneration
      rw [← hgot.generation]
      exact hgood.current a (hgot.ok a rfl)
    | error error =>
      dsimp only
      split
      · exact hgood.spawn _ trivial
      · unfold openFailed
        split
        · exact hgood.setState _ _ _ hgot.generation.symm fun _ hb => (nomatch hb)
        · exact hgood

end

end Controller
end Rieul.Web.RpcSession
