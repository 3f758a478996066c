import Rieul.Web.RpcSessionInvariant

/-!
# Runs of a session controller

No step of the controller, of an attempt or of a task breaks what is kept.
-/

namespace Rieul.Web.RpcSession
open Rieul.Web (Machine)

namespace Controller

section
variable {s : Controller} {present : Prop}

theorem Good.reconnect (h : s.Good present) : s.reconnect.Good present := by
  unfold Controller.reconnect
  split
  · exact h
  · apply (h.invalidateSession.update false 0).openInitialSession
    exact fun hp => by simpa using (h.served hp).machine

theorem Base.closeRpcSession (h : s.Base) (hmachine : present → s.machine ≠ none) :
    s.closeRpcSession.Good present := by
  have hbase : { s with paused := true }.Base := by
    have htasks : ∀ task ∈ s.tasks, { s with paused := true }.Holds task := fun task htask =>
      (h.tasks task htask).congr (fun _ _ hof => hof) le_rfl
    exact { h with tasks := htasks }
  apply hbase.invalidateSession.good
  · simpa using hmachine
  · exact .inr (by simp)

theorem Good.close (h : s.Good present) : s.close.Good present := by
  unfold Controller.close
  split
  · exact h
  · have hbase : { s with closed := true }.Base := by
      have htasks : ∀ task ∈ s.tasks, { s with closed := true }.Holds task := fun task htask =>
        (h.tasks task htask).congr (fun _ _ hof => hof) le_rfl
      exact { h.toBase with tasks := htasks }
    exact hbase.closeRpcSession fun hp => (h.served hp).machine

theorem Good.update (h : s.Good present) (lastResume : Option ℤ) (pairingStarted : Bool)
    (retryCount : ℕ) : { s with lastResume, pairingStarted, retryCount }.Good present := by
  have htasks : ∀ task ∈ s.tasks,
      { s with lastResume, pairingStarted, retryCount }.Holds task := fun task htask =>
    (h.tasks task htask).congr (fun _ _ hof => hof) le_rfl
  exact ⟨⟨{ h.toBase with tasks := htasks }, h.active, h.live⟩,
    fun hp => ⟨(h.served hp).machine, (h.served hp).served⟩⟩

theorem sendDatagramPing_closed (session : Session) :
    session.sendDatagramPing.closed = session.closed := by
  unfold Session.sendDatagramPing
  split <;> rfl

theorem Good.resume (h : s.Good present) (hidden : Bool) (now : ℤ) :
    (s.resume hidden now).Good present := by
  have hseen := h.update (some now) s.pairingStarted s.retryCount
  unfold Controller.resume
  split
  · exact h
  · split
    · exact h
    · dsimp only
      split
      · split
        · exact hseen.reconnect
        · exact hseen.onSession _ _ fun session => sendDatagramPing_closed _
      · exact hseen.reconnect

theorem session_eq_some (a generation : ℕ) (session : Session) :
    s.session a = some (generation, session) ↔
      ∃ attempt, s.attempts[a]? = some attempt ∧ attempt.session = some session ∧
        attempt.generation = generation := by
  simp only [Controller.session, Option.bind_eq_some_iff, Option.map_eq_some_iff, Prod.mk.injEq]
  constructor
  · rintro ⟨attempt, ha, other, hsession, hgeneration, rfl⟩
    exact ⟨attempt, ha, hsession, hgeneration⟩
  · rintro ⟨attempt, ha, hsession, hgeneration⟩
    exact ⟨attempt, ha, session, hsession, hgeneration, rfl⟩

theorem valid_iff (a : ℕ) : s.valid a = true ↔ s.closed = false ∧
    ∃ session, s.session a = some (s.sessionGeneration, session) ∧ session.closed = false := by
  unfold Controller.valid
  rw [Bool.and_eq_true, Option.any_eq_true, Bool.not_eq_true']
  constructor
  · rintro ⟨hclosed, ⟨generation, session⟩, hsession, hvalid⟩
    simp only [Bool.and_eq_true, Bool.not_eq_true', decide_eq_true_eq] at hvalid
    obtain ⟨hopen, rfl⟩ := hvalid
    exact ⟨hclosed, session, hsession, hopen⟩
  · rintro ⟨hclosed, session, hsession, hopen⟩
    exact ⟨hclosed, _, hsession, by simp [hopen]⟩

theorem of_valid {a : ℕ} (h : s.valid a = true) : s.Of a s.sessionGeneration := by
  obtain ⟨_, session, hsession, _⟩ := (valid_iff a).mp h
  obtain ⟨attempt, ha, _, hgeneration⟩ := (session_eq_some _ _ _).mp hsession
  exact ⟨attempt, ha, hgeneration⟩

theorem Good.refreshCluster (h : s.Good present) (daemonInfoOverride : Option DaemonInfo) :
    (s.refreshCluster daemonInfoOverride).Good present := by
  unfold Controller.refreshCluster
  dsimp only
  split
  · exact h
  · split
    · exact h
    · split
      · exact h
      · apply Good.spawn
        · exact h.onSession _ _ fun _ => rfl
        · trivial

section
variable (h : s.Good present) (a : ℕ)
include h a

theorem Good.endRefresh : (s.endRefresh a).Good present := by
  unfold Controller.endRefresh
  have hsession := h.onSession a (fun session => { session with clusterSyncing := false }) fun _ => rfl
  dsimp only
  split
  · exact hsession.onSession _ _ fun _ => rfl
  · exact hsession

theorem Good.setCluster (f : ClusterStatus → ClusterStatus)
    (hvalid : s.valid a = true) : (s.setCluster a f).Good present := by
  obtain ⟨_, session, hsession, _⟩ := (valid_iff a).mp hvalid
  unfold Controller.setCluster
  rw [hsession]
  apply h.setState _ _ _ rfl
  intro b hb
  cases hb
  exact of_valid hvalid

theorem Good.refreshFailed (message : String) :
    (s.refreshFailed a message).Good present := by
  apply Good.endRefresh
  split
  · rename_i hvalid
    exact h.setCluster a _ hvalid
  · exact h

theorem Good.refreshed (status : ClusterStatus) :
    (s.refreshed a status).Good present := by
  apply Good.endRefresh
  split
  · rename_i hvalid
    exact h.setCluster a _ hvalid
  · exact h

theorem Good.synchronized (answer : Except String ClusterStatus) :
    (s.synchronized a answer).Good present := by
  cases answer with
  | error message => exact h.refreshFailed a message
  | ok status =>
    unfold Controller.synchronized
    dsimp only
    split
    · split
      · apply Good.spawn
        · exact h.onSession _ _ fun _ => rfl
        · trivial
      · exact h.refreshed a status
    · exact h.endRefresh a

end

theorem Good.answerAuthentication (h : s.Good present) (a : ℕ) (authentication : Authentication)
    (error : Option Error) : (s.answerAuthentication a authentication error).1.Good present := by
  unfold Controller.answerAuthentication
  split
  · exact h
  · split
    · exact h.onSession _ _ fun _ => rfl
    · exact h
  · exact h
  · exact h
  · exact h
  · split
    · apply Good.refreshCluster
      exact h.onSession _ _ fun _ => rfl
    · exact h
  · exact h
  · exact h

theorem Good.spawnAuthentication (h : s.Good present) (a : ℕ) (authentication : Authentication) :
    (s.spawnAuthentication a authentication).Good present := by
  unfold Controller.spawnAuthentication
  split
  · exact h
  · exact h
  · exact h.spawn _ trivial

theorem stages_onSession (a : ℕ) (f : Session → Session) :
    (s.onSession a f).attempts.map Attempt.stage = s.attempts.map Attempt.stage := by
  apply List.ext_getElem?
  intro b
  rw [List.getElem?_map, List.getElem?_map, Controller.onSession, getElem?_onAttempt]
  split
  · cases s.attempts[b]? with
    | none | some attempt => rfl
  · rfl

theorem stages_refreshCluster (daemonInfoOverride : Option DaemonInfo) :
    (s.refreshCluster daemonInfoOverride).attempts.map Attempt.stage = s.attempts.map Attempt.stage := by
  unfold Controller.refreshCluster
  dsimp only
  split
  · rfl
  · split
    · rfl
    · split
      · rfl
      · exact stages_onSession _ _

theorem stages_answerAuthentication (a : ℕ) (authentication : Authentication) (error : Option Error) :
    (s.answerAuthentication a authentication error).1.attempts.map Attempt.stage =
      s.attempts.map Attempt.stage := by
  unfold Controller.answerAuthentication
  split
  · rfl
  · split
    · exact stages_onSession _ _
    · rfl
  · rfl
  · rfl
  · rfl
  · split
    · exact (stages_refreshCluster _).trans (stages_onSession _ _)
    · rfl
  · rfl
  · rfl

section
variable (h : s.Good present) (a : ℕ)
include h a

theorem Good.fail (f : Attempt → Attempt)
    (hf : ∀ attempt, s.attempts[a]? = some attempt → attempt.stage ≠ .returned ∧ attempt.Fails (f attempt)) :
    (s.onAttempt a f).Good present := by
  apply h.onAttempt
  intro attempt ha
  obtain ⟨hstage, hfails⟩ := hf attempt ha
  obtain ⟨error, hfailed⟩ := hfails.stage
  refine ⟨hfails.generation, ⟨?_, ?_, fun hopen => absurd hopen hfails.closed⟩, ?_⟩
  · intro hopening
    simp [Attempt.Opening, hfailed] at hopening
  · intro hopened
    rw [hfails.transport] at hopened
    cases hopened
  · intro hcurrent
    have hlive := h.live a attempt hcurrent ha
    refine ⟨hfails.caught.trans hlive.caught, ?_, ?_, .inr (.inl ⟨error, hfailed⟩)⟩
    · rw [hfails.race, hfails.deadline, hfails.aborted]
      exact hlive.pending
    · rw [hfails.race]
      exact fun hresolved => absurd (hlive.resolved hresolved) hstage

theorem Good.throwClosed (error : Error)
    (hstage : ∀ attempt, s.attempts[a]? = some attempt → attempt.stage ≠ .returned ∧ ¬ attempt.Opening) :
    (s.throwClosed a error).Good present := by
  apply h.fail
  intro attempt ha
  obtain ⟨hreturned, hopening⟩ := hstage attempt ha
  refine ⟨hreturned, by simp, by simp, by simp, by simp, by simp, ⟨error, rfl⟩, ?_, ?_⟩
  · show attempt.closeSession.transport = .closed
    by_cases hopen : attempt.Open
    · exact attempt.closeSession_of_open hopen
    · rw [attempt.closeSession_of_not_open hopen]
      cases htransport : attempt.transport with
      | closed => rfl
      | opened =>
        rcases (h.attempts a attempt ha).transport htransport with hopening' | hopen'
        · exact absurd hopening' hopening
        · exact absurd hopen' hopen
  · exact attempt.closeSession_not_open

theorem Good.await (stage : Stage) (hnext : stage.Managed)
    (hstage : ∀ attempt, s.attempts[a]? = some attempt →
      attempt.stage.Managed ∧ attempt.stage ≠ .returned) : (s.await a stage).Good present := by
  apply h.onAttempt
  intro attempt ha
  obtain ⟨hmanaged, hreturned⟩ := hstage attempt ha
  have hkept := h.attempts a attempt ha
  refine ⟨rfl, ⟨?_, ?_, hkept.opened⟩, ?_⟩
  · exact fun hopen => absurd hopen (Attempt.not_opening hnext)
  · exact fun hopened => .inr ((hkept.transport hopened).resolve_left (Attempt.not_opening hmanaged))
  · intro hcurrent
    have hlive := h.live a attempt hcurrent ha
    refine ⟨hlive.caught, hlive.pending, fun hresolved => absurd (hlive.resolved hresolved) hreturned, ?_⟩
    rcases hlive.opened with hopen | ⟨error, hfailed⟩ | hopen
    · exact absurd hopen (Attempt.not_opening hmanaged)
    · rw [hfailed] at hmanaged
      exact hmanaged.elim
    · exact .inr (.inr hopen)

theorem Good.manage (attempt : Attempt) (ha : s.attempts[a]? = some attempt)
    (hconnected : attempt.stage = .connected) (hgeneration : attempt.generation = s.sessionGeneration)
    (stage : Stage) (hnext : stage.Managed) :
    { s.onAttempt a (fun attempt => { attempt with session := some Session.start, stage }) with
      managed := some a }.Good present := by
  have hcurrent : s.rpcSession = some a := h.unique a ⟨attempt, ha, hgeneration⟩
  have hof := fun b generation => of_onAttempt (s := s) a b generation
    (fun attempt => { attempt with session := some Session.start, stage }) fun _ _ => rfl
  have hopening : ¬ { attempt with session := some Session.start, stage }.Opening :=
    Attempt.not_opening hnext
  have hopen : { attempt with session := some Session.start, stage }.Open := ⟨_, rfl, rfl⟩
  have htransport := ((h.attempts a attempt ha).opening (.inr hconnected)).2
  have hlive := h.live a attempt hcurrent ha
  refine ⟨⟨⟨h.timers, h.waiting, ?_, ?_, ?_, ?_, ?_, ?_, h.writes⟩, h.active, ?_⟩,
    fun hp => ⟨(h.served hp).machine, (h.served hp).served⟩⟩
  · intro b hb
    cases hb
    exact hcurrent
  · exact fun b hb => (hof _ _).mpr (h.current b hb)
  · exact fun b generation hb => h.past b generation ((hof _ _).mp hb)
  · exact fun b hb => h.unique b ((hof _ _).mp hb)
  · intro b other hb
    change (s.onAttempt a _).attempts[b]? = _ at hb
    rw [getElem?_onAttempt] at hb
    split at hb
    · rename_i hab
      subst hab
      rw [ha] at hb
      cases hb
      exact ⟨fun hopen => absurd hopen hopening, fun _ => .inr hopen, fun _ => ⟨rfl, htransport⟩⟩
    · rename_i hab
      apply (h.attempts b other hb).mono
      intro hmanaged
      rw [h.managed b hmanaged] at hcurrent
      exact absurd (Option.some.inj hcurrent).symm hab
  · exact fun task htask => (h.tasks task htask).congr (fun b g hb => (hof b g).mpr hb) le_rfl
  · intro b other hb hother
    change s.rpcSession = some b at hb
    obtain rfl : a = b := Option.some.inj (hcurrent.symm.trans hb)
    change (s.onAttempt a _).attempts[a]? = _ at hother
    rw [getElem?_onAttempt, if_pos rfl, ha] at hother
    cases hother
    refine ⟨hlive.caught, hlive.pending, ?_, .inr (.inr hopen)⟩
    intro hresolved
    rw [hlive.resolved hresolved] at hconnected
    cases hconnected

end

theorem getRpcSession_eq (s : Controller) (a : ℕ) (hsession : s.rpcSession = some a)
    (hclosed : s.closed = false) (hpaused : s.paused = false) : s.getRpcSession = (s, .ok a) := by
  simp [Controller.getRpcSession, hsession, hclosed, hpaused]

/-- The end of `openRpcSession`, once the promise of the attempt is the current one. -/
theorem Good.reach (a generation : ℕ) (hgood : (s.await a .returned).Good present)
    (hsession : s.rpcSession = some a) (hclosed : s.closed = false) (hpaused : s.paused = false)
    (hgeneration : generation = s.sessionGeneration) : (s.reach a generation).Good present := by
  subst hgeneration
  have hof : (s.await a .returned).Of a s.sessionGeneration := hgood.current a hsession
  have hwritten := (hgood.update s.lastResume s.pairingStarted 0).setState s.sessionGeneration (some a)
    (fun state => { state with connection := .reachable none, daemonInfo := .loading }) rfl
    (fun b hb => by cases hb; exact hof)
  have hspawned := hwritten.spawn (.info s.sessionGeneration a) hof
  have hget := getRpcSession_eq ({ s with retryCount := 0 }.setState s.sessionGeneration (some a)
    fun state => { state with connection := .reachable none, daemonInfo := .loading }) a hsession
    hclosed hpaused
  unfold Controller.reach Controller.refreshDaemonInfo
  dsimp only
  rw [hget]
  exact hspawned

theorem onAttempt_onAttempt (a : ℕ) (f g : Attempt → Attempt) :
    (s.onAttempt a f).onAttempt a g = s.onAttempt a fun attempt => g (f attempt) := by
  simp only [Controller.onAttempt, List.modify_modify_eq]
  rfl

theorem await_manage (a : ℕ) (stage : Stage) :
    { s.onAttempt a (fun attempt => { attempt with session := some Session.start }) with
      managed := some a }.await a stage =
    { s.onAttempt a (fun attempt => { attempt with session := some Session.start, stage }) with
      managed := some a } := by
  simp only [Controller.await, Controller.onAttempt, List.modify_modify_eq]
  rfl

theorem superseded_iff (generation : ℕ) :
    s.superseded generation = false ↔ s.closed = false ∧ generation = s.sessionGeneration := by
  simp [Controller.superseded]

section
variable (h : s.Good present) (a : ℕ) (attempt : Attempt)
include h a attempt

theorem Good.connected
    (ha : s.attempts[a]? = some attempt) (hstage : attempt.stage = .connected) (error : Option Error)
    (t : Controller) (hstep : s.continueOpening a attempt error = some t) : t.Good present := by
  simp only [Controller.continueOpening, hstage] at hstep
  split at hstep
  · cases hstep
    rw [Controller.throwClosed, onAttempt_onAttempt]
    apply h.fail
    intro other hother
    rw [ha] at hother
    cases hother
    refine ⟨by simp [hstage], by simp, by simp, by simp, by simp, by simp, ⟨stale, rfl⟩, ?_,
      Attempt.closeSession_not_open _⟩
    exact Attempt.closeSession_of_open _ ⟨_, rfl, rfl⟩
  · rename_i hcurrent
    rw [Bool.not_eq_true, superseded_iff] at hcurrent
    obtain ⟨hclosed, hgeneration⟩ := hcurrent
    change s.closed = false at hclosed
    change attempt.generation = s.sessionGeneration at hgeneration
    have hmanage := fun stage hnext => h.manage a attempt ha hstage hgeneration stage hnext
    have hsession : s.rpcSession = some a := h.unique a ⟨attempt, ha, hgeneration⟩
    have hpaused : s.paused = false := (h.active (.inl (by simp [hsession]))).2
    split at hstep
    · cases hstep
      rw [await_manage]
      exact hmanage _ trivial
    · cases hstep
      have hend := hmanage .returned trivial
      rw [← await_manage] at hend
      exact Good.reach a attempt.generation hend hsession hclosed hpaused hgeneration

theorem Good.renewed
    (ha : s.attempts[a]? = some attempt) (hstage : attempt.stage = .renewed) (error : Option Error)
    (t : Controller) (hstep : s.continueOpening a attempt error = some t) : t.Good present := by
  have hmanaged : ∀ other, s.attempts[a]? = some other → other.stage = .renewed := by
    intro other hother
    rw [ha] at hother
    cases hother
    exact hstage
  simp only [Controller.continueOpening, hstage] at hstep
  split at hstep
  · cases hstep
    apply h.throwClosed
    intro other hother
    simp [hmanaged other hother, Attempt.Opening]
  · rename_i hcurrent
    rw [Bool.not_eq_true, superseded_iff] at hcurrent
    obtain ⟨hclosed, hgeneration⟩ := hcurrent
    cases hstep
    have hsession : s.rpcSession = some a := h.unique a ⟨attempt, ha, hgeneration⟩
    have hpaused : s.paused = false := (h.active (.inl (by simp [hsession]))).2
    apply Good.reach a attempt.generation _ hsession hclosed hpaused hgeneration
    apply h.await a .returned trivial
    intro other hother
    simp [hmanaged other hother, Stage.Managed]

theorem Good.authenticating (authentication : Authentication) (ha : s.attempts[a]? = some attempt)
    (hstage : attempt.stage = .authenticating authentication) (error : Option Error)
    (t : Controller) (hstep : s.continueOpening a attempt error = some t) : t.Good present := by
  have hmanaged : ∀ other, s.attempts[a]? = some other → other.stage = .authenticating authentication := by
    intro other hother
    rw [ha] at hother
    cases hother
    exact hstage
  have hanswer : ∀ answered : Controller × Authentication,
      answered = s.answerAuthentication a authentication error →
      (answered.1.await a (.authenticating answered.2)).Good present := by
    rintro _ rfl
    apply (h.answerAuthentication a authentication error).await a (.authenticating _) trivial
    intro other hother
    have hstages := congrArg (·[a]?) (stages_answerAuthentication (s := s) a authentication error)
    simp only [List.getElem?_map, hother, ha, Option.map_some, Option.some.injEq] at hstages
    simp [hstages, hstage, Stage.Managed]
  have hthrow : ∀ error, (s.throwClosed a error).Good present := by
    intro error
    apply h.throwClosed
    intro other hother
    simp [hmanaged other hother, Attempt.Opening]
  have hawait : ∀ stage : Stage, stage.Managed → (s.await a stage).Good present := by
    intro stage hnext
    apply h.await a _ hnext
    intro other hother
    simp [hmanaged other hother, Stage.Managed]
  cases authentication with
  | done =>
    simp only [Controller.continueOpening, hstage] at hstep
    split at hstep
    · cases hstep
      exact hthrow _
    · split at hstep
      · cases hstep
        exact hawait _ trivial
      · cases hstep
        exact hawait _ trivial
  | refused refusal =>
    simp only [Controller.continueOpening, hstage] at hstep
    cases hstep
    exact hthrow _
  | cluster identity | applying | credential clientId =>
    simp only [Controller.continueOpening, hstage] at hstep
    cases hstep
    exact hanswer _ rfl

theorem Good.continueOpening
    (ha : s.attempts[a]? = some attempt) (error : Option Error) (t : Controller)
    (hstep : s.continueOpening a attempt error = some t) : t.Good present := by
  have hunique : ∀ other, s.attempts[a]? = some other → other = attempt := by
    intro other hother
    rw [ha] at hother
    exact (Option.some.inj hother).symm
  cases hstage : attempt.stage with
  | connecting =>
    have hkept := (h.attempts a attempt ha).opening (.inl hstage)
    cases error with
    | none =>
      simp only [Controller.continueOpening, hstage] at hstep
      cases hstep
      apply h.onAttempt
      intro other hother
      rw [hunique other hother]
      have hclosed : ¬ { attempt with stage := .connected }.Open := by
        rintro ⟨session, hsession, _⟩
        simp [hkept.1] at hsession
      refine ⟨rfl, ⟨fun _ => hkept, fun _ => .inl (.inr rfl), fun hopen => absurd hopen hclosed⟩, ?_⟩
      intro hcurrent
      have hlive := h.live a attempt hcurrent ha
      refine ⟨hlive.caught, hlive.pending, fun hresolved => ?_, .inl (.inr rfl)⟩
      rw [hlive.resolved hresolved] at hstage
      cases hstage
    | some error =>
      simp only [Controller.continueOpening, hstage] at hstep
      cases hstep
      apply h.fail
      intro other hother
      rw [hunique other hother]
      refine ⟨by simp [hstage], rfl, rfl, rfl, rfl, rfl, ⟨error, rfl⟩, rfl, ?_⟩
      rintro ⟨session, hsession, _⟩
      simp [hkept.1] at hsession
  | connected => exact h.connected a attempt ha hstage error t hstep
  | authenticating authentication =>
    exact h.authenticating a attempt authentication ha hstage error t hstep
  | renewing =>
    simp only [Controller.continueOpening, hstage] at hstep
    cases hstep
    apply h.await a .renewed trivial
    intro other hother
    simp [hunique other hother, hstage, Stage.Managed]
  | renewed => exact h.renewed a attempt ha hstage error t hstep
  | returned | failed failure =>
    simp only [Controller.continueOpening, hstage] at hstep
    cases hstep

end

section
variable (h : s.Good present) (a : ℕ) (attempt : Attempt) (ha : s.attempts[a]? = some attempt)
include h a attempt ha

theorem Good.settle
    (race : Race) (hsettled : race ≠ .pending) (hresolved : race = .resolved → attempt.stage = .returned) :
    (s.settle a race).Good present := by
  apply h.onAttempt
  intro other hother
  obtain rfl : attempt = other := Option.some.inj (ha.symm.trans hother)
  have hkept := h.attempts a attempt ha
  refine ⟨rfl, ⟨hkept.opening, hkept.transport, hkept.opened⟩, ?_⟩
  intro hcurrent
  have hlive := h.live a attempt hcurrent ha
  exact ⟨hlive.caught, fun hpending => absurd hpending hsettled, hresolved, hlive.opened⟩

theorem Good.settleOpened (t : Controller) (hstep : s.settleOpened a attempt = some t) :
    t.Good present := by
  unfold Controller.settleOpened at hstep
  split at hstep
  · rename_i hstage
    cases hstep
    exact h.settle a attempt ha .resolved (by simp) fun _ => hstage
  · cases hstep
    exact h.settle a attempt ha _ (by simp) fun hresolved => (nomatch hresolved)
  · cases hstep

theorem Good.settleAborted (t : Controller) (hstep : s.settleAborted a attempt = some t) :
    t.Good present := by
  unfold Controller.settleAborted at hstep
  split at hstep
  · cases hstep
    exact h.settle a attempt ha _ (by simp) fun hresolved => (nomatch hresolved)
  · cases hstep

omit ha in
theorem Good.expire (t : Controller) (hstep : s.expire a attempt = some t) :
    t.Good present := by
  simp only [Controller.expire, Option.bind_eq_bind, Option.bind_eq_some_iff, Option.guard_eq_some',
    exists_const, Option.some.injEq] at hstep
  obtain ⟨_, rfl⟩ := hstep
  apply h.onAttempt
  intro other hother
  have hkept := h.attempts a other hother
  refine ⟨rfl, ⟨hkept.opening, hkept.transport, hkept.opened⟩, ?_⟩
  intro hcurrent
  have hlive := h.live a other hcurrent hother
  exact ⟨hlive.caught, fun _ => .inr rfl, hlive.resolved, hlive.opened⟩

theorem Good.catchRejection (t : Controller)
    (hstep : s.catchRejection a attempt = some t) : t.Good present := by
  unfold Controller.catchRejection at hstep
  split at hstep
  · cases hstep
    have hkeeps : ∀ other, s.attempts[a]? = some other →
        ({ other with caught := true } : Attempt).Kept (s.managed = some a) := by
      intro other hother
      have hkept := h.attempts a other hother
      exact ⟨hkept.opening, hkept.transport, hkept.opened⟩
    split
    · rename_i hcurrent
      change s.rpcSession = some a at hcurrent
      have hbase := h.toBase.onAttempt a (fun attempt => { attempt with caught := true })
        fun other hother => ⟨rfl, hkeeps other hother⟩
      apply hbase.loseSession
      · exact (h.active (.inl (by simp [hcurrent]))).1
      · obtain ⟨other, hother, hgeneration⟩ := h.current a hcurrent
        obtain rfl : attempt = other := Option.some.inj (ha.symm.trans hother)
        exact hgeneration
      · exact fun hp => (h.served hp).machine
    · rename_i hpast
      exact h.onAttempt a _ fun other hother =>
        ⟨rfl, hkeeps other hother, fun hcurrent => absurd hcurrent hpast⟩
  · cases hstep

theorem Good.failSession (t : Controller) (hstep : s.failSession a attempt = some t) :
    t.Good present := by
  simp only [Controller.failSession, Option.bind_eq_bind, Option.bind_eq_some_iff,
    Option.guard_eq_some', exists_const, Option.some.injEq] at hstep
  obtain ⟨session, hsession, hopen, rfl⟩ := hstep
  have hmanaged := ((h.attempts a attempt ha).opened ⟨session, hsession, hopen⟩).1
  have hcurrent := h.managed a hmanaged
  have hbase : (s.closeManagedRpcSession a).Base := by
    apply h.toBase.onAttempt
    intro other hother
    exact ⟨by simp, (h.attempts a other hother).close.mono False.elim⟩
  apply hbase.loseSession
  · exact (h.active (.inl (by simp [hcurrent]))).1
  · obtain ⟨other, hother, hgeneration⟩ := h.current a hcurrent
    obtain rfl : attempt = other := Option.some.inj (ha.symm.trans hother)
    exact hgeneration
  · exact fun hp => (h.served hp).machine

end

theorem Good.timeOut (h : s.Good present) (a pingId : ℕ) (attempt : Attempt)
    (ha : s.attempts[a]? = some attempt) (t : Controller) (hstep : s.timeOut a pingId attempt = some t) :
    t.Good present := by
  simp only [Controller.timeOut, Option.bind_eq_bind, Option.bind_eq_some_iff,
    Option.guard_eq_some', exists_const] at hstep
  obtain ⟨session, _, _, hstep⟩ := hstep
  exact h.failSession a attempt ha t hstep

theorem of_onSession (a b generation : ℕ) (f : Session → Session) :
    (s.onSession a f).Of b generation ↔ s.Of b generation :=
  of_onAttempt a b generation _ fun _ _ => rfl

theorem Good.pong (h : s.Good present) (a pingId rttMs : ℕ) (attempt : Attempt)
    (ha : s.attempts[a]? = some attempt) (t : Controller)
    (hstep : s.pong a pingId rttMs attempt = some t) : t.Good present := by
  simp only [Controller.pong, Option.bind_eq_bind, Option.bind_eq_some_iff,
    Option.guard_eq_some', exists_const] at hstep
  obtain ⟨session, _, _, hstep⟩ := hstep
  split at hstep
  · cases hstep
    have hsession := h.onSession a Session.clearPendingDatagramPing fun _ => rfl
    unfold Controller.setDatagramRtt
    split
    · rename_i hcurrent
      simp only [Bool.and_eq_true, decide_eq_true_eq] at hcurrent
      apply hsession.setState _ _ _ hcurrent.2
      intro b hb
      cases hb
      exact (of_onSession _ _ _ _).mpr ⟨attempt, ha, rfl⟩
    · exact hsession
  · cases hstep
    exact h

theorem Good.clusterTimer (h : s.Good present) (a : ℕ) (attempt : Attempt) (t : Controller)
    (hstep : s.clusterTimer a attempt = some t) : t.Good present := by
  simp only [Controller.clusterTimer, Option.bind_eq_bind, Option.bind_eq_some_iff,
    Option.guard_eq_some', exists_const, Option.some.injEq] at hstep
  obtain ⟨session, _, _, rfl⟩ := hstep
  apply Good.refreshCluster
  exact h.onSession _ _ fun _ => rfl

section
variable (h : s.Good present)
include h

theorem Good.getRpcSession : s.getRpcSession.1.Good present :=
  h.toKept.getRpcSession.good fun hp => (h.served hp).machine

theorem Good.webTransport : s.webTransport.Good present := by
  unfold Controller.webTransport
  have hgot := h.getRpcSession
  split
  · exact h
  · split
    · exact h
    · split
      · rename_i hcall
        rw [hcall] at hgot
        exact hgot.spawn _ trivial
      · rename_i hcall
        rw [hcall] at hgot
        exact hgot

theorem Good.startPairingSession : s.startPairingSession.Good present := by
  unfold Controller.startPairingSession
  have hgot := (h.update s.lastResume false s.retryCount).getRpcSession
  split
  · exact h
  · split
    · rename_i hcall
      rw [hcall] at hgot
      exact hgot.spawn _ trivial
    · rename_i hcall
      rw [hcall] at hgot
      exact hgot

theorem Good.completePairingSession : s.completePairingSession.Good present := by
  unfold Controller.completePairingSession
  split
  · exact h.spawn _ trivial
  · exact h

theorem Good.withControllerRpcSession (a : ℕ) (task : Task) (htask : s.Holds task) :
    (s.withControllerRpcSession a task).Good present := by
  unfold Controller.withControllerRpcSession
  split
  · rename_i hother
    have hne : s.rpcSession ≠ some a := by
      intro hcurrent
      have hactive := h.active (.inl (by simp [hcurrent]))
      simp [hcurrent, hactive.1] at hother
    rw [h.closed_of_ne a hne]
    exact h
  · exact h.spawn task htask

theorem Good.openFailed (generation : ℕ) (attempt : Option ℕ)
    (hholds : ∀ a, attempt = some a → s.Of a generation) : (s.openFailed generation attempt).Good present := by
  unfold Controller.openFailed
  split
  · rename_i hcurrent
    simp only [Bool.and_eq_true, decide_eq_true_eq] at hcurrent
    exact h.setState _ _ _ hcurrent.2 hholds
  · exact h

theorem Good.infoFailed (generation a : ℕ) (error : Error)
    (hholds : s.Of a generation) : (s.infoFailed generation a error).Good present := by
  unfold Controller.infoFailed
  split
  · exact h
  · rename_i hcurrent
    rw [Bool.not_eq_true, superseded_iff] at hcurrent
    apply h.setState _ _ _ hcurrent.2
    intro b hb
    cases hb
    exact hholds

theorem Good.resumeTask (task : Task) (error : Option Error) (htask : s.Holds task) :
    (s.resumeTask task error).Good present := by
  unfold Controller.resumeTask
  split
  · apply h.openFailed
    rintro a rfl
    exact htask
  · rename_i a
    have hne : s.rpcSession ≠ some a := by
      intro hcurrent
      obtain ⟨generation, hlt, attempt, ha, hgeneration⟩ := htask
      obtain ⟨other, hother, hnow⟩ := h.current a hcurrent
      obtain rfl : attempt = other := Option.some.inj (ha.symm.trans hother)
      omega
    rw [h.closed_of_ne a hne]
    exact h
  · exact h.spawnAuthentication _ _
  · split
    · exact h
    · exact h.spawn _ htask
  · exact h.infoFailed _ _ _ htask
  · exact h.withControllerRpcSession _ _ trivial
  · exact h.withControllerRpcSession _ _ trivial
  · apply Good.spawnAuthentication
    exact h.onSession _ _ fun _ => rfl
  · exact h

theorem Good.answerTask (task : Task) (reply : Reply) (htask : s.Holds task)
    (t : Controller) (hstep : s.answerTask task reply = some t) : t.Good present := by
  unfold Controller.answerTask at hstep
  split at hstep
  · cases hstep
    exact h.openFailed _ _ fun _ ha => (nomatch ha)
  · cases hstep
    exact (h.answerAuthentication _ _ _).spawnAuthentication _ _
  · cases hstep
    exact (h.answerAuthentication _ _ _).spawnAuthentication _ _
  · split at hstep
    · cases hstep
      exact h
    · rename_i hcurrent
      rw [Bool.not_eq_true, superseded_iff] at hcurrent
      cases hstep
      apply Good.refreshCluster
      apply h.setState _ _ _ hcurrent.2
      intro b hb
      cases hb
      exact htask
  · cases hstep
    exact h.infoFailed _ _ _ htask
  · cases hstep
    exact h.synchronized _ _
  · cases hstep
    exact h.synchronized _ _
  · cases hstep
    exact h.refreshed _ _
  · cases hstep
    exact h.refreshFailed _ _
  · cases hstep
    exact h.update s.lastResume true s.retryCount
  · cases hstep
    exact h
  · split at hstep
    · cases hstep
      exact h.spawn _ trivial
    · cases hstep
      exact h
  · cases hstep
    exact h
  · simp only [Option.bind_eq_bind, Option.bind_eq_some_iff] at hstep
    obtain ⟨a, _, attempt, _, hstep⟩ := hstep
    split at hstep
    · cases hstep
    · cases hstep
      exact h.resumeTask _ _ htask
    · cases hstep
      exact h.resumeTask _ _ htask
  · cases hstep

theorem Good.runTask (index : ℕ) (reply : Reply) (t : Controller)
    (hstep : s.runTask index reply = some t) : t.Good present := by
  simp only [Controller.runTask, Option.bind_eq_bind, Option.bind_eq_some_iff] at hstep
  obtain ⟨task, htask, hstep⟩ := hstep
  apply (h.eraseTask index).answerTask task reply _ t hstep
  exact (h.tasks task (List.mem_of_getElem? htask)).congr (fun _ _ hof => hof) le_rfl

theorem Good.retry (timer : Timer) (t : Controller)
    (hstep : s.retry timer = some t) : t.Good present := by
  simp only [Controller.retry, Option.bind_eq_bind, Option.bind_eq_some_iff, Option.guard_eq_some',
    exists_const, Option.some.injEq] at hstep
  obtain ⟨htimer, rfl⟩ := hstep
  have hretry : s.retryTimer = some timer := by
    rw [h.timers] at htimer
    simpa using htimer
  have htimers : s.timers.erase timer = [] := by
    simp [h.timers, hretry]
  have htasks : ∀ task ∈ s.tasks,
      { s with timers := s.timers.erase timer, retryTimer := none }.Holds task := fun task htask =>
    (h.tasks task htask).congr (fun _ _ hof => hof) le_rfl
  refine Kept.openInitialSession ⟨⟨htimers, fun hnone => absurd rfl hnone, h.managed, h.current, h.past,
    h.unique, h.attempts, htasks, h.writes⟩, ?_, h.live⟩ fun hp => (h.served hp).machine
  exact fun _ => h.active (.inr (by simp [hretry]))

end

theorem Good.setMachine (h : s.Good present) (machine : Option Machine)
    (hmachine : present → machine ≠ none) : { s with machine }.Good present := by
  have htasks : ∀ task ∈ s.tasks, { s with machine }.Holds task := fun task htask =>
    (h.tasks task htask).congr (fun _ _ hof => hof) le_rfl
  exact ⟨⟨{ h.toBase with tasks := htasks }, h.active, h.live⟩,
    fun hp => ⟨hmachine hp, (h.served hp).served⟩⟩

theorem Good.step (h : s.Good present) (step : Step) (hstays : present → step ≠ .machine none)
    (t : Controller) (hstep : s.step step = some t) : t.Good present := by
  cases step with
  | machine machine =>
    cases hstep
    apply h.setMachine machine
    intro hp hnone
    exact hstays hp (by rw [hnone])
  | reconnect =>
    cases hstep
    exact h.reconnect
  | closeRpcSession =>
    cases hstep
    exact h.toBase.closeRpcSession fun hp => (h.served hp).machine
  | close =>
    cases hstep
    exact h.close
  | resume hidden now =>
    cases hstep
    exact h.resume hidden now
  | webTransport =>
    cases hstep
    exact h.webTransport
  | startPairing =>
    cases hstep
    exact h.startPairingSession
  | completePairing =>
    cases hstep
    exact h.completePairingSession
  | refreshCluster =>
    cases hstep
    exact h.refreshCluster none
  | retry timer => exact h.retry timer t hstep
  | task index reply => exact h.runTask index reply t hstep
  | attempt a event =>
    obtain ⟨attempt, ha, hstep⟩ := Option.bind_eq_some_iff.mp hstep
    cases event with
    | deadline => exact h.expire a attempt t hstep
    | opening error => exact h.continueOpening a attempt ha error t hstep
    | opened => exact h.settleOpened a attempt ha t hstep
    | aborted => exact h.settleAborted a attempt ha t hstep
    | caught => exact h.catchRejection a attempt ha t hstep
    | failed => exact h.failSession a attempt ha t hstep
    | ping =>
      cases hstep
      exact h.onSession a _ sendDatagramPing_closed
    | pingTimeout pingId => exact h.timeOut a pingId attempt ha t hstep
    | pong pingId rttMs => exact h.pong a pingId rttMs attempt ha t hstep
    | clusterTimer => exact h.clusterTimer a attempt t hstep

theorem good_instantiate (machine : Machine) : (instantiate machine).Good present := by
  have hbase : { machine := some machine : Controller }.Base := by
    refine ⟨rfl, fun _ => rfl, ?_, ?_, ?_, ?_, ?_, ?_, ?_⟩
    · exact fun _ hnone => (nomatch hnone)
    · exact fun _ hnone => (nomatch hnone)
    · rintro a generation ⟨attempt, hnone, _⟩
      cases hnone
    · rintro a ⟨attempt, hnone, _⟩
      cases hnone
    · exact fun _ _ hnone => (nomatch hnone)
    · exact fun _ hnone => absurd hnone List.not_mem_nil
    · exact fun _ hnone => absurd hnone List.not_mem_nil
  apply (hbase.invalidateSession.update false 0).openInitialSession
  intro _
  simp

theorem good_of_run (machine : Machine) (steps : List Step) (s : Controller)
    (hrun : steps.foldlM Controller.step (instantiate machine) = some s) :
    s.Good (Step.machine none ∉ steps) := by
  have hstays : ∀ (rest : List Step) (t : Controller), rest ⊆ steps →
      t.Good (Step.machine none ∉ steps) → rest.foldlM Controller.step t = some s →
      s.Good (Step.machine none ∉ steps) := by
    intro rest
    induction rest with
    | nil =>
      intro t _ hgood hend
      cases hend
      exact hgood
    | cons step rest ih =>
      intro t hsubset hgood hend
      obtain ⟨u, hu, hend⟩ := Option.bind_eq_some_iff.mp hend
      refine ih u (fun other hother => hsubset (List.mem_cons_of_mem _ hother)) ?_ hend
      apply hgood.step step _ u hu
      rintro habsent rfl
      exact habsent (hsubset List.mem_cons_self)
  exact hstays steps (instantiate machine) (List.Subset.refl _) (good_instantiate machine) hrun

def Attempting (s : Controller) : Prop :=
  ∃ a attempt, s.rpcSession = some a ∧ s.attempts[a]? = some attempt ∧ attempt.Running

def Manages (s : Controller) (a : ℕ) (attempt : Attempt) : Prop :=
  s.managed = some a ∧ attempt.generation = s.sessionGeneration ∧ attempt.Open ∧
    attempt.transport = .opened

structure Sound (s : Controller) : Prop where
  transports : ∀ a (attempt : Attempt), s.attempts[a]? = some attempt →
    attempt.Opening ∨ s.Manages a attempt ∨ attempt.transport = .closed
  timers : s.timers.length ≤ 1
  waiting : s.timers ≠ [] → s.closed = false ∧ s.paused = false ∧ ¬ s.Attempting
  writes : ∀ write ∈ s.writes, write.Current

theorem Good.sound (h : s.Good present) : s.Sound := by
  refine ⟨?_, ?_, ?_, h.writes⟩
  · intro a attempt ha
    have hkept := h.attempts a attempt ha
    cases htransport : attempt.transport with
    | closed => exact .inr (.inr rfl)
    | opened =>
      rcases hkept.transport htransport with hopening | hopen
      · exact .inl hopening
      · have hmanaged := (hkept.opened hopen).1
        obtain ⟨other, hother, hgeneration⟩ := h.current a (h.managed a hmanaged)
        obtain rfl : attempt = other := Option.some.inj (ha.symm.trans hother)
        exact .inr (.inl ⟨hmanaged, hgeneration, hopen, htransport⟩)
  · rw [h.timers]
    cases s.retryTimer with
    | none | some timer => simp
  · intro htimers
    have hretry : s.retryTimer ≠ none := by
      intro hnone
      rw [h.timers, hnone] at htimers
      exact htimers rfl
    obtain ⟨hclosed, hpaused⟩ := h.active (.inr hretry)
    refine ⟨hclosed, hpaused, ?_⟩
    rintro ⟨a, attempt, hsession, _⟩
    rw [h.waiting hretry] at hsession
    cases hsession

theorem Good.attempting (h : s.Good present) (hpresent : present) (hclosed : s.closed = false)
    (hpaused : s.paused = false) :
    s.Attempting ∨ (∃ a attempt, s.attempts[a]? = some attempt ∧ s.Manages a attempt) ∨
      s.timers ≠ [] := by
  rcases (h.served hpresent).served hclosed hpaused with hsession | htimer
  · obtain ⟨a, ha⟩ := Option.ne_none_iff_exists'.mp hsession
    obtain ⟨attempt, hattempt, hgeneration⟩ := h.current a ha
    rcases (h.live a attempt ha hattempt).running with hrunning | hopen
    · exact .inl ⟨a, attempt, ha, hattempt, hrunning⟩
    · obtain ⟨hmanaged, htransport⟩ := (h.attempts a attempt hattempt).opened hopen
      exact .inr (.inl ⟨a, attempt, hattempt, hmanaged, hgeneration, hopen, htransport⟩)
  · right
    right
    simp [h.timers, htimer]

end

/-- In every run of the controller: a transport is opening, belongs to the managed
session of the current generation or is closed; one retry timer may wait, never
beside an attempt or while the controller is closed or paused; while the machine is
not removed something is under way; and only the current generation writes. -/
theorem session_controller_sound (machine : Machine) (steps : List Step) (s : Controller)
    (hrun : steps.foldlM Controller.step (instantiate machine) = some s) :
    s.Sound ∧ (Step.machine none ∉ steps → s.closed = false → s.paused = false →
      s.Attempting ∨ (∃ a attempt, s.attempts[a]? = some attempt ∧ s.Manages a attempt) ∨
        s.timers ≠ []) := by
  have hgood := good_of_run machine steps s hrun
  exact ⟨hgood.sound, hgood.attempting⟩

def revokedPairing : List Step :=
  [.attempt 0 (.opening none), .attempt 0 (.opening none), .attempt 0 (.opening none),
    .attempt 0 (.opening none), .attempt 0 (.opening none), .attempt 0 (.opening none),
    .attempt 0 .opened, .task 1 .settled, .attempt 0 (.pingTimeout 1), .retry ⟨0, 500⟩,
    .attempt 1 (.opening none), .attempt 1 (.opening none),
    .attempt 1 (.opening (some ⟨"revoked", true⟩)), .attempt 1 (.opening none), .attempt 1 .opened,
    .attempt 1 .caught]

theorem session_controller_sound_sample :
    ∃ s, revokedPairing.foldlM Controller.step
        (instantiate ⟨"m", "m", "https://m", none, some "id", some "secret", none⟩) = some s ∧
      s.paused = true ∧ s.Sound := by
  have hrun : (revokedPairing.foldlM Controller.step
      (instantiate ⟨"m", "m", "https://m", none, some "id", some "secret", none⟩)).map (·.paused) =
      some true := by
    decide +kernel
  obtain ⟨s, hs, hpaused⟩ := Option.map_eq_some_iff.mp hrun
  exact ⟨s, hs, hpaused, (session_controller_sound _ _ s hs).1⟩

end Controller
end Rieul.Web.RpcSession
