import Rieul.Command.ScheduleSpec

/-!
# Which occurrences a tick serves

A tick that stops at the search horizon moves the checkpoint to its own time all the same.
-/

namespace Rieul.Command

def tickDue (rule : Rule) (info : ScheduleInfo) (c now : ℕ) : List DueScheduleRun :=
  dueRuns info (nextScheduleCheckpoint now (tickRuns rule c now)) (tickRuns rule c now).runAtMs

def tickCheckpoint (rule : Rule) (info : ScheduleInfo) (c now : ℕ) (ok : DueScheduleRun → Bool) : ℕ :=
  if (tickRuns rule c now).runAtMs = [] then nextScheduleCheckpoint now (tickRuns rule c now)
  else (serve ok (tickDue rule info c now) c).1

def ScheduleInfo.run (info : ScheduleInfo) (x : ℕ) : ScheduledRun :=
  ⟨info.scheduleId, info.rruleSet, x⟩

structure Live (parseRruleSet : String → Option Rule) (info : ScheduleInfo) (rule : Rule) : Prop where
  enabled : info.enabled = true
  archived : info.archived = false
  parsed : parseRruleSet info.rruleSet = some rule

section
variable {parseRruleSet : String → Option Rule} {info : ScheduleInfo} {rule : Rule}

theorem checkSchedule_live (h : Live parseRruleSet info rule) (c now : ℕ) :
    checkSchedule parseRruleSet now ⟨info, c⟩ =
      (⟨info, if (tickRuns rule c now).runAtMs = []
        then nextScheduleCheckpoint now (tickRuns rule c now) else c⟩, tickDue rule info c now) := by
  unfold checkSchedule
  rw [if_neg]
  · simp only [h.parsed]
    unfold tickDue
    split
    · rename_i hnil
      rw [hnil]
      rfl
    · rfl
  · intro hcase
    rcases hcase with hcase | hcase
    · cases h.enabled.symm.trans hcase
    · cases h.archived.symm.trans hcase

theorem tick_own (h : Live parseRruleSet info rule) (s : CommandState) (c now : ℕ)
    (ok : DueScheduleRun → Bool) (hget : s.get info.scheduleId = some ⟨info, c⟩) :
    (runDueSchedules parseRruleSet now ok s).get info.scheduleId =
        some ⟨info, tickCheckpoint rule info c now ok⟩ ∧
      ∀ j : ScheduledRun, j.scheduleId = info.scheduleId →
        (j ∈ (runDueSchedules parseRruleSet now ok s).jobs ↔
          j ∈ s.jobs ∨ j ∈ (serve ok (tickDue rule info c now) c).2) := by
  obtain ⟨hmem, _⟩ := get_mem s info.scheduleId _ hget
  have hcheck := checkSchedule_live h c now
  have hown := collectDue_own parseRruleSet now s ⟨info, c⟩ hmem
  rw [hcheck] at hown
  have hget' : (collectDue parseRruleSet now s).1.get info.scheduleId =
      some (checkSchedule parseRruleSet now ⟨info, c⟩).1 := by
    unfold collectDue
    rw [get_modify, hget]
    rfl
  rw [hcheck] at hget'
  have hdue : ∀ d ∈ (collectDue parseRruleSet now s).2, d.schedule.scheduleId = info.scheduleId →
      d.schedule = info := by
    intro d hd hid
    have hin : d ∈ (collectDue parseRruleSet now s).2.filter
        fun d => d.schedule.scheduleId = info.scheduleId :=
      List.mem_filter.mpr ⟨hd, decide_eq_true hid⟩
    rw [hown] at hin
    exact (dueRuns_schedule _ _ _ d hin).1
  obtain ⟨hres, hjobs⟩ := runDue_own ok info h.enabled h.archived _ [] _ _ hget' hdue
  rw [hown] at hres hjobs
  unfold runDueSchedules
  refine ⟨?_, ?_⟩
  · rw [hres, if_neg List.not_mem_nil]
    unfold tickCheckpoint
    split
    · rename_i hnil
      unfold tickDue
      rw [hnil]
      rfl
    · rfl
  · intro j hj
    rw [hjobs j hj]
    simp only [List.not_mem_nil, not_false_eq_true, true_and]
    have hsame : (serve ok (tickDue rule info c now)
        (if (tickRuns rule c now).runAtMs = []
          then nextScheduleCheckpoint now (tickRuns rule c now) else c)).2 =
        (serve ok (tickDue rule info c now) c).2 := by
      split
      · rename_i hnil
        unfold tickDue
        rw [hnil]
        rfl
      · rfl
    rw [hsame]
    rfl

section
variable (ok : DueScheduleRun → Bool) (final : ℕ) (runs : List ℕ)
include ok final runs

theorem serve_created (c : ℕ)
    (j : ScheduledRun) (h : j ∈ (serve ok (dueRuns info final runs) c).2) :
    ∃ x ∈ runs, j = info.run x := by
  induction runs generalizing c with
  | nil => exact absurd h List.not_mem_nil
  | cons x xs ih =>
    cases xs with
    | nil =>
      unfold dueRuns serve at h
      split at h
      · rw [List.mem_singleton.mp h]
        exact ⟨x, List.mem_cons_self, rfl⟩
      · exact absurd h List.not_mem_nil
    | cons y ys =>
      unfold dueRuns serve at h
      split at h
      · rcases List.mem_cons.mp h with rfl | h
        · exact ⟨x, List.mem_cons_self, rfl⟩
        · obtain ⟨z, hz, hj⟩ := ih _ h
          exact ⟨z, List.mem_cons_of_mem x hz, hj⟩
      · exact absurd h List.not_mem_nil

theorem serve_passed (c x : ℕ)
    (hs : runs.Pairwise (· < ·)) (hlt : c < x)
    (hle : x ≤ (serve ok (dueRuns info final runs) c).1) :
    (∃ y ∈ runs, x ≤ y ∧ ∀ z ∈ runs, z ≤ y →
        info.run z ∈ (serve ok (dueRuns info final runs) c).2) ∨
      x ≤ final ∧ (∀ d ∈ dueRuns info final runs, ok d = true) ∧
        ∀ z ∈ runs, info.run z ∈ (serve ok (dueRuns info final runs) c).2 := by
  induction runs generalizing c with
  | nil =>
    change x ≤ c at hle
    omega
  | cons w ws ih =>
    obtain ⟨hw, hws⟩ := List.pairwise_cons.mp hs
    cases ws with
    | nil =>
      unfold dueRuns serve at hle ⊢
      split at hle
      · rename_i hok
        rw [if_pos hok]
        right
        refine ⟨?_, ?_, ?_⟩
        · change x ≤ max c final at hle
          omega
        · intro d hd
          rw [List.mem_singleton.mp hd]
          exact hok
        · intro z hz
          rw [List.mem_singleton.mp hz]
          exact List.mem_cons_self
      · change x ≤ c at hle
        omega
    | cons y ys =>
      unfold dueRuns serve at hle ⊢
      split at hle
      · rename_i hok
        rw [if_pos hok]
        dsimp only at hle ⊢
        by_cases hxw : x ≤ w
        · left
          refine ⟨w, List.mem_cons_self, hxw, ?_⟩
          intro z hz hzw
          rcases List.mem_cons.mp hz with rfl | hz
          · exact List.mem_cons_self
          · have hlt := hw z hz
            omega
        · rcases ih (max c w) hws (by omega) hle with ⟨v, hv, hxv, hall⟩ | ⟨hfinal, hoks, hall⟩
          · left
            refine ⟨v, List.mem_cons_of_mem w hv, hxv, ?_⟩
            intro z hz hzv
            rcases List.mem_cons.mp hz with rfl | hz
            · exact List.mem_cons_self
            · exact List.mem_cons_of_mem _ (hall z hz hzv)
          · right
            refine ⟨hfinal, ?_, ?_⟩
            · intro d hd
              rcases List.mem_cons.mp hd with rfl | hd
              · exact hok
              · exact hoks d hd
            · intro z hz
              rcases List.mem_cons.mp hz with rfl | hz
              · exact List.mem_cons_self
              · exact List.mem_cons_of_mem _ (hall z hz)
      · change x ≤ c at hle
        omega

theorem serve_all (c : ℕ)
    (hne : runs ≠ []) (hall : ∀ d ∈ dueRuns info final runs, ok d = true) :
    final ≤ (serve ok (dueRuns info final runs) c).1 := by
  induction runs generalizing c with
  | nil => exact absurd rfl hne
  | cons w ws ih =>
    cases ws with
    | nil =>
      unfold dueRuns serve
      rw [if_pos (hall _ List.mem_cons_self)]
      exact le_max_right c final
    | cons y ys =>
      unfold dueRuns serve
      rw [if_pos (hall _ List.mem_cons_self)]
      exact ih _ (List.cons_ne_nil y ys) fun d hd => hall d (List.mem_cons_of_mem _ hd)

end

def Reaches (rule : Rule) (c now : ℕ) : Prop :=
  ∀ x, rule.occurs x = true → c < x → x ≤ now → x ≤ searchEnd rule c now

theorem tick_serves (c now : ℕ) (ok : DueScheduleRun → Bool)
    (hmeets : Stopped rule c now ∨ Reaches rule c now ∨ ∃ d ∈ tickDue rule info c now, ok d = false)
    (x : ℕ) (hx : rule.occurs x = true) (hlt : c < x) (hle : x ≤ tickCheckpoint rule info c now ok) :
    info.run x ∈ (serve ok (tickDue rule info c now) c).2 := by
  unfold tickCheckpoint at hle
  split at hle
  · rename_i hnil
    have hnow : x ≤ now := by
      by_cases hstop : Stopped rule c now
      · rw [tickRuns_checkpoint_stopped rule c now hstop, hnil] at hle
        exact hle
      · rw [tickRuns_checkpoint_now rule c now hstop] at hle
        exact hle
    have hstop : ¬ Stopped rule c now := by
      intro hstop
      exact tickRuns_stopped rule c now hstop (by omega) hnil
    rcases hmeets with hs | hreach | ⟨d, hd, _⟩
    · exact absurd hs hstop
    · have hin := tickRuns_complete rule c now hstop x hx hlt (hreach x hx hlt hnow)
      rw [hnil] at hin
      exact absurd hin List.not_mem_nil
    · unfold tickDue at hd
      rw [hnil] at hd
      exact absurd hd List.not_mem_nil
  · rename_i hne
    rcases serve_passed ok _ _ c x (tickRuns_sorted rule c now) hlt hle with
      ⟨y, hy, hxy, hall⟩ | ⟨hfinal, hoks, hall⟩
    · exact hall x (tickRuns_initial rule c now x y hx hlt hy hxy) hxy
    · apply hall
      by_cases hstop : Stopped rule c now
      · rw [tickRuns_checkpoint_stopped rule c now hstop] at hfinal
        obtain ⟨y, hy⟩ := Option.isSome_iff_exists.mp (List.getLast?_isSome.mpr hne)
        rw [hy] at hfinal
        exact tickRuns_initial rule c now x y hx hlt (List.mem_of_getLast? hy) hfinal
      · rw [tickRuns_checkpoint_now rule c now hstop] at hfinal
        have hreach : Reaches rule c now := by
          rcases hmeets with hs | hreach | ⟨d, hd, hfail⟩
          · exact absurd hs hstop
          · exact hreach
          · cases (hoks d hd).symm.trans hfail
        exact tickRuns_complete rule c now hstop x hx hlt (hreach x hx hlt hfinal)

theorem tick_loses (c now : ℕ) (ok : DueScheduleRun → Bool) (hstop : ¬ Stopped rule c now)
    (hreach : ¬ Reaches rule c now) (hall : ∀ d ∈ tickDue rule info c now, ok d = true) :
    ∃ x, rule.occurs x = true ∧ c < x ∧ x ≤ tickCheckpoint rule info c now ok ∧
      info.run x ∉ (serve ok (tickDue rule info c now) c).2 := by
  unfold Reaches at hreach
  push Not at hreach
  obtain ⟨x, hx, hlt, hnow, hend⟩ := hreach
  refine ⟨x, hx, hlt, ?_, ?_⟩
  · unfold tickCheckpoint
    split
    · rw [tickRuns_checkpoint_now rule c now hstop]
      exact hnow
    · rename_i hne
      calc
        x ≤ now := hnow
        _ = nextScheduleCheckpoint now (tickRuns rule c now) :=
          (tickRuns_checkpoint_now rule c now hstop).symm
        _ ≤ (serve ok (tickDue rule info c now) c).1 := serve_all ok _ _ c hne hall
  · intro hin
    obtain ⟨y, hy, heq⟩ := serve_created ok _ _ c _ hin
    have hxy : x = y := congrArg ScheduledRun.plannedRunAtMs heq
    have hyend := (tickRuns_mem rule c now y hy).2.2
    omega

abbrev Tick := ℕ × (DueScheduleRun → Bool)

def Meets (rule : Rule) (info : ScheduleInfo) (s : CommandState) (tick : Tick) : Prop :=
  ∀ c, s.get info.scheduleId = some ⟨info, c⟩ → Stopped rule c tick.1 ∨ Reaches rule c tick.1 ∨
    ∃ d ∈ tickDue rule info c tick.1, tick.2 d = false

def Served (rule : Rule) (info : ScheduleInfo) (s s' : CommandState) : Prop :=
  ∀ c c', s.get info.scheduleId = some ⟨info, c⟩ → s'.get info.scheduleId = some ⟨info, c'⟩ →
    ∀ x, rule.occurs x = true → c < x → x ≤ c' → info.run x ∈ s'.jobs

section
variable (parseRruleSet : String → Option Rule)

def runTick (s : CommandState) (tick : Tick) : CommandState :=
  runDueSchedules parseRruleSet tick.1 tick.2 s

def AllMeet (rule : Rule) (info : ScheduleInfo) : CommandState → List Tick → Prop
  | _, [] => True
  | s, tick :: ticks => Meets rule info s tick ∧ AllMeet rule info (runTick parseRruleSet s tick) ticks

end

section
variable (h : Live parseRruleSet info rule)
include h

theorem tick_served (s : CommandState) (tick : Tick)
    (hmeets : Meets rule info s tick) : Served rule info s (runTick parseRruleSet s tick) := by
  intro c c' hc hc' x hx hlt hle
  obtain ⟨hget, hjobs⟩ := tick_own h s c tick.1 tick.2 hc
  cases hget.symm.trans hc'
  exact (hjobs (info.run x) rfl).mpr (.inr (tick_serves c tick.1 tick.2 (hmeets c hc) x hx hlt hle))

theorem tick_get (s : CommandState) (tick : Tick) (c : ℕ)
    (hc : s.get info.scheduleId = some ⟨info, c⟩) :
    ∃ c', (runTick parseRruleSet s tick).get info.scheduleId = some ⟨info, c'⟩ :=
  ⟨_, (tick_own h s c tick.1 tick.2 hc).1⟩

theorem runTick_jobs (s : CommandState) (tick : Tick) (c x : ℕ)
    (hc : s.get info.scheduleId = some ⟨info, c⟩) (hx : info.run x ∈ s.jobs) :
    info.run x ∈ (runTick parseRruleSet s tick).jobs :=
  ((tick_own h s c tick.1 tick.2 hc).2 (info.run x) rfl).mpr (.inl hx)

theorem ticks_jobs (ticks : List Tick) (s : CommandState) (c x : ℕ)
    (hc : s.get info.scheduleId = some ⟨info, c⟩) (hx : info.run x ∈ s.jobs) :
    info.run x ∈ (ticks.foldl (runTick parseRruleSet) s).jobs := by
  induction ticks generalizing s c with
  | nil => exact hx
  | cons tick ticks ih =>
    obtain ⟨c', hc'⟩ := tick_get h s tick c hc
    exact ih _ c' hc' (runTick_jobs h s tick c x hc hx)

theorem ticks_served (ticks : List Tick) (s : CommandState)
    (hmeet : AllMeet parseRruleSet rule info s ticks) :
    Served rule info s (ticks.foldl (runTick parseRruleSet) s) := by
  induction ticks generalizing s with
  | nil =>
    intro c c' hc hc' x _ hlt hle
    cases hc.symm.trans hc'
    omega
  | cons tick ticks ih =>
    intro c c' hc hc' x hx hlt hle
    obtain ⟨m, hm⟩ := tick_get h s tick c hc
    by_cases hxm : x ≤ m
    · exact ticks_jobs h ticks _ m x hm (tick_served h s tick hmeet.1 c m hc hm x hx hlt hxm)
    · exact ih _ hmeet.2 m c' hm hc' x hx (by omega) hle

end

/-- In a run of ticks of which each is stopped by the limit, reaches all that is due or fails to
create a job, every occurrence that the checkpoint has passed has had its job created. A tick that
does none of these loses an occurrence. -/
theorem occurrences_served (h : Live parseRruleSet info rule) (s : CommandState) :
    (∀ ticks, AllMeet parseRruleSet rule info s ticks →
      Served rule info s (ticks.foldl (runTick parseRruleSet) s)) ∧
    ∀ tick c, s.get info.scheduleId = some ⟨info, c⟩ → (∀ x, info.run x ∈ s.jobs → x ≤ c) →
      (Served rule info s (runTick parseRruleSet s tick) ↔ Meets rule info s tick) := by
  constructor
  · exact fun ticks hmeet => ticks_served h ticks s hmeet
  · intro tick c hc hjobs
    constructor
    · intro hserved c' hc'
      cases hc.symm.trans hc'
      by_cases hstop : Stopped rule c tick.1
      · exact .inl hstop
      by_cases hreach : Reaches rule c tick.1
      · exact .inr (.inl hreach)
      right
      right
      by_contra hnone
      push Not at hnone
      have hall : ∀ d ∈ tickDue rule info c tick.1, tick.2 d = true := by
        intro d hd
        exact Bool.eq_true_of_not_eq_false (hnone d hd)
      obtain ⟨x, hx, hlt, hle, hno⟩ := tick_loses c tick.1 tick.2 hstop hreach hall
      obtain ⟨hget, hcreated⟩ := tick_own h s c tick.1 tick.2 hc
      have hin := hserved c _ hc hget x hx hlt hle
      rcases (hcreated (info.run x) rfl).mp hin with hold | hnew
      · have hxc := hjobs x hold
        omega
      · exact hno hnew
    · exact tick_served h s tick

end

def everyTwoHours : Rule where
  occurs := fun x => x % 7200000 = 0
  freq := .secondly
  later := fun _ => true
  later_iff := by
    intro u
    constructor
    · intro _
      exact ⟨7200000 * u, by omega, decide_eq_true (by omega)⟩
    · exact fun _ => rfl

def sampleSchedule : ScheduleInfo where
  scheduleId := "schedule"
  rruleSet := "DTSTART:19700101T000000Z\nRRULE:FREQ=SECONDLY;INTERVAL=7200"
  startAtMs := 0
  enabled := true
  archived := false
  updatedAtMs := 0

def sampleState : CommandState where
  schedules := [⟨sampleSchedule, 0⟩]
  jobs := [sampleSchedule.run 0]
  keys := List.nodup_singleton _

def sampleParse (text : String) : Option Rule :=
  if text = sampleSchedule.rruleSet then some everyTwoHours else none

theorem sample_live : Live sampleParse sampleSchedule everyTwoHours := ⟨rfl, rfl, if_pos rfl⟩

theorem sample_get : sampleState.get sampleSchedule.scheduleId = some ⟨sampleSchedule, 0⟩ := rfl

theorem everyTwoHours_ended : searchEnd everyTwoHours 0 10800000 = 3600001 := by decide

theorem sample_none (now x : ℕ) (hnow : searchEnd everyTwoHours 0 now < 7200000) :
    x ∉ (tickRuns everyTwoHours 0 now).runAtMs := by
  intro hx
  obtain ⟨hoccurs, hlt, hend⟩ := tickRuns_mem everyTwoHours 0 now x hx
  have hmod : x % 7200000 = 0 := of_decide_eq_true hoccurs
  omega

theorem sample_notStopped (now : ℕ) (hle : 0 ≤ now)
    (hnow : searchEnd everyTwoHours 0 now < 7200000) : ¬ Stopped everyTwoHours 0 now := by
  intro hstop
  exact tickRuns_stopped everyTwoHours 0 now hstop hle
    (List.eq_nil_iff_forall_not_mem.mpr fun x => sample_none now x hnow)

theorem occurrence_lost : ¬ Served everyTwoHours sampleSchedule sampleState
    (runTick sampleParse sampleState (10800000, fun _ => true)) := by
  intro hserved
  have hend : searchEnd everyTwoHours 0 10800000 < 7200000 := by
    rw [everyTwoHours_ended]
    decide
  have hnil : (tickRuns everyTwoHours 0 10800000).runAtMs = [] :=
    List.eq_nil_iff_forall_not_mem.mpr fun x => sample_none 10800000 x hend
  have hreach : ¬ Reaches everyTwoHours 0 10800000 := by
    intro hreach
    have h := hreach 7200000 (by decide) (by decide) (by decide)
    omega
  have hall : ∀ d ∈ tickDue everyTwoHours sampleSchedule 0 10800000, true = true :=
    fun _ _ => rfl
  obtain ⟨x, hx, hlt, hle, hno⟩ := tick_loses 0 10800000 (fun _ => true)
    (sample_notStopped 10800000 (Nat.zero_le _) hend) hreach hall
  obtain ⟨hget, hcreated⟩ := tick_own sample_live sampleState 0 10800000 (fun _ => true) sample_get
  have hin := hserved 0 _ sample_get hget x hx hlt hle
  rcases (hcreated _ rfl).mp hin with hold | hnew
  · have heq := congrArg ScheduledRun.plannedRunAtMs (List.mem_singleton.mp hold)
    change x = 0 at heq
    omega
  · exact hno hnew

def everySecond : Rule where
  occurs := fun x => x % 1000 = 0
  freq := .secondly
  later := fun _ => true
  later_iff := by
    intro u
    constructor
    · intro _
      exact ⟨1000 * u, by omega, decide_eq_true (by omega)⟩
    · exact fun _ => rfl

def steadyParse (text : String) : Option Rule :=
  if text = sampleSchedule.rruleSet then some everySecond else none

/-- All five runs that are due; the run at 7 s fails; more are due than a tick creates. -/
def steadyTicks : List Tick :=
  [(5000, fun _ => true), (8000, fun d => d.runAtMs ≠ 7000), (40000, fun _ => true)]

theorem checkpoint_unique {s : CommandState} {c m : ℕ}
    (hc : s.get sampleSchedule.scheduleId = some ⟨sampleSchedule, c⟩)
    (hm : s.get sampleSchedule.scheduleId = some ⟨sampleSchedule, m⟩) : c = m := by
  cases hc.symm.trans hm
  rfl

theorem steadyTicks_meet : AllMeet steadyParse everySecond sampleSchedule sampleState steadyTicks := by
  refine ⟨?_, ?_, ?_, trivial⟩
  · intro c hc
    obtain rfl := checkpoint_unique hc sample_get
    refine .inr (.inl fun x _ _ hle => hle.trans ?_)
    decide
  · intro c hc
    obtain rfl : c = 5000 := checkpoint_unique hc (by decide +kernel)
    refine .inr (.inr ⟨⟨sampleSchedule, 7000, 7000⟩, ?_, ?_⟩)
    · decide +kernel
    · decide +kernel
  · intro c hc
    obtain rfl : c = 6000 := checkpoint_unique hc (by decide +kernel)
    left
    unfold Stopped
    decide +kernel

theorem occurrences_served_sample :
    (steadyTicks.foldl (runTick steadyParse) sampleState).jobs =
      (List.range 23).map (fun n => sampleSchedule.run (1000 * n)) ∧
    (steadyTicks.foldl (runTick steadyParse) sampleState).get sampleSchedule.scheduleId =
      some ⟨sampleSchedule, 22000⟩ ∧
    Served everySecond sampleSchedule sampleState
      (steadyTicks.foldl (runTick steadyParse) sampleState) :=
  ⟨by decide +kernel, by decide +kernel,
    (occurrences_served ⟨rfl, rfl, if_pos rfl⟩ sampleState).1 _ steadyTicks_meet⟩

end Rieul.Command
