import Rieul.Command.NoneLost

/-!
# One job for each planned run

Ticks, updates and restarts change the checkpoints; a tick creates its jobs and advances the
checkpoint in separate steps.
-/

namespace Rieul.Command

structure UpdateScheduleReq where
  startAtMs : Option ℕ
  rruleSet : Option String
  enabled : Option Bool
  archived : Option Bool

section
variable (canonicalize : ℕ → String → Option (ℕ × String))

def updatedInfo (info : ScheduleInfo) (request : UpdateScheduleReq) (now : ℕ) :
    Option ScheduleInfo := do
  let (startAtMs, rruleSet) ← canonicalize (request.startAtMs.getD info.startAtMs)
    (request.rruleSet.getD info.rruleSet)
  some { info with
    startAtMs := startAtMs
    rruleSet := rruleSet
    enabled := request.enabled.getD info.enabled
    archived := request.archived.getD info.archived
    updatedAtMs := nextScheduleRevision info.updatedAtMs now }

/-- `should_reset_checkpoint`. -/
def shouldReset (previous info : ScheduleInfo) : Bool :=
  info.startAtMs ≠ previous.startAtMs ∨ info.rruleSet ≠ previous.rruleSet ∨
    info.enabled ≠ previous.enabled ∨ info.archived ≠ previous.archived

def updatedRecord (r : ScheduleRecord) (info : ScheduleInfo) (now : ℕ) : ScheduleRecord :=
  ⟨info, if shouldReset r.info info then newScheduleCheckpoint now else r.lastCheckedMs⟩

def replaceRecord (scheduleId : String) (next : ScheduleRecord) (r : ScheduleRecord) :
    ScheduleRecord :=
  if r.info.scheduleId = scheduleId ∧ next.info.scheduleId = scheduleId then next else r

theorem replaceRecord_key (scheduleId : String) (next r : ScheduleRecord) :
    (replaceRecord scheduleId next r).info.scheduleId = r.info.scheduleId := by
  unfold replaceRecord
  split
  · rename_i h
    exact h.2.trans h.1.symm
  · rfl

/-- `now` is read for the revision, `later` for the checkpoint. -/
def updateSchedule (s : CommandState) (scheduleId : String) (request : UpdateScheduleReq)
    (now later : ℕ) : Option CommandState := do
  let r ← s.get scheduleId
  let info ← updatedInfo canonicalize r.info request now
  some (s.modify (replaceRecord scheduleId (updatedRecord r info later))
    (replaceRecord_key scheduleId _))

end

def ScheduledRun.Of (j : ScheduledRun) (info : ScheduleInfo) : Prop :=
  j.scheduleId = info.scheduleId ∧ j.rruleSet = info.rruleSet

instance (j : ScheduledRun) (info : ScheduleInfo) : Decidable (j.Of info) := by
  unfold ScheduledRun.Of
  infer_instance

/-- `restored_schedule_checkpoints`, for one schedule. -/
def restoredCheckpoint (info : ScheduleInfo) (jobs : List ScheduledRun) (now : ℕ) : ℕ :=
  (jobs.filter fun j => j.Of info).foldl (fun checkpoint j => max checkpoint j.plannedRunAtMs)
    (newScheduleCheckpoint now)

/-- `open` on what is stored. -/
def restored (s : CommandState) (now : ℕ) : CommandState :=
  s.modify (fun r => ⟨r.info, restoredCheckpoint r.info s.jobs now⟩) fun _ => rfl

/-- The manager, and the tick that is under way: what it still has to create, what has failed, and
the run whose job it has created but whose checkpoint it has not advanced. -/
structure Scheduler where
  state : CommandState
  due : List DueScheduleRun
  failed : List String
  created : Option DueScheduleRun

inductive Action where
  | tick (now : ℕ)
  | create (ok : Bool)
  | advance
  | update (scheduleId : String) (request : UpdateScheduleReq) (now later : ℕ)
  | restart (now : ℕ)

section
variable (parseRruleSet : String → Option Rule)
variable (canonicalize : ℕ → String → Option (ℕ × String))

def Scheduler.exec (s : Scheduler) : Action → Option Scheduler
  | .tick now =>
    if s.due = [] ∧ s.created = none then
      let (state, due) := collectDue parseRruleSet now s.state
      some ⟨state, due, [], none⟩
    else none
  | .create ok =>
    match s.created, s.due with
    | none, d :: ds =>
      if d.schedule.scheduleId ∈ s.failed then some { s with due := ds }
      else match createScheduledJob s.state d ok with
        | some state => some ⟨state, ds, s.failed, some d⟩
        | none => some { s with due := ds, failed := d.schedule.scheduleId :: s.failed }
    | _, _ => none
  | .advance =>
    match s.created with
    | some d => some { s with state := advanceScheduleCheckpoint s.state d, created := none }
    | none => none
  | .update scheduleId request now later =>
    (updateSchedule canonicalize s.state scheduleId request now later).map
      fun state => { s with state := state }
  | .restart now => some ⟨restored s.state now, [], [], none⟩

def Scheduler.run (s : Scheduler) : List Action → Option Scheduler
  | [] => some s
  | a :: as => do
    let s' ← s.exec parseRruleSet canonicalize a
    s'.run as

def Scheduler.Initial (s : Scheduler) : Prop :=
  ∃ stored now, stored.jobs.Nodup ∧ s = ⟨restored stored now, [], [], none⟩

/-- A tick does not search up to an occurrence in the millisecond after its reading of the clock,
and the clock has not gone back behind a run that was served. -/
def TickFits (s : CommandState) (now : ℕ) : Prop :=
  ∀ r ∈ s.schedules, ∀ rule, Live parseRruleSet r.info rule →
    (Stopped rule r.lastCheckedMs now ∨ rule.occurs (now + 1) = false ∨
      searchEnd rule r.lastCheckedMs now ≤ now) ∧
    (r.lastCheckedMs ≤ now ∨ ∀ j ∈ s.jobs, j.Of r.info → j.plannedRunAtMs ≤ now)

def UpdateFits (s : CommandState) (scheduleId : String) (request : UpdateScheduleReq)
    (now later : ℕ) : Prop :=
  ∀ r info, s.get scheduleId = some r → updatedInfo canonicalize r.info request now = some info →
    r.info.updatedAtMs < u64Max ∧ ∀ rule, Live parseRruleSet info rule → ∀ j ∈ s.jobs, j.Of info →
      j.plannedRunAtMs ≤
        if shouldReset r.info info then newScheduleCheckpoint later else r.lastCheckedMs

def Scheduler.Fits (s : Scheduler) : Action → Prop
  | .tick now => TickFits parseRruleSet s.state now
  | .update scheduleId request now later =>
    UpdateFits parseRruleSet canonicalize s.state scheduleId request now later
  | _ => True

def Scheduler.AllFit (s : Scheduler) : List Action → Prop
  | [] => True
  | a :: as => s.Fits parseRruleSet canonicalize a ∧
    ∀ s', s.exec parseRruleSet canonicalize a = some s' → s'.AllFit as

structure Scheduler.Inv (s : Scheduler) : Prop where
  nodup : s.state.jobs.Nodup
  behind : ∀ r ∈ s.state.schedules, ∀ rule, Live parseRruleSet r.info rule → ∀ j ∈ s.state.jobs,
    j.Of r.info → j.plannedRunAtMs ≤ r.lastCheckedMs ∨
      ∃ d, s.created = some d ∧ d.schedule = r.info ∧ j.plannedRunAtMs ≤ d.checkpointAfterSuccess
  ahead : ∀ d ∈ s.due, ∀ r ∈ s.state.schedules, r.info = d.schedule → ∀ j ∈ s.state.jobs,
    j.Of d.schedule → j.plannedRunAtMs < d.runAtMs
  sorted : s.due.Pairwise fun d d' => d.schedule = d'.schedule → d.runAtMs < d'.runAtMs
  same : ∀ d, d ∈ s.due ∨ s.created = some d → ∀ r ∈ s.state.schedules,
    r.info.scheduleId = d.schedule.scheduleId → d.schedule.updatedAtMs ≤ r.info.updatedAtMs ∧
      (d.schedule.updatedAtMs = r.info.updatedAtMs → r.info = d.schedule)
  passed : ∀ d ∈ s.due, d.runAtMs ≤ d.checkpointAfterSuccess

end

theorem restoredCheckpoint_le (info : ScheduleInfo) (jobs : List ScheduledRun) (now : ℕ)
    (j : ScheduledRun) (hj : j ∈ jobs) (hof : j.Of info) :
    j.plannedRunAtMs ≤ restoredCheckpoint info jobs now := by
  have hin : j ∈ jobs.filter fun j => j.Of info := List.mem_filter.mpr ⟨hj, decide_eq_true hof⟩
  unfold restoredCheckpoint
  generalize newScheduleCheckpoint now = c
  revert hin
  generalize (jobs.filter fun j => j.Of info) = own
  intro hin
  have hmono : ∀ (own : List ScheduledRun) (c : ℕ),
      c ≤ own.foldl (fun checkpoint j => max checkpoint j.plannedRunAtMs) c := by
    intro own
    induction own with
    | nil => exact fun c => le_rfl
    | cons i own ih => exact fun c => (le_max_left c _).trans (ih _)
  induction own generalizing c with
  | nil => exact absurd hin List.not_mem_nil
  | cons i own ih =>
    rw [List.foldl_cons]
    rcases List.mem_cons.mp hin with rfl | hin
    · exact (le_max_right c _).trans (hmono own _)
    · exact ih _ hin

section
variable {parseRruleSet : String → Option Rule}
variable {canonicalize : ℕ → String → Option (ℕ × String)}
variable {s s' : Scheduler}

theorem restored_inv (stored : CommandState) (now : ℕ) (hnodup : stored.jobs.Nodup) :
    Scheduler.Inv parseRruleSet ⟨restored stored now, [], [], none⟩ := by
  constructor
  case nodup => exact hnodup
  case behind =>
    intro r hr rule _ j hj hof
    obtain ⟨q, _, rfl⟩ := List.mem_map.mp hr
    exact .inl (restoredCheckpoint_le q.info stored.jobs now j hj hof)
  case ahead => exact fun d hd => absurd hd List.not_mem_nil
  case sorted => exact List.Pairwise.nil
  case same =>
    intro d hd
    rcases hd with hd | hd
    · exact absurd hd List.not_mem_nil
    · cases hd
  case passed => exact fun d hd => absurd hd List.not_mem_nil

theorem tickRuns_now (rule : Rule) (c now x : ℕ)
    (hfits : Stopped rule c now ∨ rule.occurs (now + 1) = false ∨ searchEnd rule c now ≤ now)
    (hstop : ¬ Stopped rule c now) (hx : x ∈ (tickRuns rule c now).runAtMs) : x ≤ now := by
  obtain ⟨hoccurs, _, hend⟩ := tickRuns_mem rule c now x hx
  have hle : searchEnd rule c now ≤ now + 1 := by
    have h := unixMsToDatetime_le (saturatingAdd (searchedUntil rule c (some now)) 1)
    have huntil : searchedUntil rule c (some now) ≤ now := by
      exact min_le_left _ _
    have hadd : saturatingAdd (searchedUntil rule c (some now)) 1 ≤
        searchedUntil rule c (some now) + 1 := min_le_left _ _
    exact h.trans (by omega)
  rcases hfits with hs | hno | hin
  · exact absurd hs hstop
  · by_contra hgt
    have hx : x = now + 1 := by omega
    rw [hx, hno] at hoccurs
    cases hoccurs
  · omega

theorem dueRuns_passed (info : ScheduleInfo) (final : ℕ) (runs : List ℕ) (d : DueScheduleRun)
    (hfinal : ∀ x, runs.getLast? = some x → x ≤ final) (hd : d ∈ dueRuns info final runs) :
    d.runAtMs ≤ d.checkpointAfterSuccess := by
  induction runs with
  | nil => exact absurd hd List.not_mem_nil
  | cons x xs ih =>
    cases xs with
    | nil =>
      rw [List.mem_singleton.mp hd]
      exact hfinal x rfl
    | cons y ys =>
      rcases List.mem_cons.mp hd with rfl | hd
      · exact le_rfl
      · exact ih (fun z hz => hfinal z (by rw [List.getLast?_cons_cons]; exact hz)) hd

theorem dueRuns_sorted (info : ScheduleInfo) (final : ℕ) (runs : List ℕ)
    (hs : runs.Pairwise (· < ·)) :
    (dueRuns info final runs).Pairwise fun d d' => d.runAtMs < d'.runAtMs := by
  induction runs with
  | nil => exact List.Pairwise.nil
  | cons x xs ih =>
    obtain ⟨hx, hxs⟩ := List.pairwise_cons.mp hs
    cases xs with
    | nil => exact List.pairwise_singleton _ _
    | cons y ys =>
      apply List.Pairwise.cons
      · intro d hd
        exact hx d.runAtMs (dueRuns_schedule info final (y :: ys) d hd).2
      · exact ih hxs

theorem checkSchedule_due (now : ℕ) (r : ScheduleRecord) (d : DueScheduleRun)
    (hd : d ∈ (checkSchedule parseRruleSet now r).2) : ∃ rule, Live parseRruleSet r.info rule ∧
      d ∈ tickDue rule r.info r.lastCheckedMs now ∧ (checkSchedule parseRruleSet now r).1 = r := by
  unfold checkSchedule at hd ⊢
  split at hd
  · exact absurd hd List.not_mem_nil
  · rename_i hlive
    split at hd
    · exact absurd hd List.not_mem_nil
    · rename_i rule hrule
      dsimp only at hd ⊢
      split at hd
      · exact absurd hd List.not_mem_nil
      · rename_i hne
        rw [if_neg hlive, if_neg hne]
        refine ⟨rule, ⟨?_, ?_, hrule⟩, hd, rfl⟩
        · exact Bool.eq_true_of_not_eq_false fun h => hlive (.inl h)
        · exact Bool.eq_false_of_not_eq_true fun h => hlive (.inr h)

theorem same_record (s : CommandState) (r r' : ScheduleRecord) (hr : r ∈ s.schedules)
    (hr' : r' ∈ s.schedules) (h : r.info.scheduleId = r'.info.scheduleId) : r = r' := by
  have hget := get_of_mem s r hr
  have hget' := get_of_mem s r' hr'
  rw [h] at hget
  exact Option.some.inj (hget.symm.trans hget')

theorem Scheduler.Inv.tick (h : s.Inv parseRruleSet) (now : ℕ) (hcreated : s.created = none)
    (hfits : TickFits parseRruleSet s.state now) :
    Scheduler.Inv parseRruleSet ⟨(collectDue parseRruleSet now s.state).1,
      (collectDue parseRruleSet now s.state).2, [], none⟩ := by
  have hbehind : ∀ r ∈ s.state.schedules, ∀ rule, Live parseRruleSet r.info rule →
      ∀ j ∈ s.state.jobs, j.Of r.info → j.plannedRunAtMs ≤ r.lastCheckedMs := by
    intro r hr rule hlive j hj hof
    rcases h.behind r hr rule hlive j hj hof with hle | ⟨d, hd, _⟩
    · exact hle
    · cases hcreated.symm.trans hd
  have hdue : ∀ d ∈ (collectDue parseRruleSet now s.state).2, ∃ r ∈ s.state.schedules, ∃ rule,
      Live parseRruleSet r.info rule ∧ d ∈ tickDue rule r.info r.lastCheckedMs now ∧
        (checkSchedule parseRruleSet now r).1 = r := by
    intro d hd
    obtain ⟨r, hr, hd⟩ := List.mem_flatMap.mp hd
    exact ⟨r, hr, checkSchedule_due now r d hd⟩
  have hmem : ∀ q ∈ (collectDue parseRruleSet now s.state).1.schedules, ∃ r ∈ s.state.schedules,
      q = (checkSchedule parseRruleSet now r).1 ∧ q.info = r.info := by
    intro q hq
    obtain ⟨r, hr, rfl⟩ := List.mem_map.mp hq
    exact ⟨r, hr, rfl, checkSchedule_info parseRruleSet now r⟩
  constructor
  case nodup => exact h.nodup
  case behind =>
    intro q hq rule hlive j hj hof
    left
    obtain ⟨r, hr, rfl, hinfo⟩ := hmem q hq
    rw [hinfo] at hlive hof
    have hle := hbehind r hr rule hlive j hj hof
    rw [show r = ⟨r.info, r.lastCheckedMs⟩ from rfl, checkSchedule_live hlive]
    dsimp only
    split
    · rename_i hnil
      have hnow : nextScheduleCheckpoint now (tickRuns rule r.lastCheckedMs now) = now := by
        by_cases hstop : Stopped rule r.lastCheckedMs now
        · rw [tickRuns_checkpoint_stopped rule _ now hstop, hnil]
          rfl
        · exact tickRuns_checkpoint_now rule _ now hstop
      rw [hnow]
      rcases (hfits r hr rule hlive).2 with hclock | hserved
      · omega
      · exact hserved j hj hof
    · exact hle
  case ahead =>
    intro d hd q hq hinfo j hj hof
    obtain ⟨r, hr, rule, hlive, hd, _⟩ := hdue d hd
    obtain ⟨hschedule, hrun⟩ := dueRuns_schedule _ _ _ d hd
    rw [hschedule] at hof
    have hle := hbehind r hr rule hlive j hj hof
    have hlt := (tickRuns_mem rule _ now _ hrun).2.1
    omega
  case sorted =>
    show (s.state.schedules.flatMap fun r => (checkSchedule parseRruleSet now r).2).Pairwise _
    rw [List.pairwise_flatMap]
    constructor
    · intro r hr
      have hnil : (checkSchedule parseRruleSet now r).2 = [] ∨
          ∃ rule, (checkSchedule parseRruleSet now r).2 = tickDue rule r.info r.lastCheckedMs now := by
        unfold checkSchedule
        split
        · exact .inl rfl
        · split
          · exact .inl rfl
          · rename_i rule _
            dsimp only
            split
            · exact .inl rfl
            · exact .inr ⟨rule, rfl⟩
      rcases hnil with hnil | ⟨rule, heq⟩
      · rw [hnil]
        exact List.Pairwise.nil
      · rw [heq]
        have hs := dueRuns_sorted r.info (nextScheduleCheckpoint now (tickRuns rule r.lastCheckedMs now))
          _ (tickRuns_sorted rule r.lastCheckedMs now)
        apply hs.imp
        intro d d' hlt _
        exact hlt
    · have hkeys := s.state.keys
      rw [List.Nodup, List.pairwise_map] at hkeys
      apply hkeys.imp
      intro r r' hne d hd d' hd' hschedule
      rw [checkSchedule_schedule _ now r d hd, checkSchedule_schedule _ now r' d' hd'] at hschedule
      exact absurd (congrArg ScheduleInfo.scheduleId hschedule) hne
  case same =>
    intro d hd q hq hid
    rcases hd with hd | hd
    · obtain ⟨r, hr, rule, _, hd, _⟩ := hdue d hd
      have hschedule := (dueRuns_schedule _ _ _ d hd).1
      obtain ⟨r', hr', _, hinfo⟩ := hmem q hq
      rw [hinfo, hschedule] at hid
      rw [hinfo, hschedule, same_record s.state r' r hr' hr hid]
      exact ⟨le_rfl, fun _ => rfl⟩
    · cases hd
  case passed =>
    intro d hd
    obtain ⟨r, hr, rule, hlive, hd, _⟩ := hdue d hd
    apply dueRuns_passed _ _ _ d ?_ hd
    intro x hx
    by_cases hstop : Stopped rule r.lastCheckedMs now
    · rw [tickRuns_checkpoint_stopped rule _ now hstop, hx]
      exact le_rfl
    · rw [tickRuns_checkpoint_now rule _ now hstop]
      exact tickRuns_now rule _ now x (hfits r hr rule hlive).1 hstop (List.mem_of_getLast? hx)

section
variable (h : s.Inv parseRruleSet) (d : DueScheduleRun)
include h d

theorem Scheduler.Inv.drop
    (ds : List DueScheduleRun) (hdue : s.due = d :: ds) (failed : List String) :
    Scheduler.Inv parseRruleSet ⟨s.state, ds, failed, s.created⟩ := by
  have hsub : ∀ d' ∈ ds, d' ∈ s.due := by
    intro d' hd'
    rw [hdue]
    exact List.mem_cons_of_mem d hd'
  have hsorted := h.sorted
  rw [hdue] at hsorted
  constructor
  case nodup => exact h.nodup
  case behind => exact h.behind
  case ahead => exact fun d' hd' => h.ahead d' (hsub d' hd')
  case sorted => exact (List.pairwise_cons.mp hsorted).2
  case same =>
    intro d' hd'
    rcases hd' with hd' | hd'
    · exact h.same d' (.inl (hsub d' hd'))
    · exact h.same d' (.inr hd')
  case passed => exact fun d' hd' => h.passed d' (hsub d' hd')

theorem Scheduler.Inv.create
    (ds : List DueScheduleRun) (hdue : s.due = d :: ds) (hcreated : s.created = none)
    (ok : Bool) (state : CommandState) (hstate : createScheduledJob s.state d ok = some state) :
    Scheduler.Inv parseRruleSet ⟨state, ds, s.failed, some d⟩ := by
  have hd : d ∈ s.due := by
    rw [hdue]
    exact List.mem_cons_self
  obtain ⟨q, hq, hrevision, rfl⟩ := createScheduledJob_of s.state state d ok hstate
  obtain ⟨hq, hid⟩ := get_mem s.state _ q hq
  have hschedule : q.info = d.schedule :=
    (h.same d (.inl hd) q hq hid).2 hrevision.symm
  have hown : ∀ r ∈ s.state.schedules, d.reason.Of r.info → r.info = d.schedule := by
    intro r hr hof
    rw [← hschedule, same_record s.state r q hr hq (hof.1.symm.trans hid.symm)]
  have hrest := h.drop d ds hdue s.failed
  have hsorted := h.sorted
  rw [hdue] at hsorted
  have hlater := (List.pairwise_cons.mp hsorted).1
  constructor
  case nodup =>
    show (s.state.jobs ++ [d.reason]).Nodup
    apply List.Nodup.append h.nodup (List.nodup_singleton _)
    intro j hj hreason
    rw [List.mem_singleton.mp hreason] at hj
    have hlt := h.ahead d hd q hq hschedule d.reason hj ⟨rfl, rfl⟩
    exact absurd hlt (lt_irrefl _)
  case behind =>
    intro r hr rule hlive j hj hof
    rcases List.mem_append.mp hj with hj | hj
    · rcases h.behind r hr rule hlive j hj hof with hle | ⟨d', hd', _⟩
      · exact .inl hle
      · cases hcreated.symm.trans hd'
    · rw [List.mem_singleton.mp hj] at hof ⊢
      exact .inr ⟨d, rfl, (hown r hr hof).symm, h.passed d hd⟩
  case ahead =>
    intro d' hd' r hr hinfo j hj hof
    rcases List.mem_append.mp hj with hj | hj
    · exact hrest.ahead d' hd' r hr hinfo j hj hof
    · rw [List.mem_singleton.mp hj] at hof ⊢
      rw [← hinfo] at hof
      exact hlater d' hd' ((hown r hr hof).symm.trans hinfo)
  case sorted => exact hrest.sorted
  case same =>
    intro d' hd'
    rcases hd' with hd' | hd'
    · exact hrest.same d' (.inl hd')
    · cases hd'
      exact h.same d (.inl hd)
  case passed => exact hrest.passed

theorem Scheduler.Inv.advance (hcreated : s.created = some d) :
    Scheduler.Inv parseRruleSet ⟨advanceScheduleCheckpoint s.state d, s.due, s.failed, none⟩ := by
  have hmem : ∀ q ∈ (advanceScheduleCheckpoint s.state d).schedules, ∃ r ∈ s.state.schedules,
      q = Command.advance d.schedule.scheduleId d.schedule.updatedAtMs d.checkpointAfterSuccess r ∧
        q.info = r.info := by
    intro q hq
    obtain ⟨r, hr, rfl⟩ := List.mem_map.mp hq
    exact ⟨r, hr, rfl, advance_info _ _ _ r⟩
  constructor
  case nodup => exact h.nodup
  case behind =>
    intro q hq rule hlive j hj hof
    left
    obtain ⟨r, hr, rfl, hinfo⟩ := hmem q hq
    rw [hinfo] at hlive hof
    unfold Command.advance
    split
    · rcases h.behind r hr rule hlive j hj hof with hle | ⟨d', hd', _, hle⟩
      · exact hle.trans (le_max_left _ _)
      · cases hcreated.symm.trans hd'
        exact hle.trans (le_max_right _ _)
    · rename_i hother
      rcases h.behind r hr rule hlive j hj hof with hle | ⟨d', hd', hschedule, _⟩
      · exact hle
      · cases hcreated.symm.trans hd'
        rw [hschedule] at hother
        exact absurd ⟨rfl, rfl⟩ hother
  case ahead =>
    intro d' hd' q hq hinfo'
    obtain ⟨r, hr, _, hinfo⟩ := hmem q hq
    exact h.ahead d' hd' r hr (hinfo.symm.trans hinfo')
  case sorted => exact h.sorted
  case same =>
    intro d' hd' q hq
    obtain ⟨r, hr, _, hinfo⟩ := hmem q hq
    rcases hd' with hd' | hd'
    · rw [hinfo]
      exact h.same d' (.inl hd') r hr
    · cases hd'
  case passed => exact h.passed

end

theorem updatedInfo_id (info info' : ScheduleInfo) (request : UpdateScheduleReq) (now : ℕ)
    (h : updatedInfo canonicalize info request now = some info') :
    info'.scheduleId = info.scheduleId ∧
      info'.updatedAtMs = nextScheduleRevision info.updatedAtMs now := by
  obtain ⟨p, _, h⟩ := Option.bind_eq_some_iff.mp h
  cases h
  exact ⟨rfl, rfl⟩

theorem nextScheduleRevision_gt (previous now : ℕ) (h : previous < u64Max) :
    previous < nextScheduleRevision previous now := by
  have h1 : previous < min (previous + 1) u64Max := by omega
  exact h1.trans_le (le_max_right _ _)

theorem Scheduler.Inv.update (h : s.Inv parseRruleSet) (scheduleId : String)
    (request : UpdateScheduleReq) (now later : ℕ) (state : CommandState)
    (hfits : UpdateFits parseRruleSet canonicalize s.state scheduleId request now later)
    (hstate : updateSchedule canonicalize s.state scheduleId request now later = some state) :
    Scheduler.Inv parseRruleSet { s with state := state } := by
  obtain ⟨r, hget, hstate⟩ := Option.bind_eq_some_iff.mp hstate
  obtain ⟨info, hinfo, hstate⟩ := Option.bind_eq_some_iff.mp hstate
  cases hstate
  obtain ⟨hr, hid⟩ := get_mem s.state _ r hget
  obtain ⟨hsame, hrevision⟩ := updatedInfo_id r.info info request now hinfo
  obtain ⟨hbound, hserved⟩ := hfits r info hget hinfo
  have hlt : r.info.updatedAtMs < info.updatedAtMs := by
    rw [hrevision]
    exact nextScheduleRevision_gt _ now hbound
  have hmem : ∀ q ∈ s.state.schedules.map (replaceRecord scheduleId (updatedRecord r info later)),
      q ∈ s.state.schedules ∨ q = updatedRecord r info later := by
    intro q hq
    obtain ⟨p, hp, rfl⟩ := List.mem_map.mp hq
    unfold replaceRecord
    split
    · exact .inr rfl
    · exact .inl hp
  -- a run that is due or was created is of an earlier revision than the new one
  have hnew : ∀ d, d ∈ s.due ∨ s.created = some d → info.scheduleId = d.schedule.scheduleId →
      d.schedule.updatedAtMs < info.updatedAtMs := by
    intro d hd hkey
    have hle := (h.same d hd r hr (hsame.symm.trans hkey)).1
    omega
  constructor
  case nodup => exact h.nodup
  case behind =>
    intro q hq rule hlive j hj hof
    rcases hmem q hq with hq | rfl
    · exact h.behind q hq rule hlive j hj hof
    · exact .inl (hserved rule hlive j hj hof)
  case ahead =>
    intro d hd q hq hschedule
    rcases hmem q hq with hq | rfl
    · exact h.ahead d hd q hq hschedule
    · have hlt := hnew d (.inl hd) (congrArg ScheduleInfo.scheduleId hschedule)
      have heq := congrArg ScheduleInfo.updatedAtMs hschedule
      change info.updatedAtMs = _ at heq
      omega
  case sorted => exact h.sorted
  case same =>
    intro d hd q hq hkey
    rcases hmem q hq with hq | rfl
    · exact h.same d hd q hq hkey
    · have hlt := hnew d hd hkey
      constructor
      · exact hlt.le
      · intro heq
        change _ = info.updatedAtMs at heq
        omega
  case passed => exact h.passed

theorem Scheduler.Inv.exec (h : s.Inv parseRruleSet) (a : Action)
    (hfits : s.Fits parseRruleSet canonicalize a)
    (hexec : s.exec parseRruleSet canonicalize a = some s') : s'.Inv parseRruleSet := by
  cases a with
  | tick now =>
    dsimp only [Scheduler.exec] at hexec
    split at hexec
    · rename_i hidle
      cases hexec
      exact h.tick now hidle.2 hfits
    · cases hexec
  | create ok =>
    dsimp only [Scheduler.exec] at hexec
    split at hexec
    · rename_i d ds hcreated hdue
      split at hexec
      · cases hexec
        exact h.drop d ds hdue s.failed
      · split at hexec
        · rename_i state hstate
          cases hexec
          exact h.create d ds hdue hcreated ok state hstate
        · cases hexec
          exact h.drop d ds hdue _
    · cases hexec
  | advance =>
    dsimp only [Scheduler.exec] at hexec
    split at hexec
    · rename_i d hcreated
      cases hexec
      exact h.advance d hcreated
    · cases hexec
  | update scheduleId request now later =>
    obtain ⟨state, hstate, heq⟩ := Option.map_eq_some_iff.mp hexec
    rw [← heq]
    exact h.update scheduleId request now later state hfits hstate
  | restart now =>
    cases hexec
    exact restored_inv s.state now h.nodup

theorem Scheduler.Inv.run (as : List Action) (h : s.Inv parseRruleSet)
    (hfit : s.AllFit parseRruleSet canonicalize as)
    (hrun : s.run parseRruleSet canonicalize as = some s') : s'.Inv parseRruleSet := by
  induction as generalizing s with
  | nil =>
    cases hrun
    exact h
  | cons a as ih =>
    obtain ⟨next, hexec, hrun⟩ := Option.bind_eq_some_iff.mp hrun
    exact ih (h.exec a hfit.1 hexec) (hfit.2 next hexec) hrun

theorem planned_once (as : List Action) (hinitial : s.Initial)
    (hfit : s.AllFit parseRruleSet canonicalize as)
    (hrun : s.run parseRruleSet canonicalize as = some s') : s'.state.jobs.Nodup := by
  obtain ⟨stored, now, hnodup, rfl⟩ := hinitial
  exact (Scheduler.Inv.run as (restored_inv stored now hnodup) hfit hrun).nodup

end

def once : Rule where
  occurs := fun x => x = 1000
  freq := .daily
  later := fun u => u ≤ 1000
  later_iff := by
    intro u
    constructor
    · exact fun h => ⟨1000, of_decide_eq_true h, rfl⟩
    · rintro ⟨x, hle, hx⟩
      have hx : x = 1000 := of_decide_eq_true hx
      exact decide_eq_true (by omega)

def onceSchedule : ScheduleInfo where
  scheduleId := "schedule"
  rruleSet := "DTSTART:19700101T000001Z\nRRULE:FREQ=DAILY;COUNT=1"
  startAtMs := 1000
  enabled := true
  archived := false
  updatedAtMs := 0

def onceParse (text : String) : Option Rule :=
  if text = onceSchedule.rruleSet then some once else none

def onceCanonicalize (startAtMs : ℕ) (rruleSet : String) : Option (ℕ × String) :=
  some (startAtMs, rruleSet)

def onceStored : CommandState where
  schedules := [⟨onceSchedule, 0⟩]
  jobs := []
  keys := List.nodup_singleton _

def onceDaemon : Scheduler := ⟨restored onceStored 0, [], [], none⟩

theorem onceDaemon_initial : onceDaemon.Initial := ⟨onceStored, 0, List.nodup_nil, rfl⟩

def onceEnabled (enabled : Bool) : UpdateScheduleReq := ⟨none, none, some enabled, none⟩

def earlyTick : List Action := [.tick 999, .create true, .advance, .tick 1999, .create true]

def sameSecond : List Action :=
  [.tick 1200, .create true, .advance, .update "schedule" (onceEnabled false) 1300 1300,
    .update "schedule" (onceEnabled true) 1500 1500, .tick 1700, .create true]

theorem once_twice (as : List Action) (hjobs : (onceDaemon.run onceParse onceCanonicalize as).map
      (fun s => s.state.jobs) = some [onceSchedule.run 1000, onceSchedule.run 1000]) :
    ∃ s', onceDaemon.run onceParse onceCanonicalize as = some s' ∧ ¬ s'.state.jobs.Nodup := by
  obtain ⟨s', hrun, heq⟩ := Option.map_eq_some_iff.mp hjobs
  refine ⟨s', hrun, ?_⟩
  rw [heq]
  decide

/-- An early tick searches up to the occurrence and leaves its checkpoint before it; an update sets
the checkpoint back to before its own second. -/
theorem planned_twice : onceDaemon.Initial ∧
    (∃ s', onceDaemon.run onceParse onceCanonicalize earlyTick = some s' ∧
      ¬ s'.state.jobs.Nodup) ∧
    ∃ s', onceDaemon.run onceParse onceCanonicalize sameSecond = some s' ∧
      ¬ s'.state.jobs.Nodup := by
  have hearly : (onceDaemon.run onceParse onceCanonicalize earlyTick).map
      (fun s => s.state.jobs) = some [onceSchedule.run 1000, onceSchedule.run 1000] := by
    decide +kernel
  have hsecond : (onceDaemon.run onceParse onceCanonicalize sameSecond).map
      (fun s => s.state.jobs) = some [onceSchedule.run 1000, onceSchedule.run 1000] := by
    decide +kernel
  exact ⟨onceDaemon_initial, once_twice earlyTick hearly, once_twice sameSecond hsecond⟩

theorem once_fits : TickFits onceParse onceDaemon.state 2500 := by
  intro r hr rule hlive
  rw [List.mem_singleton.mp hr] at hlive ⊢
  have hrule : rule = once := (Option.some.inj (hlive.parsed.symm.trans (if_pos rfl)))
  rw [hrule]
  exact ⟨.inr (.inl (by decide)), .inl (by decide)⟩

theorem planned_once_sample :
    ∃ s', onceDaemon.run onceParse onceCanonicalize [.tick 2500, .create true, .advance] = some s' ∧
      s'.state.jobs ≠ [] ∧ s'.state.jobs.Nodup := by
  have hfit : onceDaemon.AllFit onceParse onceCanonicalize
      [.tick 2500, .create true, .advance] := by
    exact ⟨once_fits, fun _ _ => ⟨trivial, fun _ _ => ⟨trivial, fun _ _ => trivial⟩⟩⟩
  have hjobs : (onceDaemon.run onceParse onceCanonicalize
      [.tick 2500, .create true, .advance]).map (fun s => s.state.jobs) =
        some [onceSchedule.run 1000] := by
    decide +kernel
  obtain ⟨s', hrun, heq⟩ := Option.map_eq_some_iff.mp hjobs
  refine ⟨s', hrun, ?_, planned_once _ onceDaemon_initial hfit hrun⟩
  rw [heq]
  exact List.cons_ne_nil _ _

end Rieul.Command
