import Mathlib.Algebra.GroupWithZero.Nat
import Rieul.Lib.Window

/-!
# Schedules (daemon/host/src/command.rs)

A schedule has a recurrence rule and a checkpoint. A tick of the scheduler looks
for occurrences after the checkpoint, creates a job for each, and advances the
checkpoint. Times are milliseconds; `u64` arithmetic saturates.
-/

namespace Rieul.Command

def u64Max : ℕ := 2 ^ 64 - 1

def saturatingAdd (a b : ℕ) : ℕ := min (a + b) u64Max

inductive Frequency where
  | secondly
  | minutely
  | hourly
  | daily
  | weekly
  | monthly
  | yearly

structure Rule where
  occurs : ℕ → Bool
  freq : Frequency
  later : ℕ → Bool
  later_iff : ∀ u, later u = true ↔ ∃ x, u ≤ x ∧ occurs x = true

/-- The last millisecond that a `DateTime` can hold. -/
def maxDatetimeMs : ℕ := 8210266876799999

def unixMsToDatetime (ms : ℕ) : ℕ := if ms ≤ maxDatetimeMs then ms else 0

def defaultSearchHorizonMs (freq : Frequency) : ℕ :=
  let day := 24 * 60 * 60 * 1000
  match freq with
  | .secondly => 60 * 60 * 1000
  | .minutely => day
  | .hourly => 30 * day
  | .daily => 366 * day
  | .weekly => 5 * 366 * day
  | .monthly => 20 * 366 * day
  | .yearly => 100 * 366 * day

/-- The query of the rule set: `after` and `before` are inclusive. -/
structure RuleResult where
  dates : List ℕ
  limited : Bool

def Rule.all (rule : Rule) (after before limit : ℕ) : RuleResult :=
  let dates := Window.first rule.occurs after before limit
  ⟨dates, dates.length = limit⟩

def hasMoreRunsAfter (rule : Rule) (searchedUntilMs : ℕ) : Bool :=
  rule.later (unixMsToDatetime (saturatingAdd searchedUntilMs 1))

inductive Continuation where
  | exhausted
  | moreAvailable
  | searchLimitReached

structure NextRunsReq where
  limit : ℕ
  fromMs : Option ℕ
  searchUntilMs : Option ℕ

structure NextRuns where
  runAtMs : List ℕ
  searchedUntilMs : ℕ
  continuation : Continuation

def nextRunsMaxLimit : ℕ := 1000

def searchedUntil (rule : Rule) (fromMs : ℕ) (searchUntilMs : Option ℕ) : ℕ :=
  let policyUntil := saturatingAdd fromMs (defaultSearchHorizonMs rule.freq)
  min (searchUntilMs.getD policyUntil) policyUntil

def nextRunsForRule (rule : Rule) (request : NextRunsReq) (now : ℕ) : NextRuns :=
  let limit := max 1 (min request.limit nextRunsMaxLimit)
  let fromMs := request.fromMs.getD now
  let searchedUntilMs := searchedUntil rule fromMs request.searchUntilMs
  let fetchLimit := min (limit + 1) (2 ^ 16 - 1)
  let result := rule.all (unixMsToDatetime fromMs)
    (unixMsToDatetime (saturatingAdd searchedUntilMs 1)) fetchLimit
  let after := result.dates.filter fun runAtMs => fromMs < runAtMs
  let hitLimit := limit < after.length
  let continuation : Continuation :=
    if hitLimit ∨ result.limited then .moreAvailable
    else if hasMoreRunsAfter rule searchedUntilMs then .searchLimitReached
    else .exhausted
  ⟨after.take limit, searchedUntilMs, continuation⟩

def nextScheduleCheckpoint (now : ℕ) (runs : NextRuns) : ℕ :=
  match runs.continuation with
  | .moreAvailable => runs.runAtMs.getLast?.getD now
  | .exhausted => now
  | .searchLimitReached => now

def normalizeScheduleStartMs (ms : ℕ) : ℕ := ms - ms % 1000

def newScheduleCheckpoint (now : ℕ) : ℕ := normalizeScheduleStartMs now - 1

def nextScheduleRevision (previousUpdatedAtMs now : ℕ) : ℕ :=
  max now (saturatingAdd previousUpdatedAtMs 1)

structure ScheduleInfo where
  scheduleId : String
  rruleSet : String
  startAtMs : ℕ
  enabled : Bool
  archived : Bool
  updatedAtMs : ℕ
  deriving DecidableEq

structure ScheduleRecord where
  info : ScheduleInfo
  lastCheckedMs : ℕ
  deriving DecidableEq

/-- `JobRunReason::Schedule`. -/
structure ScheduledRun where
  scheduleId : String
  rruleSet : String
  plannedRunAtMs : ℕ
  deriving DecidableEq

/-- `schedules` is a map with the ids as keys; `jobs` are the reasons of the scheduled jobs. -/
structure CommandState where
  schedules : List ScheduleRecord
  jobs : List ScheduledRun
  keys : (schedules.map fun r => r.info.scheduleId).Nodup

def CommandState.get (s : CommandState) (scheduleId : String) : Option ScheduleRecord :=
  s.schedules.find? fun r => r.info.scheduleId = scheduleId

def CommandState.modify (s : CommandState) (f : ScheduleRecord → ScheduleRecord)
    (hf : ∀ r, (f r).info.scheduleId = r.info.scheduleId) : CommandState where
  schedules := s.schedules.map f
  jobs := s.jobs
  keys := by
    rw [List.map_map]
    exact (congrArg List.Nodup (List.map_congr_left fun r _ => hf r)).mpr s.keys

def CommandState.insertJob (s : CommandState) (job : ScheduledRun) : CommandState :=
  { s with jobs := s.jobs ++ [job] }

structure DueScheduleRun where
  schedule : ScheduleInfo
  runAtMs : ℕ
  checkpointAfterSuccess : ℕ
  deriving DecidableEq

def dueRuns (schedule : ScheduleInfo) (finalCheckpoint : ℕ) : List ℕ → List DueScheduleRun
  | [] => []
  | [runAtMs] => [⟨schedule, runAtMs, finalCheckpoint⟩]
  | runAtMs :: next :: rest =>
    ⟨schedule, runAtMs, runAtMs⟩ :: dueRuns schedule finalCheckpoint (next :: rest)

def tickRuns (rule : Rule) (lastCheckedMs now : ℕ) : NextRuns :=
  nextRunsForRule rule ⟨16, some lastCheckedMs, some now⟩ now

section
variable (parseRruleSet : String → Option Rule)

def checkSchedule (now : ℕ) (record : ScheduleRecord) : ScheduleRecord × List DueScheduleRun :=
  if record.info.enabled = false ∨ record.info.archived = true then
    ({ record with lastCheckedMs := now }, [])
  else match parseRruleSet record.info.rruleSet with
    | none => ({ record with lastCheckedMs := now }, [])
    | some rule =>
      let runs := tickRuns rule record.lastCheckedMs now
      if runs.runAtMs = [] then
        ({ record with lastCheckedMs := nextScheduleCheckpoint now runs }, [])
      else (record, dueRuns record.info (nextScheduleCheckpoint now runs) runs.runAtMs)

theorem checkSchedule_info (now : ℕ) (record : ScheduleRecord) :
    (checkSchedule parseRruleSet now record).1.info = record.info := by
  unfold checkSchedule
  split
  · rfl
  · split
    · rfl
    · dsimp only
      split
      · rfl
      · rfl

def collectDue (now : ℕ) (s : CommandState) : CommandState × List DueScheduleRun :=
  (s.modify (fun r => (checkSchedule parseRruleSet now r).1) fun r => by rw [checkSchedule_info],
    s.schedules.flatMap fun r => (checkSchedule parseRruleSet now r).2)

end

def DueScheduleRun.reason (run : DueScheduleRun) : ScheduledRun :=
  ⟨run.schedule.scheduleId, run.schedule.rruleSet, run.runAtMs⟩

/-- `create_job_with_reason_checked` for a due run; `ok` says that the launch is valid and that the
job was persisted. -/
def createScheduledJob (s : CommandState) (run : DueScheduleRun) (ok : Bool) : Option CommandState :=
  match s.get run.schedule.scheduleId with
  | none => none
  | some r =>
    if r.info.updatedAtMs ≠ run.schedule.updatedAtMs ∨ r.info.enabled = false ∨
      r.info.archived = true then none
    else if ok then some (s.insertJob run.reason) else none

def advance (scheduleId : String) (updatedAtMs checkpoint : ℕ) (r : ScheduleRecord) :
    ScheduleRecord :=
  if r.info.scheduleId = scheduleId ∧ r.info.updatedAtMs = updatedAtMs then
    { r with lastCheckedMs := max r.lastCheckedMs checkpoint }
  else r

theorem advance_info (scheduleId : String) (updatedAtMs checkpoint : ℕ) (r : ScheduleRecord) :
    (advance scheduleId updatedAtMs checkpoint r).info = r.info := by
  unfold advance
  split
  · rfl
  · rfl

def advanceScheduleCheckpoint (s : CommandState) (run : DueScheduleRun) : CommandState :=
  s.modify (advance run.schedule.scheduleId run.schedule.updatedAtMs run.checkpointAfterSuccess)
    fun r => by rw [advance_info]

/-- The loop of `run_due_schedules` when nothing comes between; `ok` says which creations succeed. -/
def runDue (ok : DueScheduleRun → Bool) :
    List DueScheduleRun → List String → CommandState → CommandState
  | [], _, s => s
  | run :: due, failed, s =>
    if run.schedule.scheduleId ∈ failed then runDue ok due failed s
    else match createScheduledJob s run (ok run) with
      | some s' => runDue ok due failed (advanceScheduleCheckpoint s' run)
      | none => runDue ok due (run.schedule.scheduleId :: failed) s

def runDueSchedules (parseRruleSet : String → Option Rule) (now : ℕ) (ok : DueScheduleRun → Bool)
    (s : CommandState) : CommandState :=
  runDue ok (collectDue parseRruleSet now s).2 [] (collectDue parseRruleSet now s).1

end Rieul.Command
