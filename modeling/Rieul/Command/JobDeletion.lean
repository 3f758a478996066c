import Rieul.Command.JobStore
import Rieul.Lib.Calls
import Rieul.Lib.System

/-!
# Deleted jobs

A deletion removes the row of a job and then its record.
-/

namespace Rieul.Command
open Bytes

def JobCall.persistsJob : JobCall → Bool
  | .persistJob _ => true
  | _ => false

def JobCall.removes : JobCall → Bool
  | .removeRecord _ => true
  | _ => false

def Manager.unwritten (manager : Manager) : JobCall → Bool
  | .deleteRow _ => manager.calls.all fun call => !call.persistsJob
  | _ => true

/-- No row is deleted while the write of the finished job is left, and no job finishes between the
deletion of its row and the removal of its record. -/
def Manager.clear (manager : Manager) : ManagerStep → Bool
  | .finishJob _ => manager.record.isNone || manager.rows.job.isSome
  | .resume index ok => !ok || (manager.calls[index]?).all manager.unwritten
  | _ => true

def Manager.stepClear (manager : Manager) (step : ManagerStep) : Option Manager :=
  if manager.clear step then manager.step step else none

def noRows : JobRows := ⟨none, ⟨noOutput, noOutput⟩⟩

structure Manager.Deleting (manager : Manager) : Prop where
  empty : manager.rows.job = none → manager.rows = noRows
  written : ∀ call ∈ manager.calls, call.persistsJob = true → manager.rows.job ≠ none
  removing : ∀ call ∈ manager.calls, call.removes = true → manager.rows.job = none
  removed : manager.record = none → manager.rows.job = none
  deleted : ∀ outcome, .ok outcome ∈ manager.deletions → manager.record = none

def Manager.Gone (manager : Manager) : Prop :=
  manager.record = none ∧ manager.rows = noRows ∧ ∀ now, manager.rows.open now = none

section
variable {manager next : Manager} (h : manager.Deleting)
include h

theorem Manager.Deleting.mem_append (added : JobCall) (hwrites : added.persistsJob = false)
    (hremoves : added.removes = false) :
    (∀ call ∈ manager.calls ++ [added], call.persistsJob = true → manager.rows.job ≠ none) ∧
      ∀ call ∈ manager.calls ++ [added], call.removes = true → manager.rows.job = none := by
  constructor
  · intro call hmem hcall
    rcases List.mem_append.mp hmem with hmem | hmem
    · exact h.written call hmem hcall
    · rw [List.mem_singleton.mp hmem, hwrites] at hcall
      cases hcall
  · intro call hmem hcall
    rcases List.mem_append.mp hmem with hmem | hmem
    · exact h.removing call hmem hcall
    · rw [List.mem_singleton.mp hmem, hremoves] at hcall
      cases hcall

theorem Manager.Deleting.not_deleted (record : JobRecord) (hrecord : manager.record = some record)
    (outcome : DeleteJobOutcome) : .ok outcome ∉ manager.deletions := by
  intro hmem
  have hnone := h.deleted outcome hmem
  rw [hrecord] at hnone
  cases hnone

theorem Manager.Deleting.appendOutput (stream : JobOutputStream) (bytes : Str) :
    (manager.appendOutput stream bytes).Deleting := by
  unfold Manager.appendOutput
  split
  · exact h
  · rename_i record hrecord
    have hnone := h.not_deleted record hrecord
    dsimp only
    split
    · obtain ⟨hwritten, hremoving⟩ := h.mem_append (.persistOutputState stream _ _) rfl rfl
      exact ⟨h.empty, hwritten, hremoving, nofun, fun outcome hmem => absurd hmem (hnone outcome)⟩
    · exact ⟨h.empty, h.written, h.removing, nofun, fun outcome hmem => absurd hmem (hnone outcome)⟩

theorem Manager.Deleting.finishJob (exit : CommandExit)
    (hclear : manager.clear (.finishJob exit) = true) : (manager.finishJob exit).Deleting := by
  unfold Manager.finishJob
  split
  · exact ⟨h.empty, h.written, h.removing, h.removed, h.deleted⟩
  · rename_i record hrecord
    dsimp only [Manager.clear] at hclear
    rw [hrecord, Option.isNone_some, Bool.false_or] at hclear
    have hsome := Option.isSome_iff_ne_none.mp hclear
    refine ⟨h.empty, fun _ _ _ => hsome, ?_, nofun, ?_⟩
    · intro call hmem hcall
      rcases List.mem_append.mp hmem with hmem | hmem
      · exact h.removing call hmem hcall
      · rw [List.mem_singleton.mp hmem] at hcall
        cases hcall
    · exact fun outcome hmem => absurd hmem (h.not_deleted record hrecord outcome)

theorem Manager.Deleting.deleteJob (killRunning : Bool) : (manager.deleteJob killRunning).Deleting := by
  unfold Manager.deleteJob
  split
  · refine ⟨h.empty, h.written, h.removing, h.removed, fun outcome hmem => ?_⟩
    rcases List.mem_cons.mp hmem with hmem | hmem
    · cases hmem
    · exact h.deleted outcome hmem
  · rename_i record hrecord
    have hnone := h.not_deleted record hrecord
    split
    · split
      · obtain ⟨hwritten, hremoving⟩ := h.mem_append (if record.task then .awaitTask else .deleteRow true)
          (by split <;> rfl) (by split <;> rfl)
        exact ⟨h.empty, hwritten, hremoving, nofun, fun outcome hmem => absurd hmem (hnone outcome)⟩
      · refine ⟨h.empty, h.written, h.removing, h.removed, fun outcome hmem => ?_⟩
        rcases List.mem_cons.mp hmem with hmem | hmem
        · cases hmem
        · exact h.deleted outcome hmem
    · obtain ⟨hwritten, hremoving⟩ := h.mem_append (.deleteRow false) rfl rfl
      exact ⟨h.empty, hwritten, hremoving, h.removed, h.deleted⟩

theorem Manager.Deleting.saveJobOutputState (stream : JobOutputStream) (state : JobOutputState) :
    (manager.rows.saveJobOutputState stream state).job = manager.rows.job ∧
      (manager.rows.job = none → manager.rows.saveJobOutputState stream state = noRows) := by
  unfold JobRows.saveJobOutputState
  cases hjob : manager.rows.job with
  | none => exact ⟨hjob, fun _ => h.empty hjob⟩
  | some job => exact ⟨rfl, nofun⟩

theorem Manager.Deleting.appendJobOutputChunk (stream : JobOutputStream) (chunk : OutputChunk)
    (hjob : manager.rows.job = none) :
    manager.rows.appendJobOutputChunk stream chunk = noRows := by
  rw [h.empty hjob]
  cases stream <;> rfl

theorem Manager.Deleting.resume (index : ℕ) (ok : Bool)
    (hclear : manager.clear (.resume index ok) = true)
    (hstep : manager.step (.resume index ok) = some next) : next.Deleting := by
  obtain ⟨call, hcall, hstep⟩ := Option.bind_eq_some_iff.mp hstep
  have hcalled := Calls.mem hcall
  have hsub : ∀ other ∈ manager.calls.eraseIdx index, other ∈ manager.calls :=
    fun other => List.mem_of_mem_eraseIdx
  have hrest : { manager with calls := manager.calls.eraseIdx index }.Deleting :=
    ⟨h.empty, fun other hmem => h.written other (hsub other hmem),
      fun other hmem => h.removing other (hsub other hmem), h.removed, h.deleted⟩
  cases call with
  | persistOutputState stream state last =>
    cases hstep
    obtain ⟨hjob, hnone⟩ := h.saveJobOutputState stream state
    have hcalls : (∀ other ∈ manager.calls.eraseIdx index ++
          (last.map (JobCall.persistOutputChunk stream)).toList,
          other.persistsJob = true → manager.rows.job ≠ none) ∧
        ∀ other ∈ manager.calls.eraseIdx index ++
          (last.map (JobCall.persistOutputChunk stream)).toList,
          other.removes = true → manager.rows.job = none := by
      cases last with
      | none =>
        rw [Option.map_none, Option.toList_none, List.append_nil]
        exact ⟨hrest.written, hrest.removing⟩
      | some chunk => exact hrest.mem_append (.persistOutputChunk stream chunk) rfl rfl
    cases ok with
    | false => exact ⟨h.empty, hcalls.1, hcalls.2, h.removed, h.deleted⟩
    | true =>
      rw [← hjob] at hcalls hnone
      exact ⟨hnone, hcalls.1, hcalls.2, fun hrecord => hjob.trans (h.removed hrecord), h.deleted⟩
  | persistOutputChunk stream chunk =>
    cases hstep
    cases ok with
    | false => exact hrest
    | true => exact ⟨h.appendJobOutputChunk stream chunk, hrest.written, hrest.removing, h.removed,
        h.deleted⟩
  | persistJob job =>
    cases hstep
    cases ok with
    | false => exact hrest
    | true =>
      have hrow := h.written _ hcalled rfl
      refine ⟨nofun, fun _ _ _ => nofun, fun other hmem hother => ?_, fun hnone => ?_, h.deleted⟩
      · exact absurd (h.removing other (hsub other hmem) hother) hrow
      · exact absurd (h.removed hnone) hrow
  | awaitTask =>
    dsimp only [Manager.resume] at hstep
    split at hstep
    · cases hstep
      obtain ⟨hwritten, hremoving⟩ := hrest.mem_append (.deleteRow true) rfl rfl
      exact ⟨h.empty, hwritten, hremoving, h.removed, h.deleted⟩
    · cases hstep
  | deleteRow killed =>
    cases hstep
    cases ok with
    | false =>
      refine ⟨h.empty, hrest.written, hrest.removing, h.removed, fun outcome hmem => ?_⟩
      rcases List.mem_cons.mp hmem with hmem | hmem
      · cases hmem
      · exact h.deleted outcome hmem
    | true =>
      dsimp only [Manager.clear] at hclear
      rw [hcall] at hclear
      have hall : manager.calls.all (fun call => !call.persistsJob) = true := hclear
      refine ⟨fun _ => rfl, fun other hmem hother => ?_, fun _ _ _ => rfl, fun _ => rfl, h.deleted⟩
      rcases List.mem_append.mp hmem with hmem | hmem
      · have hnot := List.all_eq_true.mp hall other (hsub other hmem)
        rw [hother] at hnot
        cases hnot
      · rw [List.mem_singleton.mp hmem] at hother
        cases hother
  | removeRecord killed =>
    cases hstep
    have hjob := h.removing _ hcalled rfl
    exact ⟨h.empty, hrest.written, hrest.removing, fun _ => hjob, fun _ _ => rfl⟩

end

theorem Manager.Deleting.step {manager next : Manager} (h : manager.Deleting) (step : ManagerStep)
    (hstep : manager.stepClear step = some next) : next.Deleting := by
  unfold Manager.stepClear at hstep
  split at hstep
  · rename_i hclear
    cases step with
    | appendOutput stream bytes =>
      cases hstep
      exact h.appendOutput stream bytes
    | finishJob exit =>
      dsimp only [Manager.step] at hstep
      split at hstep
      · cases hstep
      · cases hstep
        exact h.finishJob exit hclear
    | deleteJob killRunning =>
      cases hstep
      exact h.deleteJob killRunning
    | resume index ok => exact h.resume index ok hclear hstep
  · cases hstep

theorem Manager.created_deleting (enabled : Streams Bool) (maxBytes : Streams (Option ℕ)) :
    (Manager.created enabled maxBytes).Deleting := by
  refine ⟨fun hnone => ?_, fun _ hmem => absurd hmem List.not_mem_nil,
    fun _ hmem => absurd hmem List.not_mem_nil, fun hnone => ?_,
    fun _ hmem => absurd hmem List.not_mem_nil⟩
  · exact absurd hnone (Option.some_ne_none _)
  · exact absurd hnone (Option.some_ne_none _)

theorem deleted_is_gone (enabled : Streams Bool) (maxBytes : Streams (Option ℕ))
    (steps : List ManagerStep) (manager : Manager)
    (hrun : steps.foldlM Manager.stepClear (Manager.created enabled maxBytes) = some manager)
    (outcome : DeleteJobOutcome) (hdeleted : .ok outcome ∈ manager.deletions) : manager.Gone := by
  have h := System.run_invariant Manager.stepClear Manager.Deleting
    (fun _ step _ h hstep => h.step step hstep) steps
    (Manager.created_deleting enabled maxBytes) hrun
  have hrecord := h.deleted outcome hdeleted
  have hrows := h.empty (h.removed hrecord)
  refine ⟨hrecord, hrows, fun now => ?_⟩
  rw [hrows]
  rfl

def killedJob : List ManagerStep :=
  [.appendOutput .stdout [1], .deleteJob true, .finishJob ⟨none, some "SIGKILL", 7⟩, .resume 2 true,
    .resume 1 true, .resume 1 true, .resume 0 true, .resume 0 true, .resume 0 true]

theorem killedJob_gone : ∃ manager,
    killedJob.foldlM Manager.stepClear (Manager.created ⟨true, true⟩ ⟨none, none⟩) = some manager ∧
    .ok .killedAndDeleted ∈ manager.deletions ∧ manager.Gone :=
  ⟨_, rfl, by decide, deleted_is_gone ⟨true, true⟩ ⟨none, none⟩ killedJob _ rfl .killedAndDeleted
    (by decide)⟩

def finishedJob : List ManagerStep :=
  [.finishJob ⟨some 0, none, 7⟩, .deleteJob false, .resume 1 true, .resume 1 true, .resume 0 true]

theorem finishedJob_back : ∃ manager,
    finishedJob.foldlM Manager.step (Manager.created ⟨true, true⟩ ⟨none, none⟩) = some manager ∧
    .ok .deleted ∈ manager.deletions ∧ manager.calls = [] ∧ manager.record = none ∧
    (manager.rows.open 9).isSome = true ∧ ¬ manager.Gone := by
  refine ⟨_, rfl, by decide, rfl, rfl, by decide, ?_⟩
  intro hgone
  exact absurd (hgone.2.2 9) (by decide)

end Rieul.Command
