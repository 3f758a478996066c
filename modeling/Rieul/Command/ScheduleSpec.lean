import Rieul.Command.Schedule

/-!
# What a tick does to one schedule

The search of a tick finds an initial segment of the occurrences after the checkpoint.
-/

namespace Rieul.Command

def searchEnd (rule : Rule) (lastCheckedMs now : ℕ) : ℕ :=
  unixMsToDatetime (saturatingAdd (searchedUntil rule lastCheckedMs (some now)) 1)

def searchDates (rule : Rule) (lastCheckedMs now : ℕ) : List ℕ :=
  Window.first rule.occurs (unixMsToDatetime lastCheckedMs) (searchEnd rule lastCheckedMs now) 17

def Stopped (rule : Rule) (lastCheckedMs now : ℕ) : Prop :=
  (searchDates rule lastCheckedMs now).length = 17

section
variable (rule : Rule) (c now : ℕ)

theorem unixMsToDatetime_le (ms : ℕ) : unixMsToDatetime ms ≤ ms := by
  unfold unixMsToDatetime
  split
  · exact le_rfl
  · exact Nat.zero_le ms

theorem tickRuns_runAtMs : (tickRuns rule c now).runAtMs =
    ((searchDates rule c now).filter fun x => c < x).take 16 := rfl

theorem tickRuns_mem (x : ℕ) (h : x ∈ (tickRuns rule c now).runAtMs) :
    rule.occurs x = true ∧ c < x ∧ x ≤ searchEnd rule c now := by
  rw [tickRuns_runAtMs] at h
  obtain ⟨hx, hlt⟩ := List.mem_filter.mp (List.mem_of_mem_take h)
  obtain ⟨hoccurs, _, hhi⟩ := Window.mem_first _ _ _ _ _ hx
  exact ⟨hoccurs, of_decide_eq_true hlt, hhi⟩

theorem searchDates_sorted : ((searchDates rule c now).filter fun x => c < x).Pairwise (· < ·) :=
  List.Pairwise.filter _ (Window.first_sorted _ _ _ _)

theorem tickRuns_sorted : (tickRuns rule c now).runAtMs.Pairwise (· < ·) := by
  rw [tickRuns_runAtMs]
  exact (searchDates_sorted rule c now).sublist (List.take_sublist 16 _)

theorem tickRuns_initial (x y : ℕ) (hx : rule.occurs x = true) (hlt : c < x)
    (hy : y ∈ (tickRuns rule c now).runAtMs) (hle : x ≤ y) : x ∈ (tickRuns rule c now).runAtMs := by
  have hlo : unixMsToDatetime c ≤ x := by
    have h := unixMsToDatetime_le c
    omega
  rw [tickRuns_runAtMs] at hy ⊢
  have hdates := (List.mem_filter.mp (List.mem_of_mem_take hy)).1
  have hin := Window.first_initial _ _ _ 17 x y hx hlo hdates hle
  exact Window.mem_take_of_le 16 x y _ (searchDates_sorted rule c now)
    (List.mem_filter.mpr ⟨hin, decide_eq_true hlt⟩) hy hle

theorem tickRuns_complete (hstop : ¬ Stopped rule c now) (x : ℕ) (hx : rule.occurs x = true)
    (hlt : c < x) (hhi : x ≤ searchEnd rule c now) : x ∈ (tickRuns rule c now).runAtMs := by
  have hlo : unixMsToDatetime c ≤ x := by
    have h := unixMsToDatetime_le c
    omega
  have hlength := Window.first_length rule.occurs (unixMsToDatetime c) (searchEnd rule c now) 17
  have hshort : (searchDates rule c now).length < 17 := lt_of_le_of_ne hlength hstop
  have hin := Window.first_complete _ _ _ 17 x hshort hx hlo hhi
  have hfilter := List.length_filter_le (fun x => decide (c < x)) (searchDates rule c now)
  rw [tickRuns_runAtMs, List.take_of_length_le (by omega)]
  exact List.mem_filter.mpr ⟨hin, decide_eq_true hlt⟩

theorem tickRuns_moreAvailable :
    (tickRuns rule c now).continuation = .moreAvailable ↔ Stopped rule c now := by
  have hfilter := List.length_filter_le (fun x => decide (c < x)) (searchDates rule c now)
  have hlength := Window.first_length rule.occurs (unixMsToDatetime c) (searchEnd rule c now) 17
  have hcontinuation : (tickRuns rule c now).continuation =
      if 16 < ((searchDates rule c now).filter fun x => c < x).length ∨
        decide ((searchDates rule c now).length = 17) = true then Continuation.moreAvailable
      else if hasMoreRunsAfter rule (searchedUntil rule c (some now)) then .searchLimitReached
      else .exhausted := rfl
  rw [hcontinuation]
  simp only [decide_eq_true_eq]
  constructor
  · intro h
    split at h
    · rename_i hcase
      rcases hcase with hcase | hcase
      · show (searchDates rule c now).length = 17
        change (searchDates rule c now).length ≤ 17 at hlength
        omega
      · exact hcase
    · split at h
      · cases h
      · cases h
  · intro h
    rw [if_pos (.inr h)]

theorem tickRuns_checkpoint_stopped (hstop : Stopped rule c now) :
    nextScheduleCheckpoint now (tickRuns rule c now) =
      (tickRuns rule c now).runAtMs.getLast?.getD now := by
  unfold nextScheduleCheckpoint
  rw [(tickRuns_moreAvailable rule c now).mpr hstop]

theorem tickRuns_checkpoint_now (hstop : ¬ Stopped rule c now) :
    nextScheduleCheckpoint now (tickRuns rule c now) = now := by
  unfold nextScheduleCheckpoint
  cases hc : (tickRuns rule c now).continuation with
  | exhausted | searchLimitReached => rfl
  | moreAvailable => exact absurd ((tickRuns_moreAvailable rule c now).mp hc) hstop

theorem tickRuns_stopped (hstop : Stopped rule c now) (hle : c ≤ now) :
    (tickRuns rule c now).runAtMs ≠ [] := by
  by_cases hc : c ≤ maxDatetimeMs
  · have hlo : unixMsToDatetime c = c := if_pos hc
    have hsorted : (searchDates rule c now).Pairwise (· < ·) := Window.first_sorted _ _ _ _
    have hfrom : ∀ z ∈ searchDates rule c now, c ≤ z := by
      intro z hz
      have h := (Window.mem_first _ _ _ _ _ hz).2.1
      rw [hlo] at h
      exact h
    have hlength := Window.length_filter_of_sorted c _ hsorted hfrom
    unfold Stopped at hstop
    intro hnil
    rw [tickRuns_runAtMs, List.take_eq_nil_iff] at hnil
    rcases hnil with hnil | hnil
    · cases hnil
    · rw [hnil, List.length_nil] at hlength
      omega
  · have hend : searchEnd rule c now = 0 := by
      unfold searchEnd unixMsToDatetime
      rw [if_neg]
      unfold saturatingAdd searchedUntil saturatingAdd
      simp only [Option.getD_some]
      unfold maxDatetimeMs u64Max at *
      omega
    have hlength := Window.members_length rule.occurs (unixMsToDatetime c) (searchEnd rule c now)
    unfold Stopped searchDates Window.first at hstop
    rw [List.length_take] at hstop
    rw [hend] at hlength hstop
    omega

end

section
variable (s : CommandState) (k : String)

theorem get_modify (f : ScheduleRecord → ScheduleRecord)
    (hf : ∀ r, (f r).info.scheduleId = r.info.scheduleId) :
    (s.modify f hf).get k = (s.get k).map f := by
  unfold CommandState.get CommandState.modify
  rw [List.find?_map]
  have hsame : (fun r : ScheduleRecord => decide (r.info.scheduleId = k)) ∘ f =
      fun r => decide (r.info.scheduleId = k) := by
    funext r
    simp only [Function.comp_apply, hf r]
  rw [hsame]

theorem get_insertJob (job : ScheduledRun) : (s.insertJob job).get k = s.get k := rfl

theorem get_mem (r : ScheduleRecord) (h : s.get k = some r) :
    r ∈ s.schedules ∧ r.info.scheduleId = k := by
  have hk := List.find?_some h
  exact ⟨List.mem_of_find?_eq_some h, of_decide_eq_true hk⟩

theorem get_of_mem (r : ScheduleRecord) (h : r ∈ s.schedules) : s.get r.info.scheduleId = some r := by
  obtain ⟨schedules, jobs, keys⟩ := s
  unfold CommandState.get
  dsimp only at h keys ⊢
  induction schedules with
  | nil => exact absurd h List.not_mem_nil
  | cons a as ih =>
    rw [List.map_cons, List.nodup_cons] at keys
    rcases List.mem_cons.mp h with rfl | h
    · exact List.find?_cons_of_pos (decide_eq_true rfl)
    · have hne : a.info.scheduleId ≠ r.info.scheduleId := by
        intro heq
        exact keys.1 (heq ▸ List.mem_map_of_mem h)
      rw [List.find?_cons_of_neg (by simpa using hne)]
      exact ih keys.2 h

end

theorem dueRuns_schedule (info : ScheduleInfo) (final : ℕ) (runs : List ℕ) (d : DueScheduleRun)
    (h : d ∈ dueRuns info final runs) : d.schedule = info ∧ d.runAtMs ∈ runs := by
  induction runs with
  | nil => exact absurd h List.not_mem_nil
  | cons x xs ih =>
    cases xs with
    | nil =>
      rw [List.mem_singleton.mp h]
      exact ⟨rfl, List.mem_cons_self⟩
    | cons y ys =>
      rcases List.mem_cons.mp h with rfl | h
      · exact ⟨rfl, List.mem_cons_self⟩
      · exact ⟨(ih h).1, List.mem_cons_of_mem x (ih h).2⟩

section
variable (parseRruleSet : String → Option Rule) (now : ℕ)

theorem checkSchedule_schedule (r : ScheduleRecord) (d : DueScheduleRun)
    (h : d ∈ (checkSchedule parseRruleSet now r).2) : d.schedule = r.info := by
  unfold checkSchedule at h
  split at h
  · exact absurd h List.not_mem_nil
  · split at h
    · exact absurd h List.not_mem_nil
    · dsimp only at h
      split at h
      · exact absurd h List.not_mem_nil
      · exact (dueRuns_schedule _ _ _ d h).1

theorem collectDue_own (s : CommandState) (r : ScheduleRecord) (h : r ∈ s.schedules) :
    (collectDue parseRruleSet now s).2.filter
      (fun d => d.schedule.scheduleId = r.info.scheduleId) = (checkSchedule parseRruleSet now r).2 := by
  obtain ⟨schedules, jobs, keys⟩ := s
  unfold collectDue
  dsimp only at h keys ⊢
  have hall : ∀ q : ScheduleRecord, (∀ d ∈ (checkSchedule parseRruleSet now q).2,
      d.schedule.scheduleId = q.info.scheduleId) := by
    intro q d hd
    rw [checkSchedule_schedule parseRruleSet now q d hd]
  induction schedules with
  | nil => exact absurd h List.not_mem_nil
  | cons a as ih =>
    rw [List.map_cons, List.nodup_cons] at keys
    rw [List.flatMap_cons, List.filter_append]
    rcases List.mem_cons.mp h with rfl | h
    · have hown : (checkSchedule parseRruleSet now r).2.filter
          (fun d => d.schedule.scheduleId = r.info.scheduleId) =
          (checkSchedule parseRruleSet now r).2 :=
        List.filter_eq_self.mpr fun d hd => decide_eq_true (hall r d hd)
      have hrest : (as.flatMap fun q => (checkSchedule parseRruleSet now q).2).filter
          (fun d => d.schedule.scheduleId = r.info.scheduleId) = [] := by
        apply List.filter_eq_nil_iff.mpr
        intro d hd
        obtain ⟨q, hq, hd⟩ := List.mem_flatMap.mp hd
        rw [hall q d hd, decide_eq_true_eq]
        intro heq
        exact keys.1 (heq ▸ List.mem_map_of_mem hq)
      rw [hown, hrest, List.append_nil]
    · have hnone : (checkSchedule parseRruleSet now a).2.filter
          (fun d => d.schedule.scheduleId = r.info.scheduleId) = [] := by
        apply List.filter_eq_nil_iff.mpr
        intro d hd
        rw [hall a d hd, decide_eq_true_eq]
        intro heq
        exact keys.1 (heq ▸ List.mem_map_of_mem h)
      rw [hnone, List.nil_append]
      exact ih keys.2 h

end

/-- The loop on the due runs of one schedule, until a creation fails: the checkpoint that it leaves
and the jobs that it creates. -/
def serve (ok : DueScheduleRun → Bool) : List DueScheduleRun → ℕ → ℕ × List ScheduledRun
  | [], c => (c, [])
  | d :: ds, c =>
    if ok d then
      let (c', jobs) := serve ok ds (max c d.checkpointAfterSuccess)
      (c', d.reason :: jobs)
    else (c, [])

theorem createScheduledJob_of (s s' : CommandState) (run : DueScheduleRun) (ok : Bool)
    (h : createScheduledJob s run ok = some s') : ∃ r, s.get run.schedule.scheduleId = some r ∧
      r.info.updatedAtMs = run.schedule.updatedAtMs ∧ s' = s.insertJob run.reason := by
  unfold createScheduledJob at h
  split at h
  · cases h
  · rename_i r hget
    split at h
    · cases h
    · rename_i hcase
      split at h
      · exact ⟨r, hget, not_not.mp fun hne => hcase (.inl hne), (Option.some.inj h).symm⟩
      · cases h

theorem createScheduledJob_live (s : CommandState) (run : DueScheduleRun) (ok : Bool) (c : ℕ)
    (h : s.get run.schedule.scheduleId = some ⟨run.schedule, c⟩)
    (henabled : run.schedule.enabled = true) (harchived : run.schedule.archived = false) :
    createScheduledJob s run ok = if ok then some (s.insertJob run.reason) else none := by
  unfold createScheduledJob
  rw [h]
  dsimp only
  rw [if_neg]
  intro hcase
  rcases hcase with hcase | hcase | hcase
  · exact hcase rfl
  · rw [henabled] at hcase
    cases hcase
  · rw [harchived] at hcase
    cases hcase

theorem advance_other (k id : String) (updatedAtMs checkpoint : ℕ) (r : ScheduleRecord)
    (hr : r.info.scheduleId = k) (hne : id ≠ k) : advance id updatedAtMs checkpoint r = r := by
  unfold advance
  rw [if_neg]
  intro hcase
  exact hne (hcase.1.symm.trans hr)

theorem runDue_own (ok : DueScheduleRun → Bool) (info : ScheduleInfo)
    (henabled : info.enabled = true) (harchived : info.archived = false)
    (due : List DueScheduleRun) (failed : List String) (s : CommandState) (c : ℕ)
    (h : s.get info.scheduleId = some ⟨info, c⟩)
    (hdue : ∀ d ∈ due, d.schedule.scheduleId = info.scheduleId → d.schedule = info) :
    let own := due.filter fun d => d.schedule.scheduleId = info.scheduleId
    (runDue ok due failed s).get info.scheduleId =
        some ⟨info, if info.scheduleId ∈ failed then c else (serve ok own c).1⟩ ∧
      ∀ j : ScheduledRun, j.scheduleId = info.scheduleId → (j ∈ (runDue ok due failed s).jobs ↔
        j ∈ s.jobs ∨ info.scheduleId ∉ failed ∧ j ∈ (serve ok own c).2) := by
  induction due generalizing failed s c with
  | nil =>
    refine ⟨?_, ?_⟩
    · show s.get info.scheduleId = _
      rw [h]
      split
      · rfl
      · rfl
    · intro j _
      show j ∈ s.jobs ↔ _
      constructor
      · exact .inl
      · intro hj
        rcases hj with hj | ⟨_, hj⟩
        · exact hj
        · exact absurd hj List.not_mem_nil
  | cons d ds ih =>
    have hds : ∀ d ∈ ds, d.schedule.scheduleId = info.scheduleId → d.schedule = info :=
      fun d hd => hdue d (List.mem_cons_of_mem _ hd)
    dsimp only
    unfold runDue
    by_cases hid : d.schedule.scheduleId = info.scheduleId
    · have hinfo := hdue d List.mem_cons_self hid
      have hown : (d :: ds).filter (fun d => d.schedule.scheduleId = info.scheduleId) =
          d :: ds.filter fun d => d.schedule.scheduleId = info.scheduleId :=
        List.filter_cons_of_pos (decide_eq_true hid)
      rw [hown]
      by_cases hfailed : d.schedule.scheduleId ∈ failed
      · rw [if_pos hfailed]
        rw [hid] at hfailed
        obtain ⟨hget, hjobs⟩ := ih failed s c h hds
        refine ⟨?_, ?_⟩
        · rw [hget, if_pos hfailed, if_pos hfailed]
        · intro j hj
          rw [hjobs j hj]
          simp only [hfailed, not_true_eq_false, false_and]
      · rw [if_neg hfailed]
        rw [hid] at hfailed
        have hlive : s.get d.schedule.scheduleId = some ⟨d.schedule, c⟩ := by
          rw [hinfo]
          exact h
        rw [createScheduledJob_live s d (ok d) c hlive (hinfo ▸ henabled) (hinfo ▸ harchived)]
        unfold serve
        cases hok : ok d with
        | true =>
          simp only [if_true, if_neg hfailed]
          have hget : (advanceScheduleCheckpoint (s.insertJob d.reason) d).get info.scheduleId =
              some ⟨info, max c d.checkpointAfterSuccess⟩ := by
            unfold advanceScheduleCheckpoint
            rw [get_modify, get_insertJob, h, hinfo]
            show some (advance _ _ _ _) = _
            unfold advance
            rw [if_pos ⟨rfl, rfl⟩]
          obtain ⟨hget', hjobs⟩ := ih failed _ (max c d.checkpointAfterSuccess) hget hds
          refine ⟨?_, ?_⟩
          · rw [hget', if_neg hfailed]
          · intro j hj
            rw [hjobs j hj]
            have hmem : j ∈ (advanceScheduleCheckpoint (s.insertJob d.reason) d).jobs ↔
                j ∈ s.jobs ∨ j = d.reason := by
              show j ∈ s.jobs ++ [d.reason] ↔ _
              rw [List.mem_append, List.mem_singleton]
            rw [hmem, List.mem_cons, or_assoc]
            simp only [hfailed, not_false_eq_true, true_and]
        | false =>
          simp only [Bool.false_eq_true, if_false, if_neg hfailed]
          obtain ⟨hget, hjobs⟩ := ih (d.schedule.scheduleId :: failed) s c h hds
          have hin : info.scheduleId ∈ d.schedule.scheduleId :: failed := by
            rw [hid]
            exact List.mem_cons_self
          refine ⟨?_, ?_⟩
          · rw [hget, if_pos hin]
          · intro j hj
            rw [hjobs j hj]
            simp only [hin, not_true_eq_false, false_and, or_false, List.not_mem_nil, and_false]
    · have hown : (d :: ds).filter (fun d => d.schedule.scheduleId = info.scheduleId) =
          ds.filter fun d => d.schedule.scheduleId = info.scheduleId :=
        List.filter_cons_of_neg (by simpa using hid)
      rw [hown]
      by_cases hfailed : d.schedule.scheduleId ∈ failed
      · rw [if_pos hfailed]
        exact ih failed s c h hds
      · rw [if_neg hfailed]
        split
        · rename_i s' hs'
          obtain ⟨_, _, _, heq⟩ := createScheduledJob_of s s' d (ok d) hs'
          subst heq
          have hget : (advanceScheduleCheckpoint (s.insertJob d.reason) d).get info.scheduleId =
              some ⟨info, c⟩ := by
            unfold advanceScheduleCheckpoint
            rw [get_modify, get_insertJob, h, Option.map_some,
              advance_other info.scheduleId _ _ _ ⟨info, c⟩ rfl hid]
          obtain ⟨hget', hjobs⟩ := ih failed _ c hget hds
          refine ⟨hget', ?_⟩
          intro j hj
          rw [hjobs j hj]
          have hmem : j ∈ (advanceScheduleCheckpoint (s.insertJob d.reason) d).jobs ↔
              j ∈ s.jobs := by
            show j ∈ s.jobs ++ [d.reason] ↔ _
            rw [List.mem_append, List.mem_singleton]
            constructor
            · intro hcase
              rcases hcase with hcase | rfl
              · exact hcase
              · exact absurd hj hid
            · exact .inl
          rw [hmem]
        · obtain ⟨hget, hjobs⟩ := ih (d.schedule.scheduleId :: failed) s c h hds
          have hin : info.scheduleId ∈ d.schedule.scheduleId :: failed ↔ info.scheduleId ∈ failed := by
            rw [List.mem_cons]
            constructor
            · intro hcase
              rcases hcase with hcase | hcase
              · exact absurd hcase.symm hid
              · exact hcase
            · exact .inr
          refine ⟨?_, ?_⟩
          · rw [hget]
            simp only [hin]
          · intro j hj
            rw [hjobs j hj]
            simp only [hin]

end Rieul.Command
