import Rieul.Command.JobOutput

/-!
# Gaps in job output

The fields of a stream say how many of its chunks are gone.
-/

namespace Rieul.Command
open Bytes Fallible Retention

def RetainedOutput.gone (output : RetainedOutput) (history : List OutputChunk) : ℕ :=
  evicted OutputChunk.size output.maxBytes history

structure RetainedOutput.Holds (output : RetainedOutput) (history : List OutputChunk) : Prop where
  numbered : Numbered OutputChunk.seq history
  latest : output.state.latestSeq = history.length
  chunks : output.chunks = retained OutputChunk.size output.maxBytes history
  bytes : output.state.retainedBytes = total OutputChunk.size output.chunks
  oldest : output.state.oldestSeq = if output.chunks = [] then 0 else output.gone history + 1
  truncated : output.state.truncated = decide (0 < output.gone history)

theorem RetainedOutput.new_holds (enabled : Bool) (maxBytes : Option ℕ) :
    (RetainedOutput.new enabled maxBytes).Holds [] :=
  ⟨rfl, rfl, rfl, rfl, rfl, rfl⟩

theorem evictChunks_eq (maxBytes : ℕ) (state : JobOutputState) (chunks : List OutputChunk)
    (hbytes : state.retainedBytes = total OutputChunk.size chunks) :
    evictChunks maxBytes state chunks = ({ state with
      retainedBytes := total OutputChunk.size (retained OutputChunk.size maxBytes chunks)
      truncated := state.truncated || decide (0 < evicted OutputChunk.size maxBytes chunks)
      oldestSeq := if evicted OutputChunk.size maxBytes chunks = 0 then state.oldestSeq
        else ((retained OutputChunk.size maxBytes chunks).head?.map (·.seq)).getD 0 },
      retained OutputChunk.size maxBytes chunks) := by
  induction chunks generalizing state with
  | nil => simp [evictChunks, evicted, retained, ← hbytes]
  | cons chunk chunks ih =>
    by_cases h : state.retainedBytes > maxBytes
    · have htotal : total OutputChunk.size (chunk :: chunks) > maxBytes := hbytes ▸ h
      have hretained : retained OutputChunk.size maxBytes (chunk :: chunks) =
          retained OutputChunk.size maxBytes chunks := by
        rw [retained, if_pos htotal]
      have hevicted : evicted OutputChunk.size maxBytes (chunk :: chunks) =
          evicted OutputChunk.size maxBytes chunks + 1 := by
        have hle := retained_length OutputChunk.size maxBytes chunks
        unfold evicted
        rw [hretained, List.length_cons]
        omega
      rw [evictChunks, if_pos h, ih, hretained, hevicted]
      · simp only [Nat.add_one_ne_zero, if_false, Nat.zero_lt_succ, decide_true, Bool.or_true,
          Bool.true_or]
        by_cases hzero : evicted OutputChunk.size maxBytes chunks = 0
        · have heq := retained_eq_drop OutputChunk.size maxBytes chunks
          rw [hzero, List.drop_zero] at heq
          rw [if_pos hzero, heq]
        · rw [if_neg hzero]
      · show state.retainedBytes - chunk.bytes.length = total OutputChunk.size chunks
        rw [hbytes, total_cons]
        exact Nat.add_sub_cancel_left _ _
    · have htotal : total OutputChunk.size (chunk :: chunks) ≤ maxBytes := by
        rw [← hbytes]
        exact Nat.not_lt.mp h
      have hall := retained_of_total OutputChunk.size maxBytes _ htotal
      have hzero : evicted OutputChunk.size maxBytes (chunk :: chunks) = 0 := by
        unfold evicted
        rw [hall, Nat.sub_self]
      rw [evictChunks, if_neg h, hall, hzero, ← hbytes]
      simp

variable {output : RetainedOutput}

theorem RetainedOutput.Holds.append {history : List OutputChunk}
    (h : output.Holds history) (bytes : Str) (henabled : output.enabled = true) (hbytes : bytes ≠ []) :
    (output.append bytes).1.Holds (history ++ [⟨history.length + 1, bytes⟩]) ∧
      (output.append bytes).1.enabled = true ∧
      (output.append bytes).1.maxBytes = output.maxBytes := by
  obtain ⟨chunk, hchunk⟩ : ∃ chunk : OutputChunk, chunk = ⟨history.length + 1, bytes⟩ := ⟨_, rfl⟩
  have hseq : chunk.seq = history.length + 1 := by rw [hchunk]
  have hnumbered := h.numbered.snoc OutputChunk.seq chunk hseq
  have hretained : retained OutputChunk.size output.maxBytes (output.chunks ++ [chunk]) =
      retained OutputChunk.size output.maxBytes (history ++ [chunk]) := by
    rw [h.chunks, retained_retained_append]
  have hcount : output.state.retainedBytes + bytes.length =
      total OutputChunk.size (output.chunks ++ [chunk]) := by
    rw [total_append, h.bytes, hchunk]
    rfl
  -- what the append evicts, counted against all that is gone
  have hgone : output.chunks.length + output.gone history = history.length := by
    have hle := retained_length OutputChunk.size output.maxBytes history
    rw [gone, evicted, h.chunks]
    omega
  have hgone' : evicted OutputChunk.size output.maxBytes (history ++ [chunk]) =
      output.gone history +
        evicted OutputChunk.size output.maxBytes (output.chunks ++ [chunk]) := by
    have hle := retained_length OutputChunk.size output.maxBytes (output.chunks ++ [chunk])
    unfold evicted
    rw [hretained] at hle ⊢
    simp only [List.length_append, List.length_singleton] at hle ⊢
    omega
  have happend : (output.append bytes).1 = { output with
      chunks := retained OutputChunk.size output.maxBytes (history ++ [chunk])
      state := { output.state with
        latestSeq := output.state.latestSeq + 1
        retainedBytes := total OutputChunk.size
          (retained OutputChunk.size output.maxBytes (history ++ [chunk]))
        truncated := output.state.truncated || decide
          (0 < evicted OutputChunk.size output.maxBytes (output.chunks ++ [chunk]))
        oldestSeq :=
          if evicted OutputChunk.size output.maxBytes (output.chunks ++ [chunk]) = 0 then
            if output.state.oldestSeq = 0 then output.state.latestSeq + 1
            else output.state.oldestSeq
          else ((retained OutputChunk.size output.maxBytes (history ++ [chunk])).head?.map
            (·.seq)).getD 0 } } := by
    unfold RetainedOutput.append
    rw [if_neg (by simp [henabled, hbytes])]
    dsimp only
    rw [h.latest, ← hchunk, evictChunks_eq _ _ _ hcount, hretained]
  rw [happend, ← hchunk]
  refine ⟨⟨hnumbered, ?_, rfl, rfl, ?_, ?_⟩, henabled, rfl⟩
  · rw [List.length_append, List.length_singleton]
    exact congrArg (· + 1) h.latest
  · show (if evicted OutputChunk.size output.maxBytes (output.chunks ++ [chunk]) = 0 then _ else _) =
      if retained OutputChunk.size output.maxBytes (history ++ [chunk]) = [] then 0
      else evicted OutputChunk.size output.maxBytes (history ++ [chunk]) + 1
    by_cases hnone : evicted OutputChunk.size output.maxBytes (output.chunks ++ [chunk]) = 0
    · have hall : retained OutputChunk.size output.maxBytes (history ++ [chunk]) =
          output.chunks ++ [chunk] := by
        rw [← hretained, retained_eq_drop, hnone, List.drop_zero]
      have hne : output.chunks ++ [chunk] ≠ [] := List.append_ne_nil_of_right_ne_nil _ (by simp)
      rw [if_pos hnone, hgone', hnone, hall, if_neg hne, h.oldest]
      by_cases hempty : output.chunks = []
      · rw [hempty, List.length_nil] at hgone
        rw [if_pos hempty, if_pos rfl, h.latest]
        omega
      · rw [if_neg hempty, if_neg (Nat.succ_ne_zero _)]
    · rw [if_neg hnone]
      have hdrop := retained_eq_drop OutputChunk.size output.maxBytes (history ++ [chunk])
      cases hcases : retained OutputChunk.size output.maxBytes (history ++ [chunk]) with
      | nil => rfl
      | cons first rest =>
        rw [if_neg (List.cons_ne_nil _ _)]
        apply head_drop OutputChunk.seq hnumbered
        rw [← hdrop, hcases]
        rfl
  · show (output.state.truncated || _) =
      decide (0 < evicted OutputChunk.size output.maxBytes (history ++ [chunk]))
    rw [h.truncated, hgone', ← Bool.decide_or]
    apply decide_eq_decide.mpr
    omega

def JobOutputEvent.delivered : JobOutputEvent → Option OutputChunk
  | .chunk seq bytes => some ⟨seq, bytes⟩
  | _ => none

def delivered (events : List JobOutputEvent) : List OutputChunk := events.filterMap (·.delivered)

def Answer.delivered (answer : Answer) : List OutputChunk := Rieul.Command.delivered answer.events

def Answer.Evicted (answer : Answer) (after : ℕ) : Prop :=
  ∃ chunk ∈ answer.stream.history, after < chunk.seq ∧ chunk ∉ answer.stream.output.chunks

/-- There is a gap exactly if a chunk above a cursor is gone, every retained chunk above the cursor
follows, and a gap names the next chunk. -/
structure Answer.Exact (answer : Answer) : Prop where
  gap : (∃ nextSeq, .historyGap nextSeq ∈ answer.events) ↔
    ∃ after, answer.after = some after ∧ answer.Evicted after
  chunks : answer.delivered =
    answer.stream.output.chunks.filter fun chunk => answer.after.getD 0 < chunk.seq
  next : ∀ nextSeq, .historyGap nextSeq ∈ answer.events → nextSeq =
    (answer.delivered.head?.map (·.seq)).getD (answer.stream.output.state.latestSeq + 1)

/-- The cursor is not right before the oldest chunk that is retained, and at the latest chunk when
none is. -/
def Answer.Clear (answer : Answer) : Prop :=
  ∀ after, answer.after = some after →
    if answer.stream.output.chunks = [] then after = answer.stream.output.state.latestSeq
    else after + 1 ≠ answer.stream.output.state.oldestSeq

structure Answer.Says (answer : Answer) : Prop where
  gap : ∀ nextSeq, .historyGap nextSeq ∈ answer.events ↔
    (answer.stream.output.chunksAfter answer.after).1 = true ∧
      nextSeq = outputGapNextSeq answer.stream.output (answer.after.getD 0)
  chunks : answer.delivered = (answer.stream.output.chunksAfter answer.after).2

section
variable {output : RetainedOutput} {history : List OutputChunk} (h : output.Holds history)
include h

theorem RetainedOutput.Holds.drop : output.chunks = history.drop (output.gone history) :=
  h.chunks.trans (retained_eq_drop _ _ _)

theorem RetainedOutput.Holds.length_add_gone :
    output.chunks.length + output.gone history = output.state.latestSeq := by
  have hle := retained_length OutputChunk.size output.maxBytes history
  rw [gone, evicted, h.chunks, h.latest]
  omega

theorem RetainedOutput.Holds.gap_iff (after : ℕ) :
    (output.chunksAfter (some after)).1 = true ↔
      if output.chunks = [] then after < output.state.latestSeq else after ≤ output.gone history := by
  have hlength := h.length_add_gone
  unfold chunksAfter
  rw [h.oldest, h.truncated]
  by_cases hempty : output.chunks = []
  · rw [hempty, List.length_nil] at hlength
    rw [if_pos hempty, if_pos hempty]
    simp
    omega
  · rw [if_neg hempty, if_neg hempty]
    simp [Nat.lt_succ_iff]

theorem RetainedOutput.Holds.gap_next (after : ℕ)
    (hgap : (output.chunksAfter (some after)).1 = true) :
    outputGapNextSeq output after = if output.chunks = [] then output.state.latestSeq
      else output.gone history + 1 := by
  have hgap := (h.gap_iff after).mp hgap
  unfold outputGapNextSeq
  rw [h.oldest]
  by_cases hempty : output.chunks = []
  · rw [if_pos hempty] at hgap ⊢
    rw [if_pos hempty, if_neg (Nat.lt_irrefl 0)]
    omega
  · rw [if_neg hempty, if_neg hempty, if_pos (Nat.succ_pos _)]

theorem RetainedOutput.Holds.filter_chunks (after : ℕ) :
    output.chunks.filter (fun chunk => after < chunk.seq) =
      history.drop (max (output.gone history) after) := by
  rw [h.drop]
  exact filter_drop OutputChunk.seq h.numbered _ after

end

theorem Answer.exact_iff (answer : Answer) (hsaid : answer.Says)
    (h : answer.stream.output.Holds answer.stream.history)
    (hafter : ∀ after, answer.after = some after →
      after ≤ answer.stream.output.state.latestSeq) : answer.Exact ↔ answer.Clear := by
  have hlength := h.length_add_gone
  have hevicted : ∀ after, answer.Evicted after ↔
      after < answer.stream.output.gone answer.stream.history := by
    intro after
    unfold Answer.Evicted
    rw [h.chunks]
    exact exists_evicted _ _ _ h.numbered after
  cases hcursor : answer.after with
  | none =>
    have hnone : ∀ nextSeq, .historyGap nextSeq ∉ answer.events := by
      intro nextSeq hmem
      have hgap := ((hsaid.gap nextSeq).mp hmem).1
      rw [hcursor] at hgap
      cases hgap
    constructor
    · intro _ after hsome
      rw [hcursor] at hsome
      cases hsome
    · intro _
      refine ⟨?_, hsaid.chunks, fun nextSeq hmem => absurd hmem (hnone nextSeq)⟩
      constructor
      · exact fun hgap => absurd hgap.choose_spec (hnone _)
      · intro hsome
        obtain ⟨_, hsome, _⟩ := hsome
        rw [hcursor] at hsome
        cases hsome
  | some after =>
    have hle := hafter after hcursor
    have hgap := h.gap_iff after
    have hnext := h.gap_next after
    have hfilter := h.filter_chunks after
    have hgiven : (∃ nextSeq, .historyGap nextSeq ∈ answer.events) ↔
        (answer.stream.output.chunksAfter (some after)).1 = true := by
      constructor
      · intro hsome
        obtain ⟨nextSeq, hmem⟩ := hsome
        have hgap := ((hsaid.gap nextSeq).mp hmem).1
        rwa [hcursor] at hgap
      · intro hgap
        rw [← hcursor] at hgap
        exact ⟨_, (hsaid.gap _).mpr ⟨hgap, rfl⟩⟩
    have hnamed : ∀ nextSeq, .historyGap nextSeq ∈ answer.events →
        nextSeq = outputGapNextSeq answer.stream.output after := by
      intro nextSeq hmem
      have heq := ((hsaid.gap nextSeq).mp hmem).2
      rwa [hcursor] at heq
    have hchunks : answer.delivered =
        answer.stream.output.chunks.filter fun chunk => after < chunk.seq := by
      rw [hsaid.chunks, hcursor]
      rfl
    by_cases hempty : answer.stream.output.chunks = []
    · -- every chunk is gone
      rw [if_pos hempty] at hgap hnext
      rw [hempty, List.filter_nil] at hchunks
      constructor
      · intro hexact other hother
        cases hcursor.symm.trans hother
        rw [if_pos hempty]
        apply Nat.le_antisymm hle
        apply Nat.not_lt.mp
        intro hlt
        obtain ⟨nextSeq, hmem⟩ := hgiven.mpr (hgap.mpr hlt)
        have heq := hexact.next nextSeq hmem
        rw [hnamed nextSeq hmem, hnext (hgap.mpr hlt), hchunks] at heq
        exact absurd heq (Nat.ne_of_lt (Nat.lt_succ_self _))
      · intro hclear
        have heq := hclear after hcursor
        rw [if_pos hempty] at heq
        have hnone : ∀ nextSeq, .historyGap nextSeq ∉ answer.events := by
          intro nextSeq hmem
          have hlt := hgap.mp (hgiven.mp ⟨nextSeq, hmem⟩)
          omega
        refine ⟨?_, ?_, fun nextSeq hmem => absurd hmem (hnone nextSeq)⟩
        · constructor
          · exact fun hsome => absurd hsome.choose_spec (hnone _)
          · intro hsome
            obtain ⟨other, hother, hgone⟩ := hsome
            cases hcursor.symm.trans hother
            have hlt := (hevicted after).mp hgone
            omega
        · rw [hchunks, hempty]
          rfl
    · rw [if_neg hempty] at hgap hnext
      have holdest := h.oldest
      rw [if_neg hempty] at holdest
      constructor
      · intro hexact other hother
        cases hcursor.symm.trans hother
        rw [if_neg hempty, holdest]
        intro heq
        obtain ⟨nextSeq, hmem⟩ := hgiven.mpr (hgap.mpr (by omega))
        obtain ⟨other, hother, hgone⟩ := hexact.gap.mp ⟨nextSeq, hmem⟩
        cases hcursor.symm.trans hother
        have hlt := (hevicted after).mp hgone
        omega
      · intro hclear
        have hne := hclear after hcursor
        rw [if_neg hempty, holdest] at hne
        refine ⟨?_, ?_, ?_⟩
        · constructor
          · intro hsome
            have hle := hgap.mp (hgiven.mp hsome)
            exact ⟨after, hcursor, (hevicted after).mpr (by omega)⟩
          · intro hsome
            obtain ⟨other, hother, hgone⟩ := hsome
            cases hcursor.symm.trans hother
            have hlt := (hevicted after).mp hgone
            exact hgiven.mpr (hgap.mpr (by omega))
        · rw [hchunks, hcursor]
          rfl
        · intro nextSeq hmem
          have htrue := hgiven.mp ⟨nextSeq, hmem⟩
          have hle := hgap.mp htrue
          rw [hnamed nextSeq hmem, hnext htrue, hchunks, hfilter, Nat.max_eq_left hle]
          have hdrop := h.drop
          cases hfirst : answer.stream.output.chunks with
          | nil => exact absurd hfirst hempty
          | cons first rest =>
            rw [hfirst] at hdrop
            have hseq := head_drop OutputChunk.seq h.numbered _ first
              (congrArg List.head? hdrop).symm
            rw [← hdrop]
            exact hseq.symm

theorem delivered_chunks (chunks : List OutputChunk) :
    delivered (chunks.map (·.event)) = chunks := by
  induction chunks with
  | nil => rfl
  | cons chunk chunks ih => exact congrArg (chunk :: ·) ih

theorem no_gap_chunks (chunks : List OutputChunk) (nextSeq : ℕ) :
    JobOutputEvent.historyGap nextSeq ∉ chunks.map (·.event) := by
  simp [OutputChunk.event]

def JobOutputEvent.quiet : JobOutputEvent → Bool
  | .chunk _ _ => false
  | .historyGap _ => false
  | _ => true

theorem delivered_quiet (events : List JobOutputEvent) (h : ∀ event ∈ events, event.quiet = true) :
    delivered events = [] := by
  unfold delivered
  rw [List.filterMap_eq_nil_iff]
  intro event hmem
  have hquiet := h event hmem
  cases event with
  | chunk seq bytes => cases hquiet
  | _ => rfl

def answerEvents (output : RetainedOutput) (after : Option ℕ) (first last : List JobOutputEvent) :
    List JobOutputEvent :=
  first ++ ((if (output.chunksAfter after).1 = true then
      [.historyGap (outputGapNextSeq output (after.getD 0))] else []) ++
    (output.chunksAfter after).2.map (·.event)) ++ last

variable (stream : JobStream)

theorem answerEvents_says (after : Option ℕ) (first last : List JobOutputEvent)
    (hfirst : ∀ event ∈ first, event.quiet = true) (hlast : ∀ event ∈ last, event.quiet = true) :
    (Answer.mk stream after (answerEvents stream.output after first last)).Says := by
  constructor
  · intro nextSeq
    have hnone : ∀ events : List JobOutputEvent, (∀ event ∈ events, event.quiet = true) →
        .historyGap nextSeq ∉ events := fun events hquiet hmem => nomatch hquiet _ hmem
    unfold answerEvents
    simp only [List.mem_append, hnone first hfirst, hnone last hlast, no_gap_chunks, false_or,
      or_false]
    cases (stream.output.chunksAfter after).1 with
    | false | true => simp
  · show delivered (answerEvents stream.output after first last) = _
    have hgap : delivered (if (stream.output.chunksAfter after).1 = true then
        [.historyGap (outputGapNextSeq stream.output (after.getD 0))] else []) = [] := by
      cases (stream.output.chunksAfter after).1 with
      | false | true => rfl
    have hparts : ∀ events rest, delivered (events ++ rest) = delivered events ++ delivered rest :=
      fun events rest => List.filterMap_append
    unfold answerEvents
    simp only [hparts, delivered_quiet first hfirst, delivered_quiet last hlast, hgap,
      delivered_chunks, List.nil_append, List.append_nil]

def JobOutputEvent.reach : JobOutputEvent → ℕ
  | .attached _ latestSeq => latestSeq
  | .historyGap nextSeq => nextSeq
  | .chunk seq _ => seq
  | _ => 0

theorem quiet_last (truncated : Bool) (exit : Option CommandExit) :
    ∀ event ∈ (if truncated then [.truncated] else []) ++ exit.toList.map JobOutputEvent.jobExited,
      event.quiet = true ∧ event.reach = 0 := by
  cases truncated <;> cases exit <;> simp [JobOutputEvent.quiet, JobOutputEvent.reach]

theorem outputAttached_eq_ok (afterSeq : Option ℕ)
    (events : List JobOutputEvent) (h : outputAttached stream afterSeq = .ok events) :
    stream.output.enabled = true ∧
      ∃ last, (∀ event ∈ last, event.quiet = true ∧ event.reach = 0) ∧
      events = answerEvents stream.output afterSeq
        [.attached stream.output.state.oldestSeq stream.output.state.latestSeq] last := by
  unfold outputAttached at h
  rw [bind_unit_eq_ok, ensure_eq_ok] at h
  obtain ⟨henabled, h⟩ := h
  cases h
  refine ⟨henabled, _, quiet_last stream.output.state.truncated stream.exit, ?_⟩
  simp [answerEvents, RetainedOutput.chunksAfter]

theorem RetainedOutput.Holds.gap_of_none {history : List OutputChunk}
    (h : output.Holds history) (after : ℕ) (hafter : after < output.state.latestSeq)
    (hnone : (output.chunksAfter (some after)).2 = []) :
    (output.chunksAfter (some after)).1 = true := by
  apply (h.gap_iff after).mpr
  by_cases hempty : output.chunks = []
  · rwa [if_pos hempty]
  · have hfilter := h.filter_chunks after
    have hdrop := h.drop
    have hlatest := h.latest
    have hlength := List.drop_eq_nil_iff.mp (hfilter.symm.trans hnone)
    have hgone : ¬ history.length ≤ output.gone history := by
      intro hle
      rw [List.drop_eq_nil_of_le hle] at hdrop
      exact hempty hdrop
    omega

theorem outputChunksAfter_eq (afterSeq : ℕ)
    (h : stream.output.Holds stream.history) :
    ∃ last, (∀ event ∈ last, event.quiet = true ∧ event.reach = 0) ∧
      outputChunksAfter stream afterSeq = answerEvents stream.output (some afterSeq) [] last := by
  have hlate : (stream.output.chunksAfter (some afterSeq)).2.isEmpty = true ∧
      stream.output.state.truncated = true ∧ afterSeq < stream.output.state.latestSeq →
      (stream.output.chunksAfter (some afterSeq)).1 = true := by
    intro hcond
    exact h.gap_of_none afterSeq hcond.2.2 (List.isEmpty_iff.mp hcond.1)
  unfold outputChunksAfter answerEvents
  generalize stream.output.chunksAfter (some afterSeq) = answer at hlate ⊢
  obtain ⟨gap, chunks⟩ := answer
  dsimp only at hlate ⊢
  by_cases hcond : chunks.isEmpty = true ∧ stream.output.state.truncated = true ∧
      afterSeq < stream.output.state.latestSeq
  · rw [hlate hcond, if_pos hcond]
    exact ⟨_, quiet_last true stream.exit, by simp⟩
  · rw [if_neg hcond]
    exact ⟨_, quiet_last false stream.exit, by simp⟩

theorem updateJobOutputCursor_seq (cursor : ℕ × Bool) (event : JobOutputEvent) :
    (updateJobOutputCursor cursor event).1 = max cursor.1 event.reach := by
  cases event with
  | truncated | jobExited exit => exact (Nat.max_zero _).symm
  | _ => rfl

section
variable (events : List JobOutputEvent) (cursor : ℕ × Bool)
include events cursor

theorem foldl_cursor_le (n : ℕ)
    (hcursor : cursor.1 ≤ n) (h : ∀ event ∈ events, event.reach ≤ n) :
    (events.foldl updateJobOutputCursor cursor).1 ≤ n := by
  induction events generalizing cursor with
  | nil => exact hcursor
  | cons event events ih =>
    have hhead := h event List.mem_cons_self
    apply ih
    · rw [updateJobOutputCursor_seq]
      omega
    · exact fun event hmem => h event (List.mem_cons_of_mem _ hmem)

theorem le_foldl_cursor :
    cursor.1 ≤ (events.foldl updateJobOutputCursor cursor).1 := by
  induction events generalizing cursor with
  | nil => exact Nat.le_refl _
  | cons event events ih =>
    have htail := ih (updateJobOutputCursor cursor event)
    rw [updateJobOutputCursor_seq] at htail
    rw [List.foldl_cons]
    omega

theorem reach_le_foldl_cursor (event : JobOutputEvent) (hmem : event ∈ events) :
    event.reach ≤ (events.foldl updateJobOutputCursor cursor).1 := by
  induction events generalizing cursor with
  | nil => cases hmem
  | cons first events ih =>
    rw [List.foldl_cons]
    rcases List.mem_cons.mp hmem with hmem | hmem
    · have htail := le_foldl_cursor events (updateJobOutputCursor cursor first)
      rw [updateJobOutputCursor_seq, ← hmem] at htail
      rw [← hmem]
      omega
    · exact ih _ hmem

end

section
variable {output : RetainedOutput} {history : List OutputChunk} (h : output.Holds history)
include h

theorem RetainedOutput.Holds.seq_le (chunk : OutputChunk) (hmem : chunk ∈ output.chunks) :
    chunk.seq ≤ output.state.latestSeq := by
  have hseq : chunk.seq ∈ output.chunks.map (·.seq) := List.mem_map_of_mem hmem
  rw [h.drop, map_seq_drop OutputChunk.seq h.numbered, List.mem_range'] at hseq
  rw [h.latest]
  omega

theorem RetainedOutput.Holds.exists_latest (hsome : output.chunks ≠ []) :
    ∃ chunk ∈ output.chunks, chunk.seq = output.state.latestSeq := by
  have hlength := h.length_add_gone
  have hpos := List.length_pos_iff.mpr hsome
  have hseq : output.state.latestSeq ∈ output.chunks.map (·.seq) := by
    rw [h.drop, map_seq_drop OutputChunk.seq h.numbered, List.mem_range', ← h.latest]
    exact ⟨output.state.latestSeq - output.gone history - 1, by omega, by omega⟩
  exact List.mem_map.mp hseq

theorem RetainedOutput.Holds.cursor_after (after : Option ℕ) (first last : List JobOutputEvent)
    (cursor : ℕ × Bool) (hcursor : cursor.1 ≤ output.state.latestSeq)
    (hfirst : ∀ event ∈ first, event.reach ≤ output.state.latestSeq)
    (hlast : ∀ event ∈ last, event.quiet = true ∧ event.reach = 0)
    (hreach : (∃ event ∈ first, event.reach = output.state.latestSeq) ∨ after = some cursor.1) :
    ((answerEvents output after first last).foldl updateJobOutputCursor cursor).1 =
      output.state.latestSeq := by
  apply Nat.le_antisymm
  · apply foldl_cursor_le _ _ _ hcursor
    intro event hmem
    unfold answerEvents at hmem
    rw [List.mem_append, List.mem_append, List.mem_append] at hmem
    rcases hmem with (hmem | hmem | hmem) | hmem
    · exact hfirst event hmem
    · cases after with
      | none => cases hmem
      | some after =>
        split at hmem
        · rename_i hgap
          have hlength := h.length_add_gone
          rw [List.mem_singleton.mp hmem]
          show outputGapNextSeq output after ≤ output.state.latestSeq
          rw [h.gap_next after hgap]
          split
          · exact Nat.le_refl _
          · have hpos := List.length_pos_iff.mpr ‹output.chunks ≠ []›
            omega
        · cases hmem
    · obtain ⟨chunk, hchunk, heq⟩ := List.mem_map.mp hmem
      rw [← heq]
      exact h.seq_le chunk (List.mem_of_mem_filter hchunk)
    · rw [(hlast event hmem).2]
      exact Nat.zero_le _
  · rcases hreach with hreach | hreach
    · obtain ⟨event, hmem, heq⟩ := hreach
      rw [← heq]
      apply reach_le_foldl_cursor
      unfold answerEvents
      simp [hmem]
    · rcases Nat.lt_or_ge cursor.1 output.state.latestSeq with hlt | hge
      · by_cases hempty : output.chunks = []
        · have hgap := (h.gap_iff cursor.1).mpr (by rwa [if_pos hempty])
          have hnext := h.gap_next cursor.1 hgap
          rw [if_pos hempty] at hnext
          have hmem : .historyGap output.state.latestSeq ∈ answerEvents output after first last := by
            rw [hreach]
            unfold answerEvents
            simp [hgap, hnext]
          exact reach_le_foldl_cursor _ cursor _ hmem
        · obtain ⟨chunk, hchunk, hseq⟩ := h.exists_latest hempty
          have hmem : chunk.event ∈ answerEvents output after first last := by
            rw [hreach]
            unfold answerEvents
            simp only [List.mem_append]
            refine .inl (.inr (.inr (List.mem_map_of_mem ?_)))
            exact List.mem_filter.mpr ⟨hchunk, decide_eq_true (hseq ▸ hlt)⟩
          have hle := reach_le_foldl_cursor _ cursor _ hmem
          rwa [show chunk.event.reach = output.state.latestSeq from hseq] at hle
      · exact hge.trans (le_foldl_cursor _ _)

end

theorem RetainedOutput.append_of_skip (output : RetainedOutput) (bytes : Str)
    (hskip : output.enabled = false ∨ bytes = []) : (output.append bytes).1 = output := by
  unfold RetainedOutput.append
  rw [if_pos hskip]

theorem JobStream.apply_holds (h : stream.output.Holds stream.history)
    (step : JobStep) : (stream.apply step).output.Holds (stream.apply step).history ∧
      stream.output.state.latestSeq ≤ (stream.apply step).output.state.latestSeq := by
  cases step with
  | append bytes =>
    dsimp only [JobStream.apply, JobStream.append]
    by_cases hskip : stream.output.enabled = false ∨ bytes = []
    · rw [stream.output.append_of_skip bytes hskip, if_pos hskip]
      exact ⟨h, Nat.le_refl _⟩
    · have hopen := not_or.mp hskip
      have happend := (h.append bytes (by simpa using hopen.1) hopen.2).1
      have hlatest := happend.latest
      rw [List.length_append] at hlatest
      rw [if_neg hskip, hlatest, h.latest]
      exact ⟨happend, Nat.le_add_right _ _⟩
  | exit exit | changed => exact ⟨h, Nat.le_refl _⟩

theorem JobStream.run_holds (h : stream.output.Holds stream.history)
    (steps : List JobStep) :
    (steps.foldl (·.apply) stream).output.Holds (steps.foldl (·.apply) stream).history := by
  induction steps generalizing stream with
  | nil => exact h
  | cons step steps ih => exact ih _ (stream.apply_holds h step).1

theorem RetainedOutput.append_maxBytes (output : RetainedOutput) (bytes : Str) :
    (output.append bytes).1.maxBytes = output.maxBytes := by
  unfold RetainedOutput.append
  split <;> rfl

theorem JobStream.appends_output (pieces : List Str) :
    (pieces.foldl (·.append) stream).output =
      pieces.foldl (fun output bytes => (output.append bytes).1) stream.output ∧
    (pieces.foldl (·.append) stream).output.maxBytes = stream.output.maxBytes := by
  induction pieces generalizing stream with
  | nil => exact ⟨rfl, rfl⟩
  | cons bytes pieces ih =>
    obtain ⟨hrest, hmax⟩ := ih (stream.append bytes)
    exact ⟨hrest, hmax.trans (stream.output.append_maxBytes bytes)⟩

/-- What appends leave: the bytes are those of the chunks, the chunks are numbered up to
the latest, and `truncated` says that a chunk was evicted. -/
theorem RetainedOutput.appends_keep (enabled : Bool) (maxBytes : Option ℕ) (pieces : List Str) :
    let stream := pieces.foldl (·.append) (JobStream.new enabled maxBytes)
    let output := stream.output
    output = pieces.foldl (fun output bytes => (output.append bytes).1)
      (RetainedOutput.new enabled maxBytes) ∧
    output.state.retainedBytes = (output.chunks.map (·.bytes.length)).sum ∧
    output.state.retainedBytes ≤ maxBytes.getD DEFAULT_JOB_OUTPUT_LIMIT ∧
    (∃ first, output.chunks.map (·.seq) = List.range' first output.chunks.length ∧
      (output.chunks ≠ [] → first + output.chunks.length = output.state.latestSeq + 1)) ∧
    output.state.oldestSeq = (output.chunks.head?.map (·.seq)).getD 0 ∧
    (output.state.truncated = true ↔ ∃ chunk ∈ stream.history, chunk ∉ output.chunks) := by
  intro stream output
  have hrun := (JobStream.new enabled maxBytes).run_holds
    (RetainedOutput.new_holds enabled maxBytes) (pieces.map .append)
  rw [List.foldl_map] at hrun
  have h : output.Holds stream.history := hrun
  obtain ⟨houtput, hmax⟩ := (JobStream.new enabled maxBytes).appends_output pieces
  have hlimit := retained_total_le OutputChunk.size output.maxBytes stream.history
  have hdrop := map_seq_drop OutputChunk.seq h.numbered (output.gone stream.history)
  rw [← h.drop] at hdrop
  have hlength := h.length_add_gone
  refine ⟨houtput, h.bytes, ?_, ⟨output.gone stream.history + 1, ?_, ?_⟩, ?_, ?_⟩
  · rw [h.bytes, h.chunks]
    exact hlimit.trans (Nat.le_of_eq hmax)
  · rw [hdrop, Nat.add_comm 1, ← h.latest, ← hlength, Nat.add_sub_cancel]
  · intro _
    omega
  · rw [h.oldest]
    cases hchunks : output.chunks with
    | nil => rfl
    | cons chunk chunks =>
      have hhead := head_drop OutputChunk.seq h.numbered (output.gone stream.history) chunk
        (by rw [← h.drop, hchunks]; rfl)
      simp [hhead]
  · have hgone := exists_evicted OutputChunk.size output.maxBytes OutputChunk.seq h.numbered 0
    rw [h.truncated, decide_eq_true_iff, h.chunks]
    refine hgone.symm.trans ⟨fun hex => ?_, fun hex => ?_⟩
    · obtain ⟨chunk, hmem, _, hgone⟩ := hex
      exact ⟨chunk, hmem, hgone⟩
    · obtain ⟨chunk, hmem, hgone⟩ := hex
      exact ⟨chunk, hmem, (h.numbered.bounds OutputChunk.seq chunk hmem).1, hgone⟩

structure Answer.Sound (answer : Answer) : Prop where
  said : answer.Says
  holds : answer.stream.output.Holds answer.stream.history
  after_le : ∀ after, answer.after = some after → after ≤ answer.stream.output.state.latestSeq

def deliveries (answers : List Answer) : List OutputChunk := answers.flatMap (·.delivered)

def Ordered (after : ℕ) (chunks : List OutputChunk) : Prop :=
  (∀ chunk ∈ chunks, after < chunk.seq) ∧ chunks.Pairwise (·.seq < ·.seq)

theorem Ordered.append {after mid : ℕ} {chunks rest : List OutputChunk} (h : Ordered after chunks)
    (hle : ∀ chunk ∈ chunks, chunk.seq ≤ mid) (hmid : after ≤ mid) (hrest : Ordered mid rest) :
    Ordered after (chunks ++ rest) := by
  constructor
  · intro chunk hmem
    rcases List.mem_append.mp hmem with hmem | hmem
    · exact h.1 chunk hmem
    · have hlt := hrest.1 chunk hmem
      omega
  · apply List.pairwise_append.mpr
    refine ⟨h.2, hrest.2, ?_⟩
    intro chunk hmem later hlater
    have hle := hle chunk hmem
    have hlt := hrest.1 later hlater
    omega

theorem RetainedOutput.Holds.ordered {history : List OutputChunk}
    (h : output.Holds history) (after : ℕ) :
    Ordered after (output.chunks.filter fun chunk => after < chunk.seq) := by
  constructor
  · exact fun chunk hmem => of_decide_eq_true (List.mem_filter.mp hmem).2
  · apply List.Pairwise.filter
    rw [h.drop]
    apply List.pairwise_map.mp
    rw [map_seq_drop OutputChunk.seq h.numbered]
    exact List.pairwise_lt_range'

theorem followOutput_sound (h : stream.output.Holds stream.history)
    (cursor : ℕ × Bool) (hcursor : cursor.1 ≤ stream.output.state.latestSeq) (steps : List JobStep) :
    (∀ answer ∈ followOutput stream cursor steps, answer.Sound) ∧
      Ordered cursor.1 (deliveries (followOutput stream cursor steps)) := by
  induction steps generalizing stream cursor with
  | nil => exact ⟨nofun, nofun, List.Pairwise.nil⟩
  | cons step steps ih =>
    have happly := stream.apply_holds h step
    cases step with
    | append bytes | exit exit => exact ih _ happly.1 cursor (hcursor.trans happly.2)
    | changed =>
      unfold followOutput
      by_cases hexited : cursor.2 = true
      · rw [if_pos hexited]
        exact ⟨nofun, nofun, List.Pairwise.nil⟩
      · rw [if_neg hexited]
        obtain ⟨last, hlast, hevents⟩ := outputChunksAfter_eq stream cursor.1 h
        have hnone : ∀ event ∈ ([] : List JobOutputEvent), event.quiet = true :=
          fun _ hmem => nomatch hmem
        have hsaid := answerEvents_says stream (some cursor.1) [] last hnone
          fun event hmem => (hlast event hmem).1
        have hnext := h.cursor_after (some cursor.1) [] last cursor hcursor
          (fun _ hmem => nomatch hmem) hlast (.inr rfl)
        rw [← hevents] at hsaid hnext
        obtain ⟨hsound, hordered⟩ := ih stream h _ (Nat.le_of_eq hnext)
        rw [hnext] at hordered
        constructor
        · intro answer hmem
          rcases List.mem_cons.mp hmem with hmem | hmem
          · rw [hmem]
            exact ⟨hsaid, h, fun after hafter => Option.some.inj hafter ▸ hcursor⟩
          · exact hsound answer hmem
        · have hdelivered : deliveries (⟨stream, some cursor.1, outputChunksAfter stream cursor.1⟩ ::
              followOutput stream ((outputChunksAfter stream cursor.1).foldl updateJobOutputCursor
                cursor) steps) = stream.output.chunks.filter (fun chunk => cursor.1 < chunk.seq) ++
              deliveries (followOutput stream ((outputChunksAfter stream cursor.1).foldl
                updateJobOutputCursor cursor) steps) :=
            congrArg (· ++ _) hsaid.chunks
          rw [hdelivered]
          refine (h.ordered cursor.1).append ?_ hcursor hordered
          exact fun chunk hmem => h.seq_le chunk (List.mem_of_mem_filter hmem)

theorem subscribeOutput_sound (h : stream.output.Holds stream.history)
    (afterSeq : Option ℕ)
    (hafter : ∀ after, afterSeq = some after → after ≤ stream.output.state.latestSeq)
    (steps : List JobStep) :
    (∀ answer ∈ subscribeOutput stream afterSeq steps, answer.Sound) ∧
      Ordered (afterSeq.getD 0) (deliveries (subscribeOutput stream afterSeq steps)) := by
  unfold subscribeOutput
  cases hattached : outputAttached stream afterSeq with
  | error e => exact ⟨nofun, nofun, List.Pairwise.nil⟩
  | ok events =>
    obtain ⟨_, last, hlast, hevents⟩ := outputAttached_eq_ok stream afterSeq events hattached
    have hcursor : afterSeq.getD 0 ≤ stream.output.state.latestSeq := by
      cases afterSeq with
      | none => exact Nat.zero_le _
      | some after => exact hafter after rfl
    have hsaid := answerEvents_says stream afterSeq
      [.attached stream.output.state.oldestSeq stream.output.state.latestSeq] last
      (fun event hmem => List.mem_singleton.mp hmem ▸ rfl) fun event hmem => (hlast event hmem).1
    have hnext := h.cursor_after afterSeq
      [.attached stream.output.state.oldestSeq stream.output.state.latestSeq] last
      (afterSeq.getD 0, false) hcursor
      (fun event hmem => List.mem_singleton.mp hmem ▸ Nat.le_refl _) hlast
      (.inl ⟨_, List.mem_singleton_self _, rfl⟩)
    rw [← hevents] at hsaid hnext
    obtain ⟨hsound, hordered⟩ := followOutput_sound stream h _ (Nat.le_of_eq hnext) steps
    rw [hnext] at hordered
    constructor
    · intro answer hmem
      rcases List.mem_cons.mp hmem with hmem | hmem
      · rw [hmem]
        exact ⟨hsaid, h, hafter⟩
      · exact hsound answer hmem
    · have hdelivered : deliveries (⟨stream, afterSeq, events⟩ ::
          followOutput stream (events.foldl updateJobOutputCursor (afterSeq.getD 0, false)) steps) =
          stream.output.chunks.filter (fun chunk => afterSeq.getD 0 < chunk.seq) ++
          deliveries (followOutput stream
            (events.foldl updateJobOutputCursor (afterSeq.getD 0, false)) steps) :=
        congrArg (· ++ _) hsaid.chunks
      show Ordered _ (deliveries (_ :: _))
      rw [hdelivered]
      refine (h.ordered (afterSeq.getD 0)).append ?_ hcursor hordered
      exact fun chunk hmem => h.seq_le chunk (List.mem_of_mem_filter hmem)

/-- The chunks of a subscription come in order, and its answers are exact exactly if the cursor of
each is clear of the defect. -/
theorem gaps_exact (enabled : Bool) (maxBytes : Option ℕ) (before : List JobStep)
    (stream : JobStream) (hstream : stream = before.foldl (·.apply) (JobStream.new enabled maxBytes))
    (afterSeq : Option ℕ)
    (hafter : ∀ after, afterSeq = some after → after ≤ stream.output.state.latestSeq)
    (steps : List JobStep) :
    Ordered (afterSeq.getD 0) (deliveries (subscribeOutput stream afterSeq steps)) ∧
    ((∀ answer ∈ subscribeOutput stream afterSeq steps, answer.Exact) ↔
      ∀ answer ∈ subscribeOutput stream afterSeq steps, answer.Clear) := by
  have h : stream.output.Holds stream.history := by
    rw [hstream]
    exact JobStream.run_holds _ (RetainedOutput.new_holds enabled maxBytes) before
  obtain ⟨hsound, hordered⟩ := subscribeOutput_sound stream h afterSeq hafter steps
  have hiff : ∀ answer ∈ subscribeOutput stream afterSeq steps, (answer.Exact ↔ answer.Clear) := by
    intro answer hmem
    have hanswer := hsound answer hmem
    exact answer.exact_iff hanswer.said hanswer.holds hanswer.after_le
  exact ⟨hordered, forall₂_congr hiff⟩

def cutStream : JobStream :=
  [JobStep.append [1, 2], .append [3, 4], .append [5, 6]].foldl (·.apply)
    (JobStream.new true (some 5))

theorem cutStream_exact :
    Ordered 0 (deliveries (subscribeOutput cutStream (some 0) [.append [7], .changed])) ∧
    ((∀ answer ∈ subscribeOutput cutStream (some 0) [.append [7], .changed], answer.Exact) ↔
      ∀ answer ∈ subscribeOutput cutStream (some 0) [.append [7], .changed], answer.Clear) :=
  gaps_exact true (some 5) _ cutStream rfl (some 0) (fun _ _ => by cases ‹some 0 = _›; decide)
    [.append [7], .changed]

def wholeStream : JobStream :=
  [JobStep.append [1]].foldl (·.apply) (JobStream.new true none)

theorem wholeStream_gap : ∃ answer,
    subscribeOutput wholeStream (some 0) [] = [answer] ∧ .historyGap 1 ∈ answer.events ∧
    (∀ chunk ∈ answer.stream.history, chunk ∈ answer.stream.output.chunks) ∧ ¬ answer.Exact := by
  refine ⟨_, rfl, by decide, by decide, ?_⟩
  intro hexact
  obtain ⟨after, _, chunk, hmem, _, hgone⟩ := hexact.gap.mp ⟨1, by decide⟩
  exact hgone hmem

end Rieul.Command
