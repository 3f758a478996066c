import Rieul.Command.JobStore
import Rieul.Command.OutputGap
import Rieul.Lib.Calls
import Rieul.Lib.System

/-!
# Stored output of a job

The state of an output is written as it was after some append, and a chunk only while the stored
state has it retained.
-/

namespace Rieul.Command
open Bytes Retention

/-- How many of the first `k` chunks are no longer retained after them. -/
def goneAt (maxBytes : ℕ) (history : List OutputChunk) (k : ℕ) : ℕ :=
  evicted OutputChunk.size maxBytes (history.take k)

def describedState (enabled : Bool) (maxBytes : ℕ) (history : List OutputChunk) : JobOutputState where
  enabled := enabled
  oldestSeq := if retained OutputChunk.size maxBytes history = [] then 0
    else evicted OutputChunk.size maxBytes history + 1
  latestSeq := history.length
  retainedBytes := total OutputChunk.size (retained OutputChunk.size maxBytes history)
  truncated := decide (0 < evicted OutputChunk.size maxBytes history)

variable (maxBytes : ℕ) {output : RetainedOutput}

theorem RetainedOutput.Holds.state_eq {history : List OutputChunk}
    (h : output.Holds history) :
    output.state = describedState output.state.enabled output.maxBytes history := by
  have holdest := h.oldest
  have hbytes := h.bytes
  rw [h.chunks] at holdest hbytes
  unfold describedState
  rw [← h.latest, ← hbytes]
  unfold gone at holdest
  rw [← holdest, ← gone, ← h.truncated]

theorem goneAt_mono (history : List OutputChunk) (j k : ℕ) (hjk : j ≤ k) :
    goneAt maxBytes history j ≤ goneAt maxBytes history k := by
  have hsplit := List.take_append_drop j (history.take k)
  rw [List.take_take, Nat.min_eq_left hjk] at hsplit
  unfold goneAt
  rw [← hsplit]
  exact evicted_append_le _ _ _ _

theorem goneAt_append (history rest : List OutputChunk) (k : ℕ)
    (hk : k ≤ history.length) : goneAt maxBytes (history ++ rest) k = goneAt maxBytes history k := by
  unfold goneAt
  rw [List.take_append_of_le_length hk]

/-- With none of the first `k` retained, all of them are gone. -/
theorem retained_take_eq_nil (history : List OutputChunk) (k : ℕ)
    (hk : k ≤ history.length) :
    retained OutputChunk.size maxBytes (history.take k) = [] ↔ goneAt maxBytes history k = k := by
  have hle := retained_length OutputChunk.size maxBytes (history.take k)
  unfold goneAt evicted
  rw [← List.length_eq_zero_iff]
  rw [List.length_take, Nat.min_eq_left hk] at hle ⊢
  omega

theorem mem_insertOrReplace (chunk row : OutputChunk) (rows : List OutputChunk)
    (hrows : rows.Pairwise (·.seq < ·.seq)) :
    row ∈ insertOrReplace chunk rows ↔ row = chunk ∨ row ∈ rows ∧ row.seq ≠ chunk.seq := by
  induction rows with
  | nil => simp [insertOrReplace]
  | cons first rows ih =>
    obtain ⟨hfirst, hrows⟩ := List.pairwise_cons.mp hrows
    unfold insertOrReplace
    split
    · have hne : ∀ other ∈ first :: rows, other.seq ≠ chunk.seq := by
        intro other hmem
        rcases List.mem_cons.mp hmem with hmem | hmem
        · rw [hmem]
          omega
        · have habove := hfirst other hmem
          omega
      rw [List.mem_cons]
      constructor
      · exact fun h => h.imp_right fun hmem => ⟨hmem, hne row hmem⟩
      · exact fun h => h.imp_right (·.1)
    · split
      · rename_i heq
        have hne : ∀ other ∈ rows, other.seq ≠ chunk.seq := by
          intro other hmem
          have habove := hfirst other hmem
          omega
        rw [List.mem_cons, List.mem_cons]
        constructor
        · exact fun h => h.imp_right fun hmem => ⟨.inr hmem, hne row hmem⟩
        · intro h
          rcases h with h | ⟨h | h, hseq⟩
          · exact .inl h
          · rw [h] at hseq
            exact absurd heq.symm hseq
          · exact .inr h
      · rename_i hne
        rw [List.mem_cons, ih hrows, List.mem_cons]
        constructor
        · intro h
          rcases h with h | h | h
          · exact .inr ⟨.inl h, h ▸ fun heq => hne heq.symm⟩
          · exact .inl h
          · exact .inr ⟨.inr h.1, h.2⟩
        · intro h
          rcases h with h | ⟨h | h, hseq⟩
          · exact .inr (.inl h)
          · exact .inl h
          · exact .inr (.inr ⟨h, hseq⟩)

theorem insertOrReplace_sorted (chunk : OutputChunk) (rows : List OutputChunk)
    (hrows : rows.Pairwise (·.seq < ·.seq)) :
    (insertOrReplace chunk rows).Pairwise (·.seq < ·.seq) := by
  induction rows with
  | nil => exact List.pairwise_singleton _ _
  | cons first rows ih =>
    have hall := hrows
    obtain ⟨hfirst, hrows⟩ := List.pairwise_cons.mp hrows
    unfold insertOrReplace
    split
    · rename_i hlt
      apply List.pairwise_cons.mpr
      refine ⟨fun row hmem => ?_, hall⟩
      rcases List.mem_cons.mp hmem with hmem | hmem
      · rwa [hmem]
      · exact hlt.trans (hfirst row hmem)
    · split
      · rename_i heq
        apply List.pairwise_cons.mpr
        exact ⟨fun row hmem => heq ▸ hfirst row hmem, hrows⟩
      · apply List.pairwise_cons.mpr
        refine ⟨fun row hmem => ?_, ih hrows⟩
        rcases (mem_insertOrReplace chunk row rows hrows).mp hmem with hmem | hmem
        · rw [hmem]
          omega
        · exact hfirst row hmem.1

theorem rows_eq_of_mem_iff (rows other : List OutputChunk) (hrows : rows.Pairwise (·.seq < ·.seq))
    (hother : other.Pairwise (·.seq < ·.seq)) (h : ∀ row, row ∈ rows ↔ row ∈ other) :
    rows = other := by
  have hnodup : ∀ l : List OutputChunk, l.Pairwise (·.seq < ·.seq) → l.Nodup := by
    intro l hl
    refine hl.imp ?_
    intro a b hlt heq
    rw [heq] at hlt
    exact Nat.lt_irrefl _ hlt
  have hperm := (List.perm_ext_iff_of_nodup (hnodup rows hrows) (hnodup other hother)).mpr h
  exact hperm.eq_of_pairwise (fun a b _ _ hab hba => absurd hab (Nat.lt_asymm hba)) hrows hother

def JobCall.stream : JobCall → Option JobOutputStream
  | .persistOutputState stream _ _ => some stream
  | .persistOutputChunk stream _ => some stream
  | _ => none

def OnTheWay (stream : JobOutputStream) (calls : List JobCall) (chunk : OutputChunk) : Prop :=
  .persistOutputChunk stream chunk ∈ calls ∨
    ∃ state, .persistOutputState stream state (some chunk) ∈ calls

/-- The rows of an output are those after its first `saved` chunks, short of the chunks that are
still to be written; the states of the later chunks are still to be written. -/
structure Synced (enabled : Bool) (maxBytes : ℕ) (history : List OutputChunk) (saved : ℕ)
    (rows : OutputRows) (stream : JobOutputStream) (calls : List JobCall) : Prop where
  saved_le : saved ≤ history.length
  state : rows.state =
    if saved = 0 then none else some (describedState enabled maxBytes (history.take saved))
  sorted : rows.chunks.Pairwise (·.seq < ·.seq)
  stored : ∀ chunk ∈ rows.chunks,
    chunk ∈ history ∧ goneAt maxBytes history saved < chunk.seq ∧ chunk.seq ≤ saved
  kept : ∀ chunk ∈ history, goneAt maxBytes history saved < chunk.seq → chunk.seq ≤ saved →
    chunk ∈ rows.chunks ∨ OnTheWay stream calls chunk
  ahead : ∀ k, saved < k → k ≤ history.length → ∃ last,
    .persistOutputState stream (describedState enabled maxBytes (history.take k)) last ∈ calls ∧
    ∀ chunk ∈ history, chunk.seq = k → goneAt maxBytes history k < k → last = some chunk
  states : ∀ state last, .persistOutputState stream state last ∈ calls → ∃ k, 0 < k ∧
    k ≤ history.length ∧ state = describedState enabled maxBytes (history.take k) ∧
    ∀ chunk, last = some chunk → chunk ∈ history ∧ chunk.seq = k
  chunks : ∀ chunk, .persistOutputChunk stream chunk ∈ calls → chunk ∈ history ∧ chunk.seq ≤ saved

section
variable {enabled : Bool} {maxBytes : ℕ} {history : List OutputChunk} {saved : ℕ}
variable {rows : OutputRows} {stream : JobOutputStream} {calls rest : List JobCall}

theorem Synced.of_calls (h : Synced enabled maxBytes history saved rows stream calls)
    (hrest : ∀ call, call.stream = some stream → (call ∈ rest ↔ call ∈ calls)) :
    Synced enabled maxBytes history saved rows stream rest := by
  have hstate : ∀ state last, JobCall.persistOutputState stream state last ∈ rest ↔
      .persistOutputState stream state last ∈ calls := fun state last => hrest _ rfl
  have hchunk : ∀ chunk, JobCall.persistOutputChunk stream chunk ∈ rest ↔
      .persistOutputChunk stream chunk ∈ calls := fun chunk => hrest _ rfl
  constructor
  · exact h.saved_le
  · exact h.state
  · exact h.sorted
  · exact h.stored
  · intro chunk hmem hgone hle
    unfold OnTheWay
    simp only [hstate, hchunk]
    exact h.kept chunk hmem hgone hle
  · intro k hlt hle
    simp only [hstate]
    exact h.ahead k hlt hle
  · intro state last hmem
    exact h.states state last ((hstate state last).mp hmem)
  · intro chunk hmem
    exact h.chunks chunk ((hchunk chunk).mp hmem)

def lastRetained (maxBytes : ℕ) (history : List OutputChunk) : Option OutputChunk :=
  (retained OutputChunk.size maxBytes history).getLast?.filter fun chunk =>
    chunk.seq = history.length

theorem lastRetained_mem (chunk : OutputChunk) (h : lastRetained maxBytes history = some chunk) :
    chunk ∈ history ∧ chunk.seq = history.length := by
  unfold lastRetained at h
  rw [Option.filter_eq_some_iff] at h
  have hmem := List.mem_of_getLast? h.1
  rw [retained_eq_drop] at hmem
  exact ⟨List.mem_of_mem_drop hmem, of_decide_eq_true h.2⟩

theorem lastRetained_snoc (chunk : OutputChunk) (hseq : chunk.seq = history.length + 1)
    (hgone : goneAt maxBytes (history ++ [chunk]) (history.length + 1) < history.length + 1) :
    lastRetained maxBytes (history ++ [chunk]) = some chunk := by
  have hlength : (history ++ [chunk]).length = history.length + 1 := by simp
  unfold goneAt at hgone
  rw [← hlength, List.take_length] at hgone
  unfold lastRetained
  rw [retained_eq_drop, List.getLast?_drop, if_neg (Nat.not_le.mpr hgone), List.getLast?_append]
  simp [hseq]

theorem Synced.append (h : Synced enabled maxBytes history saved rows stream calls)
    (hnumbered : Numbered OutputChunk.seq history) (chunk : OutputChunk) (hseq : chunk.seq = history.length + 1) :
    Synced enabled maxBytes (history ++ [chunk]) saved rows stream
      (calls ++ [.persistOutputState stream (describedState enabled maxBytes (history ++ [chunk]))
        (lastRetained maxBytes (history ++ [chunk]))]) := by
  have hlength : (history ++ [chunk]).length = history.length + 1 := by simp
  have hsaved := h.saved_le
  have hold : ∀ other ∈ history ++ [chunk], other.seq ≤ history.length → other ∈ history := by
    intro other hmem hle
    rcases List.mem_append.mp hmem with hmem | hmem
    · exact hmem
    · rw [List.mem_singleton.mp hmem] at hle
      omega
  constructor
  · omega
  · rw [List.take_append_of_le_length hsaved]
    exact h.state
  · exact h.sorted
  · intro other hmem
    rw [goneAt_append maxBytes history [chunk] saved hsaved]
    have hstored := h.stored other hmem
    exact ⟨List.mem_append_left _ hstored.1, hstored.2⟩
  · intro other hmem hgone hle
    rw [goneAt_append maxBytes history [chunk] saved hsaved] at hgone
    refine (h.kept other (hold other hmem (hle.trans hsaved)) hgone hle).imp_right ?_
    intro hway
    rcases hway with hway | ⟨state, hway⟩
    · exact .inl (List.mem_append_left _ hway)
    · exact .inr ⟨state, List.mem_append_left _ hway⟩
  · intro k hlt hle
    rcases Nat.lt_or_ge history.length k with hnew | hk
    · have hk : k = history.length + 1 := by omega
      rw [hk, ← hlength, List.take_length]
      refine ⟨_, List.mem_append_right _ (List.mem_singleton_self _), ?_⟩
      intro other hmem hother hgone
      rw [hlength] at hother hgone
      have heq : other = chunk := by
        rcases List.mem_append.mp hmem with hmem | hmem
        · have hbounds := hnumbered.bounds _ other hmem
          omega
        · exact List.mem_singleton.mp hmem
      rw [heq]
      exact lastRetained_snoc chunk hseq hgone
    · obtain ⟨last, hmem, hlast⟩ := h.ahead k hlt hk
      rw [List.take_append_of_le_length hk, goneAt_append maxBytes history [chunk] k hk]
      refine ⟨last, List.mem_append_left _ hmem, ?_⟩
      exact fun other hother heq => hlast other (hold other hother (heq ▸ hk)) heq
  · intro state last hmem
    rcases List.mem_append.mp hmem with hmem | hmem
    · obtain ⟨k, hpos, hk, hstate, hlast⟩ := h.states state last hmem
      refine ⟨k, hpos, by omega, ?_, fun other hother => ?_⟩
      · rw [List.take_append_of_le_length hk]
        exact hstate
      · exact ⟨List.mem_append_left _ (hlast other hother).1, (hlast other hother).2⟩
    · cases List.mem_singleton.mp hmem
      refine ⟨history.length + 1, Nat.succ_pos _, Nat.le_of_eq hlength.symm, ?_, ?_⟩
      · rw [← hlength, List.take_length]
      · rw [← hlength]
        exact lastRetained_mem
  · intro other hmem
    rcases List.mem_append.mp hmem with hmem | hmem
    · exact ⟨List.mem_append_left _ (h.chunks other hmem).1, (h.chunks other hmem).2⟩
    · cases List.mem_singleton.mp hmem

theorem Synced.again (h : Synced enabled maxBytes history saved rows stream calls)
    (hsome : 0 < history.length) :
    Synced enabled maxBytes history saved rows stream
      (calls ++ [.persistOutputState stream (describedState enabled maxBytes history) none]) := by
  constructor
  · exact h.saved_le
  · exact h.state
  · exact h.sorted
  · exact h.stored
  · intro chunk hmem hgone hle
    refine (h.kept chunk hmem hgone hle).imp_right ?_
    intro hway
    rcases hway with hway | ⟨state, hway⟩
    · exact .inl (List.mem_append_left _ hway)
    · exact .inr ⟨state, List.mem_append_left _ hway⟩
  · intro k hlt hle
    obtain ⟨last, hmem, hlast⟩ := h.ahead k hlt hle
    exact ⟨last, List.mem_append_left _ hmem, hlast⟩
  · intro state last hmem
    rcases List.mem_append.mp hmem with hmem | hmem
    · exact h.states state last hmem
    · cases List.mem_singleton.mp hmem
      refine ⟨history.length, hsome, Nat.le_refl _, ?_, nofun⟩
      rw [List.take_length]
  · intro chunk hmem
    rcases List.mem_append.mp hmem with hmem | hmem
    · exact h.chunks chunk hmem
    · cases List.mem_singleton.mp hmem

theorem describedState_latest (k : ℕ) (hk : k ≤ history.length) :
    (describedState enabled maxBytes (history.take k)).latestSeq = k :=
  List.length_take_of_le hk

theorem describedState_oldest (k : ℕ) (hk : k ≤ history.length) :
    (describedState enabled maxBytes (history.take k)).oldestSeq =
      if goneAt maxBytes history k = k then 0 else goneAt maxBytes history k + 1 := by
  unfold describedState
  simp only [retained_take_eq_nil maxBytes history k hk]
  rfl

/-- What the state after `k` chunks leaves of the rows. -/
theorem mem_saveState (k : ℕ) (hk : k ≤ history.length) (hrows : ∀ row ∈ rows.chunks, row.seq ≤ k)
    (chunk : OutputChunk) :
    chunk ∈ (rows.saveState (describedState enabled maxBytes (history.take k))).chunks ↔
      chunk ∈ rows.chunks ∧ goneAt maxBytes history k < chunk.seq := by
  unfold OutputRows.saveState
  rw [describedState_oldest k hk]
  by_cases hgone : goneAt maxBytes history k = k
  · rw [if_pos hgone, if_neg (Nat.lt_irrefl 0)]
    constructor
    · exact fun hmem => nomatch hmem
    · intro hmem
      have hle := hrows chunk hmem.1
      omega
  · rw [if_neg hgone, if_pos (Nat.succ_pos _), List.mem_filter, decide_eq_true_iff, Nat.not_lt]
    exact Iff.rfl

section
variable (h : Synced enabled maxBytes history saved rows stream calls)
include h

theorem Synced.saveState (hnumbered : Numbered OutputChunk.seq history) (state : JobOutputState)
    (last : Option OutputChunk) (hcall : .persistOutputState stream state last ∈ calls)
    (hmem : ∀ call ∈ calls, call = .persistOutputState stream state last ∨ call ∈ rest)
    (hsub : ∀ call ∈ rest, call ∈ calls) (horder : saved ≤ state.latestSeq) :
    Synced enabled maxBytes history state.latestSeq (rows.saveState state) stream
      (rest ++ (last.map (.persistOutputChunk stream)).toList) := by
  obtain ⟨k, hpos, hk, hstate, hlast⟩ := h.states state last hcall
  have hlatest : state.latestSeq = k := by
    rw [hstate, describedState_latest k hk]
  rw [hlatest] at horder ⊢
  have hmono := goneAt_mono maxBytes history saved k horder
  have hrows : ∀ row ∈ rows.chunks, row.seq ≤ k :=
    fun row hrow => (h.stored row hrow).2.2.trans horder
  -- a chunk that was on its way still is
  have hway : ∀ chunk, OnTheWay stream calls chunk →
      OnTheWay stream (rest ++ (last.map (.persistOutputChunk stream)).toList) chunk := by
    intro chunk hway
    rcases hway with hway | ⟨other, hway⟩
    · rcases hmem _ hway with heq | hrest
      · cases heq
      · exact .inl (List.mem_append_left _ hrest)
    · rcases hmem _ hway with heq | hrest
      · cases heq
        exact .inl (List.mem_append_right _ (List.mem_singleton_self _))
      · exact .inr ⟨other, List.mem_append_left _ hrest⟩
  constructor
  · exact hk
  · rw [if_neg (Nat.pos_iff_ne_zero.mp hpos), ← hstate]
    rfl
  · unfold OutputRows.saveState
    split
    · exact h.sorted.filter _
    · exact List.Pairwise.nil
  · intro chunk hchunk
    rw [hstate, mem_saveState k hk hrows] at hchunk
    exact ⟨(h.stored chunk hchunk.1).1, hchunk.2, hrows chunk hchunk.1⟩
  · intro chunk hchunk hgone hle
    rw [hstate, mem_saveState k hk hrows]
    rcases Nat.lt_or_ge saved chunk.seq with hnew | hold
    · obtain ⟨other, hother, hsome⟩ :=
        h.ahead chunk.seq hnew (hnumbered.bounds _ chunk hchunk).2
      have hmono := goneAt_mono maxBytes history chunk.seq k hle
      have heq := hsome chunk hchunk rfl (by omega)
      rw [heq] at hother
      exact .inr (hway chunk (.inr ⟨_, hother⟩))
    · rcases h.kept chunk hchunk (by omega) hold with hrow | hon
      · exact .inl ⟨hrow, hgone⟩
      · exact .inr (hway chunk hon)
  · intro j hlt hle
    obtain ⟨other, hother, hsome⟩ := h.ahead j (by omega) hle
    rcases hmem _ hother with heq | hrest
    · have hj := @describedState_latest enabled maxBytes history j hle
      cases heq
      omega
    · exact ⟨other, List.mem_append_left _ hrest, hsome⟩
  · intro other otherLast hother
    rcases List.mem_append.mp hother with hother | hother
    · exact h.states other otherLast (hsub _ hother)
    · cases last with
      | none => cases hother
      | some chunk => cases List.mem_singleton.mp hother
  · intro chunk hchunk
    rcases List.mem_append.mp hchunk with hchunk | hchunk
    · exact ⟨(h.chunks chunk (hsub _ hchunk)).1, (h.chunks chunk (hsub _ hchunk)).2.trans horder⟩
    · cases last with
      | none => cases hchunk
      | some other =>
        cases List.mem_singleton.mp hchunk
        exact ⟨(hlast chunk rfl).1, Nat.le_of_eq (hlast chunk rfl).2⟩

theorem Synced.appendChunk_eq
    (henabled : enabled = true) (chunk : OutputChunk) (hpos : 0 < chunk.seq)
    (hle : chunk.seq ≤ saved) : rows.appendChunk chunk =
      if goneAt maxBytes history saved < chunk.seq then
        { rows with chunks := insertOrReplace chunk rows.chunks }
      else rows := by
  have hstate := h.state
  rw [if_neg (show saved ≠ 0 by omega)] at hstate
  have hany : (rows.state.any fun state => state.enabled ∧ state.oldestSeq > 0 ∧
      chunk.seq ≥ state.oldestSeq ∧ chunk.seq ≤ state.latestSeq) =
      decide (goneAt maxBytes history saved < chunk.seq) := by
    rw [hstate, Option.any_some, describedState_oldest saved h.saved_le,
      describedState_latest saved h.saved_le]
    apply decide_eq_decide.mpr
    constructor
    · intro hcond
      have holdest := hcond.2
      split at holdest
      · omega
      · omega
    · intro hlt
      rw [if_neg (by omega)]
      exact ⟨henabled, by omega, by omega, hle⟩
  unfold OutputRows.appendChunk
  rw [hany]
  simp only [decide_eq_true_iff]

theorem Synced.appendChunk
    (hnumbered : Numbered OutputChunk.seq history) (henabled : enabled = true) (chunk : OutputChunk)
    (hcall : .persistOutputChunk stream chunk ∈ calls)
    (hmem : ∀ call ∈ calls, call = .persistOutputChunk stream chunk ∨ call ∈ rest)
    (hsub : ∀ call ∈ rest, call ∈ calls) :
    Synced enabled maxBytes history saved (rows.appendChunk chunk) stream rest := by
  obtain ⟨hchunk, hle⟩ := h.chunks chunk hcall
  have hrows : ∀ row, row ∈ (rows.appendChunk chunk).chunks ↔
      row ∈ rows.chunks ∨ row = chunk ∧ goneAt maxBytes history saved < chunk.seq := by
    intro row
    rw [h.appendChunk_eq henabled chunk (hnumbered.bounds _ chunk hchunk).1 hle]
    split
    · rename_i hgone
      rw [mem_insertOrReplace chunk row rows.chunks h.sorted]
      constructor
      · exact fun hrow => hrow.symm.imp (·.1) fun heq => ⟨heq, hgone⟩
      · intro hrow
        by_cases heq : row = chunk
        · exact .inl heq
        · have hrow := hrow.resolve_right fun hrow => heq hrow.1
          refine .inr ⟨hrow, fun hseq => heq ?_⟩
          exact hnumbered.eq_of_seq _ row chunk (h.stored row hrow).1 hchunk hseq
    · rename_i hgone
      exact ⟨.inl, fun hrow => hrow.resolve_right fun hrow => hgone hrow.2⟩
  have hstates : ∀ state last, .persistOutputState stream state last ∈ calls →
      .persistOutputState stream state last ∈ rest :=
    fun state last hother => (hmem _ hother).resolve_left (nomatch ·)
  constructor
  · exact h.saved_le
  · rw [h.appendChunk_eq henabled chunk (hnumbered.bounds _ chunk hchunk).1 hle]
    split
    · exact h.state
    · exact h.state
  · rw [h.appendChunk_eq henabled chunk (hnumbered.bounds _ chunk hchunk).1 hle]
    split
    · exact insertOrReplace_sorted chunk rows.chunks h.sorted
    · exact h.sorted
  · intro row hrow
    rcases (hrows row).mp hrow with hrow | hrow
    · exact h.stored row hrow
    · rw [hrow.1]
      exact ⟨hchunk, hrow.2, hle⟩
  · intro row hrow hgone hle
    rw [hrows]
    rcases h.kept row hrow hgone hle with hstored | hway | hway
    · exact .inl (.inl hstored)
    · rcases hmem _ hway with heq | hrest
      · cases heq
        exact .inl (.inr ⟨rfl, hgone⟩)
      · exact .inr (.inl hrest)
    · obtain ⟨state, hway⟩ := hway
      exact .inr (.inr ⟨state, hstates _ _ hway⟩)
  · intro k hlt hle
    obtain ⟨last, hother, hlast⟩ := h.ahead k hlt hle
    exact ⟨last, hstates _ _ hother, hlast⟩
  · exact fun state last hother => h.states state last (hsub _ hother)
  · exact fun other hother => h.chunks other (hsub _ hother)

theorem Synced.settled (hnumbered : Numbered OutputChunk.seq history)
    (hcalls : ∀ call ∈ calls, call.stream ≠ some stream) :
    rows.state = (if history = [] then none else some (describedState enabled maxBytes history)) ∧
      rows.chunks = retained OutputChunk.size maxBytes history := by
  have hsaved : saved = history.length := by
    apply Nat.le_antisymm h.saved_le
    apply Nat.not_lt.mp
    intro hlt
    obtain ⟨last, hmem, _⟩ := h.ahead history.length hlt (Nat.le_refl _)
    exact hcalls _ hmem rfl
  have hstate := h.state
  have hgone : goneAt maxBytes history saved = evicted OutputChunk.size maxBytes history := by
    rw [hsaved, goneAt, List.take_length]
  rw [hsaved, List.take_length] at hstate
  simp only [List.length_eq_zero_iff] at hstate
  refine ⟨hstate, ?_⟩
  apply rows_eq_of_mem_iff rows.chunks _ h.sorted
  · rw [retained_eq_drop]
    apply List.pairwise_map.mp
    rw [map_seq_drop OutputChunk.seq hnumbered]
    exact List.pairwise_lt_range'
  · intro chunk
    rw [mem_retained_iff _ _ OutputChunk.seq hnumbered, ← hgone]
    constructor
    · intro hrow
      exact ⟨(h.stored chunk hrow).1, (h.stored chunk hrow).2.1⟩
    · intro hmem
      have hle := (hnumbered.bounds _ chunk hmem.1).2
      rcases h.kept chunk hmem.1 hmem.2 (hsaved ▸ hle) with hrow | hway | ⟨state, hway⟩
      · exact hrow
      · exact absurd rfl (hcalls _ hway)
      · exact absurd rfl (hcalls _ hway)

end

end

def RetainedOutput.Follows (output : RetainedOutput) (rows : OutputRows) (stream : JobOutputStream)
    (calls : List JobCall) : Prop :=
  ∃ history saved, output.Holds history ∧ (history ≠ [] → output.enabled = true) ∧
    output.state.enabled = output.enabled ∧
    Synced output.enabled output.maxBytes history saved rows stream calls

theorem evictChunks_enabled (state : JobOutputState) (chunks : List OutputChunk) :
    (evictChunks maxBytes state chunks).1.enabled = state.enabled := by
  induction chunks generalizing state with
  | nil => rfl
  | cons chunk chunks ih =>
    unfold evictChunks
    split
    · rw [ih]
    · rfl

theorem RetainedOutput.Holds.append_open {history : List OutputChunk}
    (h : output.Holds history) (bytes : Str) (henabled : output.enabled = true) (hbytes : bytes ≠ []) :
    (output.append bytes).1.state.enabled = output.state.enabled ∧
    (output.append bytes).2 =
      lastRetained output.maxBytes (history ++ [⟨history.length + 1, bytes⟩]) := by
  have hholds := (h.append bytes henabled hbytes).1
  have hmax := (h.append bytes henabled hbytes).2.2
  have hchunks := hholds.chunks
  rw [hmax] at hchunks
  unfold lastRetained
  rw [← hchunks]
  have hopen : ¬ (output.enabled = false ∨ bytes = []) := by simp [henabled, hbytes]
  unfold RetainedOutput.append
  rw [if_neg hopen]
  refine ⟨evictChunks_enabled _ _ _, ?_⟩
  rw [h.latest, List.length_append]
  rfl

variable {rows : OutputRows} {stream : JobOutputStream}

theorem RetainedOutput.Follows.append {calls : List JobCall} (h : output.Follows rows stream calls)
    (bytes : Str) : (output.append bytes).1.Follows rows stream
      (if (output.append bytes).2.isSome ∨ (output.append bytes).1.state.latestSeq > 0 then
        calls ++ [.persistOutputState stream (output.append bytes).1.state (output.append bytes).2]
      else calls) ∧ (output.append bytes).1.enabled = output.enabled := by
  obtain ⟨history, saved, hholds, henabled, hstate, hsynced⟩ := h
  by_cases hskip : output.enabled = false ∨ bytes = []
  · have hsame : output.append bytes = (output, none) := by
      unfold RetainedOutput.append
      rw [if_pos hskip]
    rw [hsame]
    refine ⟨⟨history, saved, hholds, henabled, hstate, ?_⟩, rfl⟩
    split
    · rename_i hpos
      have hpos := hpos.resolve_left Bool.false_ne_true
      rw [hholds.latest] at hpos
      rw [hholds.state_eq, hstate]
      exact hsynced.again hpos
    · exact hsynced
  · have hopen := not_or.mp hskip
    have hon : output.enabled = true := by simpa using hopen.1
    obtain ⟨hnext, henabled', hmax⟩ := hholds.append bytes hon hopen.2
    obtain ⟨hstate', hlast⟩ := hholds.append_open bytes hon hopen.2
    have hlatest := hnext.latest
    rw [List.length_append] at hlatest
    rw [if_pos (.inr (hlatest ▸ Nat.succ_pos _))]
    refine ⟨⟨_, saved, hnext, fun _ => henabled', ?_, ?_⟩, henabled'.trans hon.symm⟩
    · rw [hstate', hstate, henabled', hon]
    · rw [hnext.state_eq, hstate', hstate, henabled', hmax, hlast, hon]
      rw [hon] at hsynced
      exact hsynced.append hholds.numbered _ rfl

theorem RetainedOutput.Follows.of_calls
    {calls rest : List JobCall} (h : output.Follows rows stream calls)
    (hrest : ∀ call, call.stream = some stream → (call ∈ rest ↔ call ∈ calls)) :
    output.Follows rows stream rest := by
  obtain ⟨history, saved, hholds, henabled, hstate, hsynced⟩ := h
  exact ⟨history, saved, hholds, henabled, hstate, hsynced.of_calls hrest⟩

def JobCall.deletes : JobCall → Bool
  | .awaitTask => true
  | .deleteRow _ => true
  | .removeRecord _ => true
  | _ => false

def Manager.newest (manager : Manager) : JobCall → Bool
  | .persistOutputState stream state _ =>
    (manager.rows.outputs.get stream).state.all fun stored => stored.latestSeq ≤ state.latestSeq
  | _ => true

def Manager.inOrder (manager : Manager) : ManagerStep → Bool
  | .deleteJob _ => false
  | .resume index ok => ok && (manager.calls[index]?).all manager.newest
  | _ => true

def Manager.stepInOrder (manager : Manager) (step : ManagerStep) : Option Manager :=
  if manager.inOrder step then manager.step step else none

structure Manager.Persisting (manager : Manager) (enabled : Streams Bool) (record : JobRecord)
    (job : JobInfo) : Prop where
  memory : manager.record = some record
  row : manager.rows.job = some job
  log : ∀ stream, (job.log.get stream).enabled = enabled.get stream
  saved : ∀ info, .persistJob info ∈ manager.calls →
    ∀ stream, (info.log.get stream).enabled = enabled.get stream
  calls : ∀ call ∈ manager.calls, call.deletes = false
  outputs : ∀ stream, (record.outputs.get stream).enabled = enabled.get stream
  follows : ∀ stream, (record.outputs.get stream).Follows (manager.rows.outputs.get stream) stream
    manager.calls

theorem new_follows (enabled : Bool) (maxBytes : Option ℕ) (stream : JobOutputStream) :
    (RetainedOutput.new enabled maxBytes).Follows noOutput stream [] := by
  refine ⟨[], 0, RetainedOutput.new_holds enabled maxBytes, nofun, rfl, ?_⟩
  constructor
  · exact Nat.le_refl 0
  · rfl
  · exact List.Pairwise.nil
  · exact nofun
  · exact nofun
  · intro k hlt hle
    exact absurd (hlt.trans_le hle) (Nat.lt_irrefl 0)
  · exact nofun
  · exact nofun

theorem Manager.created_persisting (enabled : Streams Bool) (maxBytes : Streams (Option ℕ)) :
    ∃ record job, (Manager.created enabled maxBytes).Persisting enabled record job := by
  refine ⟨_, _, rfl, rfl, ?_, fun _ hmem => absurd hmem List.not_mem_nil,
    fun _ hmem => absurd hmem List.not_mem_nil, ?_, ?_⟩
  · intro stream
    cases stream <;> rfl
  · intro stream
    cases stream <;> rfl
  · intro stream
    cases stream with
    | stdout => exact new_follows enabled.stdout maxBytes.stdout .stdout
    | stderr => exact new_follows enabled.stderr maxBytes.stderr .stderr

section
variable {manager next : Manager} {enabled : Streams Bool} {record : JobRecord} {job : JobInfo}

theorem mem_append_of_stream (calls : List JobCall) (added call : JobCall)
    (hne : added.stream ≠ call.stream) : call ∈ calls ++ [added] ↔ call ∈ calls := by
  rw [List.mem_append, List.mem_singleton]
  constructor
  · intro hmem
    exact hmem.resolve_right fun heq => hne (congrArg JobCall.stream heq).symm
  · exact .inl

section
variable (h : manager.Persisting enabled record job)
include h

theorem Manager.Persisting.appendOutput (stream : JobOutputStream) (bytes : Str) :
    ∃ record, (manager.appendOutput stream bytes).Persisting enabled record job := by
  obtain ⟨hfollows, henabled⟩ := (h.follows stream).append bytes
  have houtputs : ∀ other, ((record.outputs.set stream
      ((record.outputs.get stream).append bytes).1).get other).enabled = enabled.get other := by
    intro other
    by_cases heq : other = stream
    · rw [heq, Streams.get_set_self, henabled]
      exact h.outputs stream
    · rw [Streams.get_set_of_ne _ _ _ _ heq]
      exact h.outputs other
  unfold Manager.appendOutput
  rw [h.memory]
  dsimp only
  split
  · rename_i hcond
    rw [if_pos hcond] at hfollows
    refine ⟨_, rfl, h.row, h.log, ?_, ?_, houtputs, ?_⟩
    · intro info hmem
      rcases List.mem_append.mp hmem with hmem | hmem
      · exact h.saved info hmem
      · cases List.mem_singleton.mp hmem
    · intro call hmem
      rcases List.mem_append.mp hmem with hmem | hmem
      · exact h.calls call hmem
      · rw [List.mem_singleton.mp hmem]
        rfl
    · intro other
      by_cases heq : other = stream
      · rw [heq, Streams.get_set_self]
        exact hfollows
      · rw [Streams.get_set_of_ne _ _ _ _ heq]
        apply (h.follows other).of_calls
        intro call hcall
        apply mem_append_of_stream
        rw [hcall]
        exact fun hsome => heq (Option.some.inj hsome).symm
  · rename_i hcond
    rw [if_neg hcond] at hfollows
    refine ⟨_, rfl, h.row, h.log, h.saved, h.calls, houtputs, ?_⟩
    intro other
    by_cases heq : other = stream
    · rw [heq, Streams.get_set_self]
      exact hfollows
    · rw [Streams.get_set_of_ne _ _ _ _ heq]
      exact h.follows other

theorem Manager.Persisting.finishJob (exit : CommandExit) :
    ∃ record, (manager.finishJob exit).Persisting enabled record job := by
  unfold Manager.finishJob
  rw [h.memory]
  refine ⟨_, rfl, h.row, h.log, ?_, ?_, h.outputs, ?_⟩
  · intro info hmem
    rcases List.mem_append.mp hmem with hmem | hmem
    · exact h.saved info hmem
    · cases List.mem_singleton.mp hmem
      intro stream
      obtain ⟨_, _, _, _, hstate, _⟩ := h.follows stream
      rw [Streams.get_map, hstate]
      exact h.outputs stream
  · intro call hmem
    rcases List.mem_append.mp hmem with hmem | hmem
    · exact h.calls call hmem
    · rw [List.mem_singleton.mp hmem]
      rfl
  · intro stream
    apply (h.follows stream).of_calls
    intro call hcall
    rw [List.mem_append, List.mem_singleton]
    constructor
    · intro hmem
      rcases hmem with hmem | hmem
      · exact hmem
      · rw [hmem] at hcall
        cases hcall
    · exact .inl

theorem Manager.Persisting.resume (index : ℕ) (ok : Bool)
    (horder : manager.inOrder (.resume index ok) = true)
    (hstep : manager.step (.resume index ok) = some next) :
    ∃ job, next.Persisting enabled record job := by
  obtain ⟨call, hcall, hstep⟩ := Option.bind_eq_some_iff.mp hstep
  dsimp only [Manager.inOrder] at horder
  rw [hcall, Bool.and_eq_true] at horder
  obtain ⟨rfl, horder⟩ := horder
  have hmem := Calls.mem_or_mem_eraseIdx hcall
  have hsub : ∀ other ∈ manager.calls.eraseIdx index, other ∈ manager.calls :=
    fun other => List.mem_of_mem_eraseIdx
  have hcalled := Calls.mem hcall
  -- the calls of another output stay
  have hother : ∀ stream, call.stream ≠ some stream → ∀ other, other.stream = some stream →
      (other ∈ manager.calls.eraseIdx index ↔ other ∈ manager.calls) := by
    intro stream hne other hstream
    refine ⟨hsub other, fun hin => (hmem other hin).resolve_left fun heq => hne ?_⟩
    rw [← heq, hstream]
  cases call with
  | persistOutputState stream state last =>
    cases hstep
    have hnew : ∀ other, other ∈ (last.map (JobCall.persistOutputChunk stream)).toList →
        ∃ chunk, other = .persistOutputChunk stream chunk := by
      intro other hin
      obtain ⟨chunk, _, heq⟩ := Option.mem_map.mp (Option.mem_toList.mp hin)
      exact ⟨chunk, heq.symm⟩
    have hrows : manager.rows.saveJobOutputState stream state = { manager.rows with
        outputs := manager.rows.outputs.set stream
          ((manager.rows.outputs.get stream).saveState state) } := by
      simp only [JobRows.saveJobOutputState, h.row]
    refine ⟨job, h.memory, ?_, h.log, ?_, ?_, h.outputs, ?_⟩
    · show (if true = true then manager.rows.saveJobOutputState stream state else manager.rows).job =
        some job
      rw [if_pos rfl, hrows]
      exact h.row
    · intro info hin
      rcases List.mem_append.mp hin with hin | hin
      · exact h.saved info (hsub _ hin)
      · obtain ⟨_, heq⟩ := hnew _ hin
        cases heq
    · intro other hin
      rcases List.mem_append.mp hin with hin | hin
      · exact h.calls other (hsub _ hin)
      · obtain ⟨_, heq⟩ := hnew _ hin
        rw [heq]
        rfl
    · intro other
      rw [if_pos rfl, hrows]
      by_cases heq : other = stream
      · obtain ⟨history, saved, hholds, henabled, hstate, hsynced⟩ := h.follows stream
        have hle : saved ≤ state.latestSeq := by
          have hsaved := hsynced.state
          by_cases hzero : saved = 0
          · omega
          · rw [if_neg hzero] at hsaved
            have hlatest : (manager.rows.outputs.get stream).state.all
                (fun stored => stored.latestSeq ≤ state.latestSeq) = true := horder
            rw [hsaved, Option.all_some, describedState_latest saved hsynced.saved_le] at hlatest
            exact of_decide_eq_true hlatest
        rw [heq, Streams.get_set_self]
        exact ⟨history, _, hholds, henabled, hstate,
          hsynced.saveState hholds.numbered state last hcalled hmem hsub hle⟩
      · rw [Streams.get_set_of_ne _ _ _ _ heq]
        have hne : some stream ≠ some other := fun hsome => heq (Option.some.inj hsome).symm
        apply (h.follows other).of_calls
        intro call hstream
        rw [List.mem_append, hother other hne call hstream]
        constructor
        · intro hin
          rcases hin with hin | hin
          · exact hin
          · obtain ⟨_, hchunk⟩ := hnew _ hin
            rw [hchunk] at hstream
            exact absurd hstream hne
        · exact .inl
  | persistOutputChunk stream chunk =>
    cases hstep
    refine ⟨job, h.memory, h.row, h.log, fun info hin => h.saved info (hsub _ hin),
      fun other hin => h.calls other (hsub _ hin), h.outputs, ?_⟩
    intro other
    dsimp only [JobRows.appendJobOutputChunk]
    rw [if_pos rfl]
    by_cases heq : other = stream
    · obtain ⟨history, saved, hholds, henabled, hstate, hsynced⟩ := h.follows stream
      have hon : (record.outputs.get stream).enabled = true := by
        apply henabled
        have hchunk := (hsynced.chunks chunk hcalled).1
        intro hnil
        rw [hnil] at hchunk
        cases hchunk
      rw [heq, Streams.get_set_self]
      exact ⟨history, saved, hholds, henabled, hstate,
        hsynced.appendChunk hholds.numbered hon chunk hcalled hmem hsub⟩
    · rw [Streams.get_set_of_ne _ _ _ _ heq]
      have hne : some stream ≠ some other := fun hsome => heq (Option.some.inj hsome).symm
      exact (h.follows other).of_calls (hother other hne)
  | persistJob info =>
    cases hstep
    refine ⟨info, h.memory, rfl, h.saved info hcalled, fun info hin => h.saved info (hsub _ hin),
      fun other hin => h.calls other (hsub _ hin), h.outputs, ?_⟩
    exact fun stream => (h.follows stream).of_calls (hother stream (nomatch ·))
  | awaitTask | deleteRow killed | removeRecord killed => exact nomatch h.calls _ hcalled

theorem Manager.Persisting.step (step : ManagerStep)
    (hstep : manager.stepInOrder step = some next) :
    ∃ record job, next.Persisting enabled record job := by
  unfold Manager.stepInOrder at hstep
  split at hstep
  · rename_i horder
    cases step with
    | appendOutput stream bytes =>
      cases hstep
      obtain ⟨record, h⟩ := h.appendOutput stream bytes
      exact ⟨record, job, h⟩
    | finishJob exit =>
      dsimp only [Manager.step] at hstep
      split at hstep
      · cases hstep
      · cases hstep
        obtain ⟨record, h⟩ := h.finishJob exit
        exact ⟨record, job, h⟩
    | deleteJob killRunning => cases horder
    | resume index ok => exact ⟨record, h.resume index ok horder hstep⟩
  · cases hstep

end

end

def RetainedOutput.reloaded (output : RetainedOutput) : RetainedOutput :=
  { output with maxBytes := DEFAULT_JOB_OUTPUT_LIMIT }

/-- The stored state of both outputs is the one in memory, or none is stored and nothing came; the
stored chunks are those retained; and a restart reloads both. -/
def Manager.Persisted (manager : Manager) : Prop :=
  ∃ record, manager.record = some record ∧ ∀ stream,
    ((manager.rows.outputs.get stream).state = some (record.outputs.get stream).state ∨
      (manager.rows.outputs.get stream).state = none ∧
        (record.outputs.get stream).state.latestSeq = 0) ∧
    (manager.rows.outputs.get stream).chunks = (record.outputs.get stream).chunks ∧
    ∀ now, ((manager.rows.open now).map (·.outputs.get stream)) =
      some (record.outputs.get stream).reloaded

theorem RetainedOutput.Follows.settled (h : output.Follows rows stream []) :
    (rows.state = some output.state ∨ rows.state = none ∧ output.state.latestSeq = 0) ∧
      rows.chunks = output.chunks ∧
      RetainedOutput.fromPersisted output.enabled rows = output.reloaded := by
  obtain ⟨history, saved, hholds, henabled, hstate, hsynced⟩ := h
  obtain ⟨hrow, hchunks⟩ := hsynced.settled hholds.numbered nofun
  rw [← hholds.chunks] at hchunks
  have heq := hholds.state_eq
  rw [hstate] at heq
  unfold fromPersisted reloaded
  by_cases hnone : history = []
  · rw [if_pos hnone] at hrow
    have hretained := hholds.chunks
    rw [hnone] at heq hretained
    refine ⟨.inr ⟨hrow, ?_⟩, hchunks, ?_⟩
    · rw [heq]
      rfl
    · rw [hrow, heq, show output.chunks = [] from hretained]
      rfl
  · rw [if_neg hnone] at hrow
    refine ⟨.inl (hrow.trans (congrArg some heq.symm)), hchunks, ?_⟩
    rw [hrow, ← heq, hchunks]
    simp only [hstate]

/-- While no state is written over a newer one, the rows are the memory whenever no call is left. -/
theorem stored_is_memory (enabled : Streams Bool) (maxBytes : Streams (Option ℕ))
    (steps : List ManagerStep) (manager : Manager)
    (hrun : steps.foldlM Manager.stepInOrder (Manager.created enabled maxBytes) = some manager)
    (hquiet : manager.calls = []) : manager.Persisted := by
  obtain ⟨record, job, h⟩ := System.run_invariant Manager.stepInOrder
    (fun manager => ∃ record job, manager.Persisting enabled record job)
    (fun _ step _ h hstep => h.elim fun _ h => h.elim fun _ h => h.step step hstep) steps
    (Manager.created_persisting enabled maxBytes) hrun
  refine ⟨record, h.memory, fun stream => ?_⟩
  have hfollows := h.follows stream
  rw [hquiet] at hfollows
  obtain ⟨hstate, hchunks, hreloaded⟩ := hfollows.settled
  refine ⟨hstate, hchunks, fun now => ?_⟩
  unfold JobRows.open
  rw [h.row, ← hreloaded, h.outputs stream, ← h.log stream]
  cases stream <;> rfl

/-- Three calls overlap, and the chunks of two of them are stored in the other order. -/
def steadyWrites : List ManagerStep :=
  [.appendOutput .stderr [1, 2], .appendOutput .stderr [3, 4], .resume 0 true,
    .appendOutput .stdout [5], .resume 2 true, .resume 0 true, .resume 2 true, .resume 1 true,
    .resume 0 true]

theorem steadyWrites_stored : ∃ manager,
    steadyWrites.foldlM Manager.stepInOrder
      (Manager.created ⟨true, true⟩ ⟨none, some 3⟩) = some manager ∧
    manager.Persisted :=
  ⟨_, rfl, stored_is_memory ⟨true, true⟩ ⟨none, some 3⟩ steadyWrites _ rfl rfl⟩

def crossedWrites : List ManagerStep :=
  [.appendOutput .stderr [1], .appendOutput .stderr [2], .resume 1 true, .resume 0 true,
    .resume 0 true, .resume 0 true]

theorem crossedWrites_lost : ∃ manager,
    crossedWrites.foldlM Manager.step (Manager.created ⟨true, true⟩ ⟨none, none⟩) = some manager ∧
    manager.calls = [] ∧
    (manager.record.map fun record => record.outputs.stderr.chunks) = some [⟨1, [1]⟩, ⟨2, [2]⟩] ∧
    manager.rows.outputs.stderr.chunks = [⟨1, [1]⟩] ∧ ¬ manager.Persisted := by
  refine ⟨_, rfl, rfl, rfl, rfl, ?_⟩
  intro hpersisted
  obtain ⟨record, hrecord, hstreams⟩ := hpersisted
  cases hrecord
  have hchunks := (hstreams .stderr).2.1
  exact absurd hchunks (by decide)

end Rieul.Command
