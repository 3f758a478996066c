import Mathlib.Data.List.Nodup
import Rieul.Agent.Live

/-!
# Turns in a row

Which turns of a row are unfinished, and what the transactions do to the turns: all
but the last one stay as they are, and the number of a turn that is completed is
above those of the turns before.
-/

namespace Rieul.Agent

def StoredSession.unfinished (row : StoredSession) : List ℕ :=
  (row.turns.filter (·.active)).map (·.turn.turnId)

def StoredSession.messageIds (row : StoredSession) : List ℕ :=
  row.turns.flatMap fun turn => turn.messages.map (·.messageId)

section
variable (row : StoredSession)
include row

namespace StoredSession

theorem mem_messageIds (messageId : ℕ) :
    messageId ∈ row.messageIds ↔ row.messages.any (·.messageId = messageId) = true := by
  simp [messageIds, messages]

theorem modifyMessage_unfinished (messageId : ℕ)
    (f : AgentMessage → AgentMessage) : (row.modifyMessage messageId f).unfinished = row.unfinished := by
  unfold unfinished modifyMessage
  rw [List.filter_map, List.map_map]
  rfl

theorem modifyMessage_messageIds (messageId : ℕ)
    (f : AgentMessage → AgentMessage) (hf : ∀ message, (f message).messageId = message.messageId) :
    (row.modifyMessage messageId f).messageIds = row.messageIds := by
  unfold messageIds modifyMessage
  rw [List.flatMap_map]
  apply List.flatMap_congr
  intro turn _
  rw [List.map_map]
  apply List.map_congr_left
  intro message _
  show (if message.messageId = messageId then f message else message).messageId = message.messageId
  split
  · exact hf message
  · rfl

theorem modifyTurn_unfinished (turnId : ℕ)
    (f : StoredTurn → StoredTurn) (hf : ∀ turn, (f turn).active = false) :
    (row.modifyTurn turnId f).unfinished = row.unfinished.filter (· ≠ turnId) := by
  unfold unfinished modifyTurn
  induction row.turns with
  | nil => rfl
  | cons turn turns ih =>
    rw [List.map_cons]
    by_cases hid : turn.turn.turnId = turnId
    · rw [if_pos hid, List.filter_cons_of_neg (by rw [hf]; exact nofun), ih]
      by_cases hactive : turn.active = true
      · rw [List.filter_cons_of_pos hactive, List.map_cons, List.filter_cons_of_neg (by simpa using hid)]
      · rw [List.filter_cons_of_neg hactive]
    · rw [if_neg hid]
      by_cases hactive : turn.active = true
      · rw [List.filter_cons_of_pos hactive, List.filter_cons_of_pos hactive, List.map_cons,
          List.map_cons, List.filter_cons_of_pos (by simpa using hid), ih]
      · rw [List.filter_cons_of_neg hactive, List.filter_cons_of_neg hactive, ih]

theorem modifyTurn_messageIds (turnId : ℕ)
    (f : StoredTurn → StoredTurn) (hf : ∀ turn, (f turn).messages = turn.messages) :
    (row.modifyTurn turnId f).messageIds = row.messageIds := by
  unfold messageIds modifyTurn
  rw [List.flatMap_map]
  apply List.flatMap_congr
  intro turn _
  split
  · rw [hf]
  · rfl

end StoredSession

theorem finishAgentTurn_turns (turnId assistantMessageId : ℕ)
    (state : AgentTurnState) (hstate : state ≠ .running) :
    (finishAgentTurn row turnId assistantMessageId state).1.unfinished =
      row.unfinished.filter (· ≠ turnId) ∧
    (finishAgentTurn row turnId assistantMessageId state).1.messageIds = row.messageIds := by
  unfold finishAgentTurn
  dsimp only
  constructor
  · rw [StoredSession.modifyTurn_unfinished, StoredSession.modifyMessage_unfinished]
    · rfl
    · exact fun turn => decide_eq_false hstate
  · rw [StoredSession.modifyTurn_messageIds, StoredSession.modifyMessage_messageIds]
    · rfl
    · exact fun _ => rfl
    · exact fun _ => rfl

end

theorem createAgentTextTurn_turns (row stored : StoredSession) (new : NewTurn)
    (created : CreatedAgentTurn) (h : createAgentTextTurn row new = some (stored, created)) :
    row.unfinished = [] ∧ stored.unfinished = [new.turnId] ∧
      stored.messageIds = row.messageIds ++ [new.userMessageId, new.assistantMessageId] := by
  obtain ⟨hfits, h⟩ := Option.ite_none_right_eq_some.mp h
  cases h
  have hnone : row.turns.filter (·.active) = [] := by
    rw [List.filter_eq_nil_iff]
    intro turn hmem
    rw [(hfits.1 turn hmem).2.2]
    exact nofun
  unfold StoredSession.unfinished StoredSession.messageIds advanceAgentSessionSeq
  dsimp only
  rw [List.filter_append, hnone, List.flatMap_append]
  exact ⟨rfl, rfl, rfl⟩

def StoredTurn.modifyMessage (turn : StoredTurn) (messageId : ℕ)
    (f : AgentMessage → AgentMessage) : StoredTurn :=
  { turn with messages := turn.messages.map fun message =>
      if message.messageId = messageId then f message else message }

/-- The turns after a transaction that ended with number `seq`. -/
def LiveChange.turns (seq : ℕ) (turns : List StoredTurn) : LiveChange → List StoredTurn
  | create new => turns ++ [new.stored]
  | chunk _ messageId text => turns.map fun turn => turn.modifyMessage messageId fun message =>
      { message with content := message.content ++ [text] }
  | finish turnId messageId outcome => turns.map fun turn =>
      let turn := turn.modifyMessage messageId fun message => { message with state := .complete }
      if turn.turn.turnId = turnId then
        { turn with turn := ⟨turnId, outcome.state⟩, completedSeq := some seq }
      else turn
  | _ => turns

theorem LiveChange.commit_turns (row stored : StoredSession) (change : LiveChange)
    (h : change.commit row = some stored) :
    stored.turns = change.turns stored.latestSeq row.turns := by
  cases change with
  | create new =>
    obtain ⟨-, rfl⟩ := LiveChange.commit_create h
    rfl
  | chunk turnId messageId text =>
    rw [LiveChange.commit_chunk h]
    rfl
  | finish turnId messageId outcome =>
    cases h
    exact List.map_map
  | update title archived | config options | usage used | exit message =>
    cases h
    rfl

theorem LiveChange.turns_of_not_keepsLock (change : LiveChange) (seq : ℕ) (turns : List StoredTurn)
    (h : change.keepsLock = false) : change.turns seq turns = turns := by
  cases change with
  | update title archived => rfl
  | create new | config options | chunk turnId messageId text | usage used
  | finish turnId messageId outcome | exit message => cases h

def messageIdsOf (turns : List StoredTurn) : List ℕ :=
  turns.flatMap fun turn => turn.messages.map (·.messageId)

structure Distinct (turns : List StoredTurn) : Prop where
  turnIds : (turns.map (·.turn.turnId)).Nodup
  messageIds : (messageIdsOf turns).Nodup

theorem StoredTurn.modifyMessage_ids (turn : StoredTurn) (messageId : ℕ)
    (f : AgentMessage → AgentMessage) (hf : ∀ message, (f message).messageId = message.messageId) :
    (turn.modifyMessage messageId f).messages.map (·.messageId) =
      turn.messages.map (·.messageId) := by
  unfold StoredTurn.modifyMessage
  rw [List.map_map]
  apply List.map_congr_left
  intro message _
  show (if message.messageId = messageId then f message else message).messageId = message.messageId
  split
  · exact hf message
  · rfl

theorem map_ids (turns : List StoredTurn) (f : StoredTurn → StoredTurn)
    (hturn : ∀ turn, (f turn).turn.turnId = turn.turn.turnId)
    (hmessages : ∀ turn, (f turn).messages.map (·.messageId) = turn.messages.map (·.messageId)) :
    (turns.map f).map (·.turn.turnId) = turns.map (·.turn.turnId) ∧
      messageIdsOf (turns.map f) = messageIdsOf turns := by
  refine ⟨?_, ?_⟩
  · rw [List.map_map]
    exact List.map_congr_left fun turn _ => hturn turn
  · unfold messageIdsOf
    rw [List.flatMap_map]
    exact List.flatMap_congr fun turn _ => hmessages turn

theorem LiveChange.turns_ids (change : LiveChange) (seq : ℕ) (turns : List StoredTurn) :
    ∃ turnIds messageIds,
      (change.turns seq turns).map (·.turn.turnId) = turns.map (·.turn.turnId) ++ turnIds ∧
      messageIdsOf (change.turns seq turns) = messageIdsOf turns ++ messageIds ∧
      ((∀ new, change ≠ .create new) → turnIds = [] ∧ messageIds = []) := by
  have hsame : ∀ next, next.map (·.turn.turnId) = turns.map (·.turn.turnId) ∧
      messageIdsOf next = messageIdsOf turns → ∃ turnIds messageIds,
        next.map (·.turn.turnId) = turns.map (·.turn.turnId) ++ turnIds ∧
        messageIdsOf next = messageIdsOf turns ++ messageIds ∧
        ((∀ new, change ≠ .create new) → turnIds = [] ∧ messageIds = []) := by
    intro next hnext
    refine ⟨[], [], ?_, ?_, fun _ => ⟨rfl, rfl⟩⟩
    · rw [hnext.1, List.append_nil]
    · rw [hnext.2, List.append_nil]
  cases change with
  | create new =>
    refine ⟨[new.turnId], [new.userMessageId, new.assistantMessageId], ?_, ?_, ?_⟩
    · exact List.map_append
    · exact List.flatMap_append
    · exact fun hne => absurd rfl (hne new)
  | chunk turnId messageId text =>
    apply hsame
    refine map_ids turns _ (fun _ => rfl) fun turn => ?_
    exact turn.modifyMessage_ids messageId _ fun _ => rfl
  | finish turnId messageId outcome =>
    apply hsame
    refine map_ids turns _ (fun turn => ?_) fun turn => ?_
    · dsimp only
      split
      · rename_i hid
        exact hid.symm
      · rfl
    · have hids := turn.modifyMessage_ids messageId
        (fun message => { message with state := .complete }) fun _ => rfl
      dsimp only
      split
      · exact hids
      · exact hids
  | update title archived | config options | usage used | exit message =>
    exact hsame turns ⟨rfl, rfl⟩

theorem LiveChange.distinct_before (change : LiveChange) (seq : ℕ) (turns : List StoredTurn)
    (h : Distinct (change.turns seq turns)) : Distinct turns := by
  obtain ⟨turnIds, messageIds, hturn, hmessage, -⟩ := change.turns_ids seq turns
  obtain ⟨hturnIds, hmessageIds⟩ := h
  rw [hturn] at hturnIds
  rw [hmessage] at hmessageIds
  exact ⟨(List.nodup_append.mp hturnIds).1, (List.nodup_append.mp hmessageIds).1⟩

theorem LiveChange.commit_distinct (change : LiveChange) (row stored : StoredSession)
    (h : Distinct row.turns) (hcommit : change.commit row = some stored) :
    Distinct stored.turns := by
  have hturns := LiveChange.commit_turns row stored change hcommit
  obtain ⟨turnIds, messageIds, hturn, hmessage, hnone⟩ := change.turns_ids stored.latestSeq row.turns
  rw [← hturns] at hturn hmessage
  by_cases hcreate : ∃ new, change = .create new
  · obtain ⟨new, hcreate⟩ := hcreate
    rw [hcreate] at hcommit
    obtain ⟨⟨hturnFits, hmessageFits, hne⟩, rfl⟩ := LiveChange.commit_create hcommit
    refine ⟨?_, ?_⟩
    · show ((row.turns ++ [new.stored]).map (·.turn.turnId)).Nodup
      rw [List.map_append, List.nodup_append]
      refine ⟨h.turnIds, List.nodup_singleton _, ?_⟩
      intro id hid other hother heq
      obtain ⟨turn, hmem, hturnId⟩ := List.mem_map.mp hid
      refine (hturnFits turn hmem).2.1 ?_
      rw [hturnId, heq]
      exact List.mem_singleton.mp hother
    · show (messageIdsOf (row.turns ++ [new.stored])).Nodup
      have hfresh : ∀ id ∈ messageIdsOf row.turns,
          id ≠ new.userMessageId ∧ id ≠ new.assistantMessageId := by
        intro id hid
        obtain ⟨turn, hmem, hid⟩ := List.mem_flatMap.mp hid
        obtain ⟨message, hmessage, heq⟩ := List.mem_map.mp hid
        rw [← heq]
        exact hmessageFits message (List.mem_flatMap.mpr ⟨turn, hmem, hmessage⟩)
      unfold messageIdsOf
      rw [List.flatMap_append, List.nodup_append]
      refine ⟨h.messageIds, ?_, ?_⟩
      · simpa [NewTurn.stored, NewTurn.userMessage, NewTurn.assistantMessage] using hne
      · intro id hid other hother
        have hids := hfresh id hid
        have hother : other = new.userMessageId ∨ other = new.assistantMessageId := by
          simpa [NewTurn.stored, NewTurn.userMessage, NewTurn.assistantMessage] using hother
        rcases hother with heq | heq
        · rw [heq]
          exact hids.1
        · rw [heq]
          exact hids.2
  · obtain ⟨hturnIds, hmessageIds⟩ := hnone fun new heq => hcreate ⟨new, heq⟩
    rw [hturnIds, List.append_nil] at hturn
    rw [hmessageIds, List.append_nil] at hmessage
    refine ⟨?_, ?_⟩
    · rw [hturn]
      exact h.turnIds
    · rw [hmessage]
      exact h.messageIds

def completedSeqs (turns : List StoredTurn) : List ℕ := turns.filterMap (·.completedSeq)

def StoredTurn.Marked (turn : StoredTurn) : Prop := turn.active = turn.completedSeq.isNone

structure StoredSession.Recorded (row : StoredSession) : Prop where
  distinct : Distinct row.turns
  completed : (completedSeqs row.turns).Pairwise (· < ·)
  latest : ∀ seq ∈ completedSeqs row.turns, seq ≤ row.latestSeq
  marked : ∀ turn ∈ row.turns, turn.Marked

theorem StoredSession.Recorded.of_turns {row next : StoredSession} (h : row.Recorded)
    (hturns : next.turns = row.turns) (hseq : row.latestSeq ≤ next.latestSeq) : next.Recorded := by
  refine ⟨?_, ?_, ?_, ?_⟩
  · rw [hturns]
    exact h.distinct
  · rw [hturns]
    exact h.completed
  · rw [hturns]
    exact fun seq hmem => Nat.le_trans (h.latest seq hmem) hseq
  · rw [hturns]
    exact h.marked

theorem LiveChange.turns_marked (change : LiveChange) (seq : ℕ) (turns : List StoredTurn)
    (h : ∀ turn ∈ turns, turn.Marked) : ∀ turn ∈ change.turns seq turns, turn.Marked := by
  cases change with
  | create new =>
    intro turn hmem
    rcases List.mem_append.mp hmem with hmem | hmem
    · exact h turn hmem
    · rw [List.mem_singleton.mp hmem]
      rfl
  | chunk turnId messageId text =>
    intro turn hmem
    obtain ⟨old, hold, heq⟩ := List.mem_map.mp hmem
    rw [← heq]
    exact h old hold
  | finish turnId messageId outcome =>
    intro turn hmem
    obtain ⟨old, hold, heq⟩ := List.mem_map.mp hmem
    rw [← heq]
    dsimp only
    split
    · cases outcome with
      | finished stopReason | failed failure => rfl
    · exact h old hold
  | update title archived | config options | usage used | exit message => exact h

/-- The turns that stand first stay, the others are not completed, and what they become has the
number `seq` at most. -/
def Advance (seq : ℕ) (turns next : List StoredTurn) : Prop :=
  ∃ done old new, turns = done ++ old ∧ next = done ++ new ∧
    completedSeqs old = [] ∧ (completedSeqs new = [] ∨ completedSeqs new = [seq])

theorem Advance.refl (seq : ℕ) (turns : List StoredTurn) : Advance seq turns turns :=
  ⟨turns, [], [], (List.append_nil turns).symm, (List.append_nil turns).symm, rfl, .inl rfl⟩

theorem Advance.completedSeqs {seq : ℕ} {turns next : List StoredTurn}
    (h : Advance seq turns next) : completedSeqs next = completedSeqs turns ∨
      completedSeqs next = completedSeqs turns ++ [seq] := by
  obtain ⟨done, old, new, hturns, hnext, hold, hnew⟩ := h
  unfold Agent.completedSeqs at hold hnew ⊢
  rw [hturns, hnext, List.filterMap_append, List.filterMap_append, hold, List.append_nil]
  rcases hnew with hnew | hnew
  · rw [hnew, List.append_nil]
    exact .inl rfl
  · rw [hnew]
    exact .inr rfl

theorem StoredSession.Recorded.commit {row stored : StoredSession} (h : row.Recorded)
    (change : LiveChange) (hcommit : change.commit row = some stored)
    (hadvance : Advance stored.latestSeq row.turns stored.turns)
    (hseq : row.latestSeq < stored.latestSeq) : stored.Recorded := by
  have hold : ∀ seq ∈ Agent.completedSeqs row.turns, seq < stored.latestSeq :=
    fun seq hmem => Nat.lt_of_le_of_lt (h.latest seq hmem) hseq
  refine ⟨change.commit_distinct row stored h.distinct hcommit, ?_, ?_, ?_⟩
  · rcases hadvance.completedSeqs with heq | heq
    · rw [heq]
      exact h.completed
    · rw [heq]
      refine List.pairwise_append.mpr ⟨h.completed, List.pairwise_singleton _ _, ?_⟩
      intro seq hmem last hlast
      rw [List.mem_singleton.mp hlast]
      exact hold seq hmem
  · intro seq hmem
    rcases hadvance.completedSeqs with heq | heq
    · rw [heq] at hmem
      exact Nat.le_of_lt (hold seq hmem)
    · rw [heq] at hmem
      rcases List.mem_append.mp hmem with hmem | hmem
      · exact Nat.le_of_lt (hold seq hmem)
      · exact Nat.le_of_eq (List.mem_singleton.mp hmem)
  · rw [LiveChange.commit_turns row stored change hcommit]
    exact change.turns_marked _ _ h.marked

end Rieul.Agent
