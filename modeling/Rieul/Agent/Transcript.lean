import Rieul.Agent.EventStream
import Rieul.Agent.History
import Rieul.Agent.Turns

/-!
# The transcript of a session

The turns completed up to the number of a snapshot and its active turn are the turns that were
created, as long as snapshots are written in the order of the transactions and no unfinished turn
is left to a new runtime or to none.
-/

namespace Rieul.Agent

theorem completedRecord_eq_none (turn : StoredTurn) (throughSeq : ℕ)
    (h : ∀ seq, turn.completedSeq = some seq → throughSeq < seq) :
    turn.completedRecord throughSeq = none := by
  unfold StoredTurn.completedRecord
  cases hseq : turn.completedSeq with
  | none => rfl
  | some seq =>
    have hlt := h seq hseq
    rw [Option.filter_some, if_neg (by simp; omega)]
    rfl

theorem completedThrough_eq_nil (turns : List StoredTurn) (throughSeq : ℕ)
    (h : ∀ seq ∈ completedSeqs turns, throughSeq < seq) :
    completedThrough throughSeq turns = [] := by
  unfold completedThrough
  rw [List.filterMap_eq_nil_iff]
  intro turn hmem
  refine completedRecord_eq_none turn throughSeq fun seq hseq => h seq ?_
  exact List.mem_filterMap.mpr ⟨turn, hmem, hseq⟩

theorem Advance.completedThrough {seq : ℕ} {turns next : List StoredTurn}
    (h : Advance seq turns next) (throughSeq : ℕ) (hlt : throughSeq < seq) :
    completedThrough throughSeq next = completedThrough throughSeq turns := by
  obtain ⟨done, old, new, hturns, hnext, hold, hnew⟩ := h
  have hlater : ∀ other ∈ Agent.completedSeqs new, throughSeq < other := by
    intro other hmem
    rcases hnew with hnew | hnew
    · rw [hnew] at hmem
      cases hmem
    · rw [hnew] at hmem
      rw [List.mem_singleton.mp hmem]
      exact hlt
  have hnone : ∀ other ∈ Agent.completedSeqs old, throughSeq < other := by
    rw [hold]
    exact fun _ hmem => nomatch hmem
  have hdone := completedThrough_eq_nil old throughSeq hnone
  have hrest := completedThrough_eq_nil new throughSeq hlater
  unfold Agent.completedThrough at hdone hrest ⊢
  rw [hturns, hnext, List.filterMap_append, List.filterMap_append, hdone, hrest]

theorem completedThrough_sorted (turns : List StoredTurn) (throughSeq : ℕ)
    (h : (completedSeqs turns).Pairwise (· < ·)) :
    (completedThrough throughSeq turns).Pairwise fun a b => a.key < b.key := by
  unfold completedSeqs at h
  unfold completedThrough
  rw [List.pairwise_filterMap] at h ⊢
  refine h.imp ?_
  intro a b hab x hx y hy
  obtain ⟨seq, hseq, hx⟩ := Option.map_eq_some_iff.mp hx
  obtain ⟨other, hother, hy⟩ := Option.map_eq_some_iff.mp hy
  have hlt := hab seq (Option.filter_eq_some_iff.mp hseq).1 other
    (Option.filter_eq_some_iff.mp hother).1
  rw [← hx, ← hy]
  exact Prod.Lex.toLex_lt_toLex.mpr (.inl hlt)

def StoredTurn.record (turn : StoredTurn) : AgentTurnRecord := ⟨turn.turn, turn.messages⟩

def said (turns : List StoredTurn) : List TranscriptTurn := turns.map (·.record.transcript)

def StoredAgentTurnRecord.transcript (record : StoredAgentTurnRecord) : TranscriptTurn :=
  (storedTurnRecord record).transcript

/-- The turns say the transcript, the snapshot has the one that is not completed as its active turn,
and the numbers of the others are not above its own. -/
structure Reflected (snapshot : AgentSessionLiveSnapshot) (transcript : List TranscriptTurn)
    (turns : List StoredTurn) : Prop where
  told : said turns = transcript
  parts : ∃ done current, turns = done ++ current ∧
    (∀ turn ∈ done, ∃ seq, turn.completedSeq = some seq ∧ seq ≤ snapshot.latestSeq) ∧
    (∀ turn ∈ current, turn.completedSeq = none) ∧
    current.map (·.record) = snapshot.activeTurn.toList

theorem Reflected.listed {snapshot : AgentSessionLiveSnapshot} {transcript : List TranscriptTurn}
    {turns : List StoredTurn} (h : Reflected snapshot transcript turns) :
    (completedThrough snapshot.latestSeq turns).map (·.transcript) ++
      snapshot.transcript = transcript := by
  obtain ⟨done, current, hturns, hdone, hcurrent, hactive⟩ := h.parts
  have hnone : completedThrough snapshot.latestSeq current = [] := by
    apply completedThrough_eq_nil
    intro seq hmem
    obtain ⟨turn, hturn, hseq⟩ := List.mem_filterMap.mp hmem
    rw [hcurrent turn hturn] at hseq
    cases hseq
  have hall : (completedThrough snapshot.latestSeq done).map (·.transcript) =
      said done := by
    unfold completedThrough said
    clear hturns
    induction done with
    | nil => rfl
    | cons turn done ih =>
      obtain ⟨seq, hseq, hle⟩ := hdone turn List.mem_cons_self
      have hrecord : turn.completedRecord snapshot.latestSeq = some ⟨turn.turn, seq, turn.messages⟩ := by
        unfold StoredTurn.completedRecord
        rw [hseq, Option.filter_some, if_pos (by simpa using hle)]
        rfl
      simp only [List.filterMap_cons, hrecord, List.map_cons]
      rw [ih fun other hmem => hdone other (List.mem_cons_of_mem _ hmem)]
      rfl
  have hlive : snapshot.transcript = said current := by
    unfold AgentSessionLiveSnapshot.transcript said
    rw [← hactive, List.map_map]
    rfl
  have hsaid := h.told
  rw [hturns] at hsaid
  unfold said at hsaid hall hlive
  rw [List.map_append] at hsaid
  rw [hturns, hlive, ← hsaid, ← hall]
  unfold completedThrough at hnone ⊢
  rw [List.filterMap_append, hnone, List.append_nil]

structure ActiveTurn (snapshot : AgentSessionLiveSnapshot) (turnId : ℕ) (message : AgentMessage)
    (turns done : List StoredTurn) (turn : StoredTurn) (user : AgentMessage) : Prop where
  turns : turns = done ++ [turn]
  done : ∀ turn ∈ done, ∃ seq, turn.completedSeq = some seq ∧ seq ≤ snapshot.latestSeq
  running : turn.completedSeq = none
  active : snapshot.activeTurn = some ⟨turn.turn, [user, message]⟩
  messages : turn.messages = [user, message]
  turnId : turn.turn.turnId = turnId
  ne : user.messageId ≠ message.messageId
  user : user.role = .user
  assistant : message.role = .assistant

section
variable {snapshot : AgentSessionLiveSnapshot} {transcript : List TranscriptTurn}
variable {turns done : List StoredTurn} {turn : StoredTurn} {user message : AgentMessage}
variable {turnId : ℕ}

theorem Reflected.active (h : Reflected snapshot transcript turns) (hshape : snapshot.Shaped)
    (hmessage : activeAssistantMessage snapshot turnId = some message) :
    ∃ done turn user, ActiveTurn snapshot turnId message turns done turn user := by
  obtain ⟨info, user, hactive, hid, huser, hassistant, hne⟩ :=
    activeAssistantMessage_shaped snapshot turnId message hshape hmessage
  obtain ⟨done, current, hturns, hdone, hcurrent, hrecord⟩ := h.parts
  rw [hactive, Option.toList_some] at hrecord
  obtain ⟨turn, hcurrentEq, heq⟩ := List.map_eq_singleton_iff.mp hrecord
  rw [hcurrentEq] at hturns hcurrent
  have hturn : turn.turn = info := congrArg AgentTurnRecord.turn heq
  have hmessages : turn.messages = [user, message] := congrArg AgentTurnRecord.messages heq
  refine ⟨done, turn, user, hturns, hdone, hcurrent turn (List.mem_singleton_self turn), ?_,
    hmessages, ?_, hne, huser, hassistant⟩
  · rw [hturn]
    exact hactive
  · rw [hturn]
    exact hid

section
variable (h : ActiveTurn snapshot turnId message turns done turn user)
include h

theorem ActiveTurn.modifyMessage (hdistinct : Distinct turns) (f : AgentMessage → AgentMessage) :
    (∀ other ∈ done, other.modifyMessage message.messageId f = other) ∧
      turn.modifyMessage message.messageId f = { turn with messages := [user, f message] } := by
  have hids := hdistinct.messageIds
  unfold messageIdsOf at hids
  rw [h.turns, List.flatMap_append, List.nodup_append] at hids
  obtain ⟨-, hlast, hcross⟩ := hids
  simp only [List.flatMap_cons, List.flatMap_nil, List.append_nil, h.messages, List.map_cons,
    List.map_nil] at hlast hcross
  refine ⟨?_, ?_⟩
  · intro other hother
    unfold StoredTurn.modifyMessage
    have hsame : other.messages.map (fun old =>
        if old.messageId = message.messageId then f old else old) = other.messages := by
      conv => rhs; rw [← List.map_id other.messages]
      apply List.map_congr_left
      intro old hold
      have hmem : old.messageId ∈ done.flatMap fun turn => turn.messages.map (·.messageId) :=
        List.mem_flatMap.mpr ⟨other, hother, List.mem_map_of_mem hold⟩
      rw [if_neg (hcross _ hmem _ (by simp))]
      rfl
    rw [hsame]
  · unfold StoredTurn.modifyMessage
    rw [h.messages]
    simp [h.ne]

theorem ActiveTurn.chunk (hdistinct : Distinct turns) (seq : ℕ) (text : String) :
    (LiveChange.chunk turnId message.messageId text).turns seq turns = done ++
      [{ turn with messages := [user, { message with content := message.content ++ [text] }] }] := by
  obtain ⟨hdone, hlast⟩ := h.modifyMessage hdistinct
    (fun message => { message with content := message.content ++ [text] })
  dsimp only [LiveChange.turns]
  rw [h.turns, List.map_append, List.map_cons, List.map_nil, hlast]
  congr 1
  conv => rhs; rw [← List.map_id done]
  exact List.map_congr_left fun other hother => hdone other hother

theorem ActiveTurn.finish (hdistinct : Distinct turns) (seq : ℕ) (outcome : TurnOutcome) :
    (LiveChange.finish turnId message.messageId outcome).turns seq turns = done ++
      [{ turn with
        turn := ⟨turnId, outcome.state⟩
        completedSeq := some seq
        messages := [user, { message with state := .complete }] }] := by
  obtain ⟨hdone, hlast⟩ := h.modifyMessage hdistinct
    (fun message => { message with state := .complete })
  have hids := hdistinct.turnIds
  rw [h.turns, List.map_append, List.nodup_append] at hids
  dsimp only [LiveChange.turns]
  rw [h.turns, List.map_append, List.map_cons, List.map_nil, hlast, if_pos h.turnId]
  congr 1
  conv => rhs; rw [← List.map_id done]
  apply List.map_congr_left
  intro other hother
  have hne : other.turn.turnId ≠ turnId := by
    have hcross := hids.2.2 _ (List.mem_map_of_mem hother) turn.turn.turnId (by simp)
    rwa [h.turnId] at hcross
  rw [hdone other hother, if_neg hne]
  rfl

theorem ActiveTurn.told :
    said turns = said done ++ [⟨turnId, textOf .user [user, message],
      textOf .assistant [user, message]⟩] := by
  unfold said
  rw [h.turns, List.map_append]
  congr 1
  show [(⟨turn.turn.turnId, textOf .user turn.messages,
    textOf .assistant turn.messages⟩ : TranscriptTurn)] = _
  rw [h.turnId, h.messages]

theorem ActiveTurn.others
    (hdistinct : Distinct turns) : ∀ other ∈ said done, other.turnId ≠ turnId := by
  have hids := hdistinct.turnIds
  rw [h.turns, List.map_append, List.nodup_append] at hids
  intro other hmem
  obtain ⟨old, hold, heq⟩ := List.mem_map.mp hmem
  have hne := hids.2.2 _ (List.mem_map_of_mem hold) turn.turn.turnId (by simp)
  rw [h.turnId] at hne
  rw [← heq]
  exact hne

end

theorem textOf_user (user message : AgentMessage) (huser : user.role = .user)
    (hassistant : message.role = .assistant) :
    textOf .user [user, message] = String.join user.content ∧
      textOf .assistant [user, message] = String.join message.content := by
  unfold textOf
  simp [huser, hassistant]

theorem join_append (texts : List String) (text : String) :
    String.join (texts ++ [text]) = String.join texts ++ text := by
  simp [String.join]

section
variable (h : Reflected snapshot transcript turns)
include h

theorem Reflected.advance (hshape : snapshot.Shaped)
    (change : LiveChange) (hready : change.Ready snapshot) (hdistinct : Distinct turns) (seq : ℕ) :
    Advance seq turns (change.turns seq turns) := by
  cases change with
  | create new => exact ⟨turns, [], [new.stored], (List.append_nil turns).symm, rfl, rfl, .inl rfl⟩
  | chunk turnId messageId text =>
    obtain ⟨message, hmessage, hid⟩ := hready
    obtain ⟨done, turn, user, hactive⟩ := h.active hshape hmessage
    have hturns := hactive.chunk hdistinct seq text
    rw [hid] at hturns
    refine ⟨done, [turn], _, hactive.turns, hturns, ?_, .inl ?_⟩
    · simp [completedSeqs, hactive.running]
    · simp [completedSeqs, hactive.running]
  | finish turnId messageId outcome =>
    obtain ⟨message, hmessage, hid⟩ := hready
    obtain ⟨done, turn, user, hactive⟩ := h.active hshape hmessage
    have hturns := hactive.finish hdistinct seq outcome
    rw [hid] at hturns
    refine ⟨done, [turn], _, hactive.turns, hturns, ?_, .inr rfl⟩
    simp [completedSeqs, hactive.running]
  | update title archived | config options | usage used | exit message => exact .refl seq turns

theorem Reflected.of_activeTurn
    (next : AgentSessionLiveSnapshot) (hactive : next.activeTurn = snapshot.activeTurn)
    (hseq : snapshot.latestSeq ≤ next.latestSeq) : Reflected next transcript turns := by
  obtain ⟨done, current, hturns, hdone, hcurrent, hrecord⟩ := h.parts
  refine ⟨h.told, done, current, hturns, ?_, hcurrent, ?_⟩
  · intro turn hmem
    obtain ⟨seq, hcompleted, hle⟩ := hdone turn hmem
    exact ⟨seq, hcompleted, Nat.le_trans hle hseq⟩
  · rw [hactive]
    exact hrecord

theorem Reflected.write (hshape : snapshot.Shaped)
    (change : LiveChange) (stored : StoredSession) (hready : change.Ready snapshot)
    (hfree : ∀ new, change = .create new → snapshot.activeTurn = none)
    (hdistinct : Distinct turns) (hseq : snapshot.latestSeq ≤ stored.latestSeq) :
    Reflected (change.write stored snapshot).1 (change.tell transcript)
      (change.turns stored.latestSeq turns) := by
  cases change with
  | create new =>
    obtain ⟨done, current, hturns, hdone, -, hrecord⟩ := h.parts
    rw [hfree new rfl] at hrecord
    have hnone : current = [] := List.map_eq_nil_iff.mp hrecord
    refine ⟨?_, done, [new.stored], ?_, ?_, ?_, rfl⟩
    · obtain ⟨huser, hassistant⟩ := textOf_user new.userMessage new.assistantMessage rfl rfl
      have hnew : new.stored.record.transcript = ⟨new.turnId, new.text, ""⟩ := by
        show (⟨new.turnId, textOf .user [new.userMessage, new.assistantMessage],
          textOf .assistant [new.userMessage, new.assistantMessage]⟩ : TranscriptTurn) = _
        rw [huser, hassistant]
        simp [NewTurn.userMessage, NewTurn.assistantMessage, String.join]
      show (turns ++ [new.stored]).map (·.record.transcript) = transcript ++ [_]
      rw [List.map_append, List.map_cons, List.map_nil, hnew]
      exact congrArg (· ++ _) h.told
    · rw [hturns, hnone, List.append_nil]
      rfl
    · intro turn hmem
      obtain ⟨seq, hcompleted, hle⟩ := hdone turn hmem
      exact ⟨seq, hcompleted, Nat.le_trans hle hseq⟩
    · intro turn hmem
      rw [List.mem_singleton.mp hmem]
      rfl
  | chunk turnId messageId text =>
    obtain ⟨message, hmessage, hid⟩ := hready
    obtain ⟨done, turn, user, hactive⟩ := h.active hshape hmessage
    have hturns := hactive.chunk hdistinct stored.latestSeq text
    have hwrite := LiveChange.chunk_write stored snapshot turn.turn user message messageId text
      hactive.active hactive.user hactive.assistant
    rw [hactive.turnId] at hwrite
    rw [← hid] at hwrite ⊢
    rw [hwrite, hturns]
    refine ⟨?_, done, _, rfl, ?_, ?_, ?_⟩
    · have htold := h.told
      obtain ⟨huser, hassistant⟩ := textOf_user user message hactive.user hactive.assistant
      obtain ⟨huserNext, hassistantNext⟩ := textOf_user user
        { message with content := message.content ++ [text] } hactive.user hactive.assistant
      rw [hactive.told, huser, hassistant] at htold
      rw [← htold]
      dsimp only [LiveChange.tell]
      rw [List.map_append, List.map_congr_left fun other hmem =>
        if_neg (hactive.others hdistinct other hmem), List.map_id', List.map_cons, List.map_nil,
        if_pos rfl]
      unfold Agent.said
      rw [List.map_append]
      congr 1
      show [(⟨turn.turn.turnId,
        textOf .user [user, { message with content := message.content ++ [text] }],
        textOf .assistant [user, { message with content := message.content ++ [text] }]⟩ :
          TranscriptTurn)] = _
      rw [hactive.turnId, huserNext, hassistantNext, join_append]
    · intro turn hmem
      obtain ⟨seq, hcompleted, hle⟩ := hactive.done turn hmem
      exact ⟨seq, hcompleted, Nat.le_trans hle hseq⟩
    · intro other hmem
      rw [List.mem_singleton.mp hmem]
      exact hactive.running
    · rfl
  | finish turnId messageId outcome =>
    obtain ⟨message, hmessage, hid⟩ := hready
    obtain ⟨done, turn, user, hactive⟩ := h.active hshape hmessage
    have hturns := hactive.finish hdistinct stored.latestSeq outcome
    have hwrite := LiveChange.finish_write stored snapshot turn.turn user message turnId outcome
      hactive.active hactive.ne
    rw [← hid, hwrite, hturns]
    refine ⟨?_, done ++ [_], [], (List.append_nil _).symm, ?_, fun _ hmem => (by cases hmem), rfl⟩
    · have htold := h.told
      obtain ⟨huser, hassistant⟩ := textOf_user user message hactive.user hactive.assistant
      obtain ⟨huserNext, hassistantNext⟩ := textOf_user user { message with state := .complete }
        hactive.user hactive.assistant
      rw [hactive.told, huser, hassistant] at htold
      show _ = transcript
      rw [← htold]
      unfold Agent.said
      rw [List.map_append]
      congr 1
      show [(⟨turnId, textOf .user [user, { message with state := .complete }],
        textOf .assistant [user, { message with state := .complete }]⟩ : TranscriptTurn)] = _
      rw [huserNext, hassistantNext]
    · intro other hmem
      rcases List.mem_append.mp hmem with hmem | hmem
      · obtain ⟨seq, hcompleted, hle⟩ := hactive.done other hmem
        exact ⟨seq, hcompleted, Nat.le_trans hle hseq⟩
      · rw [List.mem_singleton.mp hmem]
        exact ⟨stored.latestSeq, rfl, Nat.le_refl _⟩
  | update title archived | config options | usage used | exit message =>
    exact h.of_activeTurn _ rfl hseq

end

end

def AgentLiveSession.holding (live : AgentLiveSession) : Option Publication :=
  live.waiting.find? (·.change.keepsLock)

def Publication.turns (publication : Publication) (turns : List StoredTurn) : List StoredTurn :=
  publication.change.turns publication.stored.latestSeq turns

structure AttachedSession.Transcribed (transcript : List TranscriptTurn)
    (attached : AttachedSession) : Prop where
  orderly : attached.live.Orderly
  latest : attached.live.snapshot.latestSeq ≤ attached.row.latestSeq
  rising : attached.live.waiting.Pairwise fun p q => p.stored.latestSeq < q.stored.latestSeq
  between : ∀ p ∈ attached.live.waiting,
    attached.live.snapshot.latestSeq < p.stored.latestSeq ∧
    p.stored.latestSeq ≤ attached.row.latestSeq
  free : ∀ p ∈ attached.live.waiting, ∀ new, p.change = .create new →
    attached.live.snapshot.activeTurn = none
  reflected : ∃ turns, Reflected attached.live.snapshot transcript turns ∧
    attached.row.turns = attached.live.holding.elim turns (·.turns turns)

section
variable {transcript : List TranscriptTurn} {attached next : AttachedSession}
variable {live : AgentLiveSession} (change : LiveChange)

theorem AgentLiveSession.Orderly.waits_ready (h : live.Orderly)
    (p : Publication) (hp : p ∈ live.waiting) : p.change.Ready live.snapshot := by
  obtain ⟨hmem, hwaits⟩ := List.mem_filter.mp hp
  exact (h.ready p hmem hwaits).1

theorem find_keepsLock (p : Publication) (rest : List Publication)
    (hkeeps : p.change.keepsLock = true) : (p :: rest).find? (·.change.keepsLock) = some p :=
  List.find?_cons_of_pos hkeeps

theorem AgentLiveSession.holding_mem (live : AgentLiveSession) (p : Publication)
    (h : live.holding = some p) : p ∈ live.waiting :=
  List.mem_of_find?_eq_some h

theorem AgentLiveSession.Orderly.rest_not_keepsLock (h : live.Orderly)
    (p : Publication) (rest : List Publication) (hwaiting : live.waiting = p :: rest)
    (hkeeps : p.change.keepsLock = true) : rest.find? (·.change.keepsLock) = none := by
  have hcount : live.waiting.countP (·.change.keepsLock) ≤ 1 := by
    have hsub : live.waiting.Sublist live.publications := List.filter_sublist
    have hle := hsub.countP_le (p := (·.change.keepsLock))
    have hexclusive := h.exclusive
    split at hexclusive
    · omega
    · omega
  rw [hwaiting, List.countP_cons, if_pos hkeeps] at hcount
  have hzero : rest.countP (·.change.keepsLock) = 0 := by omega
  rw [List.find?_eq_none]
  exact List.countP_eq_zero.mp hzero

theorem AttachedSession.Transcribed.listed (h : attached.Transcribed transcript)
    (hrecorded : attached.row.Recorded) :
    (completedThrough attached.live.snapshot.latestSeq attached.row.turns).map (·.transcript) ++
      attached.live.snapshot.transcript = transcript := by
  obtain ⟨turns, hreflected, hturns⟩ := h.reflected
  cases hholding : attached.live.holding with
  | none =>
    rw [hholding] at hturns
    rw [show attached.row.turns = turns from hturns]
    exact hreflected.listed
  | some p =>
    rw [hholding] at hturns
    have hp := attached.live.holding_mem p hholding
    have hdistinct := hrecorded.distinct
    rw [show attached.row.turns = p.turns turns from hturns] at hdistinct ⊢
    have hadvance := hreflected.advance h.orderly.shaped p.change (h.orderly.waits_ready p hp)
      (p.change.distinct_before _ _ hdistinct) p.stored.latestSeq
    rw [show p.turns turns = p.change.turns p.stored.latestSeq turns from rfl,
      hadvance.completedThrough _ (h.between p hp).1]
    exact hreflected.listed

theorem LiveChange.tell_eq (transcript : List TranscriptTurn) :
    change.tell transcript = transcript ∨ (∃ new, change = .create new) ∨
      ∃ turnId messageId text, change = .chunk turnId messageId text := by
  cases change with
  | create new => exact .inr (.inl ⟨new, rfl⟩)
  | chunk turnId messageId text => exact .inr (.inr ⟨turnId, messageId, text, rfl⟩)
  | finish turnId messageId outcome | update title archived | config options | usage used
  | exit message => exact .inl rfl

theorem StoredSession.Recorded.finished {row : StoredSession} (h : row.Recorded)
    (hfinished : row.unfinished = []) : ∀ turn ∈ row.turns, turn.completedSeq ≠ none := by
  intro turn hmem hnone
  have hactive : turn.active = true := by
    rw [h.marked turn hmem, hnone]
    rfl
  have hfilter := List.map_eq_nil_iff.mp hfinished
  exact List.filter_eq_nil_iff.mp hfilter turn hmem hactive

section
variable (h : attached.Transcribed transcript)
include h

theorem AttachedSession.Transcribed.settled
    (hrecorded : attached.row.Recorded) (hfinished : attached.row.unfinished = []) :
    said attached.row.turns = transcript := by
  have hcompleted := hrecorded.finished hfinished
  obtain ⟨turns, hreflected, hturns⟩ := h.reflected
  cases hholding : attached.live.holding with
  | none =>
    rw [hholding] at hturns
    rw [show attached.row.turns = turns from hturns]
    exact hreflected.told
  | some p =>
    rw [hholding] at hturns
    have hp := attached.live.holding_mem p hholding
    have hready := h.orderly.waits_ready p hp
    have hdistinct := hrecorded.distinct
    rw [show attached.row.turns = p.turns turns from hturns] at hdistinct hcompleted ⊢
    have hbefore := p.change.distinct_before _ _ hdistinct
    have hwrite := hreflected.write h.orderly.shaped p.change p.stored hready (h.free p hp) hbefore
      (Nat.le_of_lt (h.between p hp).1)
    have htold : said (p.turns turns) = p.change.tell transcript := hwrite.told
    rw [htold]
    rcases p.change.tell_eq transcript with hsame | ⟨new, hnew⟩ | ⟨turnId, messageId, text, hchunk⟩
    · exact hsame
    · -- the turn that is created is unfinished
      have hmem : new.stored ∈ p.turns turns := by
        unfold Publication.turns
        rw [hnew]
        exact List.mem_append_right _ (List.mem_singleton_self _)
      exact absurd rfl (hcompleted new.stored hmem)
    · -- so is the turn that the chunk belongs to
      rw [hchunk] at hready
      obtain ⟨message, hmessage, hid⟩ := hready
      obtain ⟨done, turn, user, hactive⟩ := hreflected.active h.orderly.shaped hmessage
      have hturnsEq := hactive.chunk hbefore p.stored.latestSeq text
      rw [hid, ← hchunk] at hturnsEq
      have hrunning := hactive.running
      unfold Publication.turns at hcompleted
      rw [hturnsEq] at hcompleted
      refine absurd ?_ (hcompleted _ (List.mem_append_right _ (List.mem_singleton_self _)))
      exact hrunning

theorem AttachedSession.Transcribed.of_row
    (row : StoredSession) (hturns : row.turns = attached.row.turns)
    (hseq : attached.row.latestSeq ≤ row.latestSeq) :
    (⟨row, attached.live⟩ : AttachedSession).Transcribed transcript := by
  refine ⟨h.orderly, Nat.le_trans h.latest hseq, h.rising, ?_, h.free, ?_⟩
  · exact fun p hp => ⟨(h.between p hp).1, Nat.le_trans (h.between p hp).2 hseq⟩
  · rw [show (⟨row, attached.live⟩ : AttachedSession).row.turns = attached.row.turns from hturns]
    exact h.reflected

theorem AttachedSession.Transcribed.checked
    (change : LiveChange) (hchecked : attached.live.stateUpdate = .checked change) :
    attached.live.holding = none ∧ Reflected attached.live.snapshot transcript attached.row.turns := by
  have hnone : attached.live.holding = none := by
    unfold AgentLiveSession.holding
    rw [List.find?_eq_none]
    intro p hp
    rw [h.orderly.alone change hchecked p (List.mem_of_mem_filter hp)]
    exact nofun
  obtain ⟨turns, hreflected, hturns⟩ := h.reflected
  rw [hnone] at hturns
  refine ⟨hnone, ?_⟩
  rw [show attached.row.turns = turns from hturns]
  exact hreflected

theorem AttachedSession.Transcribed.advance
    (hrecorded : attached.row.Recorded) (change : LiveChange)
    (hchecked : attached.live.stateUpdate = .checked change)
    (hcommit : change.commit attached.row = some next.row) :
    Advance next.row.latestSeq attached.row.turns next.row.turns := by
  rw [LiveChange.commit_turns _ _ change hcommit]
  exact (h.checked change hchecked).2.advance h.orderly.shaped change
    (h.orderly.checked change hchecked) hrecorded.distinct next.row.latestSeq

end

theorem Reflected.free {snapshot : AgentSessionLiveSnapshot} {row stored : StoredSession}
    (h : Reflected snapshot transcript row.turns) (hrecorded : row.Recorded) (new : NewTurn)
    (hcommit : (LiveChange.create new).commit row = some stored) : snapshot.activeTurn = none := by
  obtain ⟨⟨hfits, -⟩, -⟩ := LiveChange.commit_create hcommit
  obtain ⟨done, current, hturns, -, hcurrent, hrecord⟩ := h.parts
  cases current with
  | nil =>
    cases hactive : snapshot.activeTurn with
    | none => rfl
    | some record =>
      rw [hactive] at hrecord
      cases hrecord
  | cons turn current =>
    have hmem : turn ∈ row.turns := by
      rw [hturns]
      exact List.mem_append_right _ List.mem_cons_self
    have hactive := (hfits turn hmem).2.2
    rw [hrecorded.marked turn hmem, hcurrent turn List.mem_cons_self] at hactive
    cases hactive

theorem LiveChange.count_pos : 0 < change.count := by
  cases change with
  | create new => exact Nat.zero_lt_succ 2
  | finish turnId messageId outcome => exact Nat.zero_lt_succ 1
  | update title archived | config options | chunk turnId messageId text | usage used
  | exit message => exact Nat.zero_lt_one

theorem AttachedSession.Transcribed.commit (h : attached.Transcribed transcript)
    (hrecorded : attached.row.Recorded) (change : LiveChange) (horderly : next.live.Orderly)
    (hchecked : attached.live.stateUpdate = .checked change)
    (hcommit : change.commit attached.row = some next.row)
    (hsnapshot : next.live.snapshot = attached.live.snapshot)
    (hwaiting : next.live.waiting = attached.live.waiting ++ [⟨change, next.row, none⟩]) :
    next.Transcribed transcript := by
  obtain ⟨hnone, hreflected⟩ := h.checked change hchecked
  obtain ⟨hseq, -⟩ := LiveChange.commit_seq _ _ _ hcommit
  have hcount := change.count_pos
  have hlatest := h.latest
  refine ⟨horderly, ?_, ?_, ?_, ?_, ?_⟩
  · rw [hsnapshot]
    omega
  · rw [hwaiting]
    refine List.pairwise_append.mpr ⟨h.rising, List.pairwise_singleton _ _, ?_⟩
    intro p hp q hq
    have hle := (h.between p hp).2
    rw [List.mem_singleton.mp hq]
    dsimp only
    omega
  · rw [hwaiting, hsnapshot]
    intro p hp
    rcases List.mem_append.mp hp with hp | hp
    · have hle := h.between p hp
      omega
    · rw [List.mem_singleton.mp hp]
      dsimp only
      omega
  · rw [hwaiting, hsnapshot]
    intro p hp new hnew
    rcases List.mem_append.mp hp with hp | hp
    · exact h.free p hp new hnew
    · rw [List.mem_singleton.mp hp] at hnew
      rw [show change = .create new from hnew] at hcommit
      exact hreflected.free hrecorded new hcommit
  · rw [hsnapshot]
    refine ⟨attached.row.turns, hreflected, ?_⟩
    have hturns := LiveChange.commit_turns _ _ change hcommit
    unfold AgentLiveSession.holding at hnone ⊢
    rw [hwaiting, List.find?_append, hnone, Option.none_or]
    cases hkeeps : change.keepsLock with
    | true =>
      rw [find_keepsLock _ _ hkeeps]
      exact hturns
    | false =>
      rw [List.find?_cons_of_neg (by rw [hkeeps]; exact nofun), List.find?_nil]
      rw [hturns]
      exact change.turns_of_not_keepsLock _ _ hkeeps

theorem LiveChange.write_latest (stored : StoredSession)
    (snapshot : AgentSessionLiveSnapshot) (hshape : snapshot.Shaped)
    (hready : change.Ready snapshot) :
    (change.write stored snapshot).1.latestSeq = stored.latestSeq := by
  cases change with
  | finish turnId messageId outcome =>
    obtain ⟨message, hmessage, hid⟩ := hready
    obtain ⟨turn, user, hactive, -, -, -, hne⟩ :=
      activeAssistantMessage_shaped snapshot turnId message hshape hmessage
    rw [← hid, LiveChange.finish_write stored snapshot turn user message turnId outcome hactive hne]
  | create new | update title archived | config options | chunk turnId messageId text
  | usage used | exit message => rfl

theorem AttachedSession.Transcribed.write (h : attached.Transcribed transcript)
    (hrecorded : attached.row.Recorded) (change : LiveChange) (stored : StoredSession)
    (horderly : next.live.Orderly) (hrow : next.row = attached.row)
    (hsnapshot : next.live.snapshot = (change.write stored attached.live.snapshot).1)
    (hwaiting : attached.live.waiting = ⟨change, stored, none⟩ :: next.live.waiting) :
    next.Transcribed (change.tell transcript) := by
  have hp : (⟨change, stored, none⟩ : Publication) ∈ attached.live.waiting := by
    rw [hwaiting]
    exact List.mem_cons_self
  have hready : change.Ready attached.live.snapshot := h.orderly.waits_ready _ hp
  obtain ⟨hlt, hle⟩ := h.between _ hp
  have hlatest := change.write_latest stored _ h.orderly.shaped hready
  have hrising := h.rising
  rw [hwaiting] at hrising
  obtain ⟨hfirst, hrest⟩ := List.pairwise_cons.mp hrising
  obtain ⟨turns, hreflected, hturns⟩ := h.reflected
  refine ⟨horderly, ?_, hrest, ?_, ?_, ?_⟩
  · rw [hsnapshot, hlatest, hrow]
    exact hle
  · rw [hsnapshot, hlatest, hrow]
    intro q hq
    exact ⟨hfirst q hq, (h.between q (by rw [hwaiting]; exact List.mem_cons_of_mem _ hq)).2⟩
  · intro q hq new hnew
    have hold := h.free q (by rw [hwaiting]; exact List.mem_cons_of_mem _ hq) new hnew
    rw [hsnapshot]
    cases hkeeps : change.keepsLock with
    | false =>
      rw [change.write_activeTurn stored _ hkeeps]
      exact hold
    | true =>
      -- the other would keep the lock too
      have hnone := h.orderly.rest_not_keepsLock _ _ hwaiting hkeeps
      have hnot := List.find?_eq_none.mp hnone q hq
      rw [hnew] at hnot
      exact absurd rfl hnot
  · rw [hsnapshot, hrow, hturns]
    unfold AgentLiveSession.holding
    rw [hwaiting]
    cases hkeeps : change.keepsLock with
    | false =>
      rw [List.find?_cons_of_neg (by rw [hkeeps]; exact nofun)]
      refine ⟨turns, ?_, rfl⟩
      have htell : change.tell transcript = transcript := by
        rcases change.tell_eq transcript with hsame | ⟨new, hnew⟩ | ⟨turnId, messageId, text, hchunk⟩
        · exact hsame
        · rw [hnew] at hkeeps
          cases hkeeps
        · rw [hchunk] at hkeeps
          cases hkeeps
      rw [htell]
      refine hreflected.of_activeTurn _ (change.write_activeTurn stored _ hkeeps) ?_
      rw [hlatest]
      exact Nat.le_of_lt hlt
    | true =>
      have hnone := h.orderly.rest_not_keepsLock _ _ hwaiting hkeeps
      rw [hnone, find_keepsLock _ _ hkeeps]
      refine ⟨change.turns stored.latestSeq turns, ?_, rfl⟩
      have hdistinct : Distinct turns := by
        have hall := hrecorded.distinct
        rw [hturns] at hall
        unfold AgentLiveSession.holding at hall
        rw [hwaiting, find_keepsLock _ _ hkeeps] at hall
        exact change.distinct_before _ _ hall
      exact hreflected.write h.orderly.shaped change stored hready (h.free _ hp) hdistinct
        (Nat.le_of_lt hlt)

end

def LiveChange.changesTurns : LiveChange → Bool
  | create _ => true
  | chunk _ _ _ => true
  | finish _ _ _ => true
  | _ => false

theorem LiveChange.turns_of_not_changesTurns (change : LiveChange) (seq : ℕ)
    (turns : List StoredTurn) (h : change.changesTurns = false) : change.turns seq turns = turns := by
  cases change with
  | create new | chunk turnId messageId text | finish turnId messageId outcome => cases h
  | update title archived | config options | usage used | exit message => rfl

theorem LiveChange.tell_of_not_changesTurns (change : LiveChange)
    (transcript : List TranscriptTurn) (h : change.changesTurns = false) :
    change.tell transcript = transcript := by
  cases change with
  | create new | chunk turnId messageId text | finish turnId messageId outcome => cases h
  | update title archived | config options | usage used | exit message => rfl

def StateUpdate.change : StateUpdate → Option LiveChange
  | checked change => some change
  | _ => none

namespace AgentConversation
variable (conversation : AgentConversation)

def startOf : Option RuntimeStart :=
  match conversation.attaching with
  | some (.starting start) => some start
  | some (.ready ready) => some ready.start
  | some (.stored ready) => some ready.start
  | _ => none

def last (index : ℕ) : Bool := index + 1 = conversation.entries.length

/-- A runtime is started where no turn is unfinished; turns are changed through the runtime that was
installed last, while none is started; and it writes its snapshots in the order of the
transactions. -/
def timely : ConversationStep → Bool
  | .startRuntime => conversation.row.unfinished = []
  | .live index (.commit _) =>
    (conversation.last index && conversation.startOf.isNone) ||
      ((conversation.entries[index]?).bind (·.live.stateUpdate.change)).all (!·.changesTurns)
  | .live index (.write position) =>
    if conversation.last index then
      (conversation.entries[index]?).all (·.live.inOrder (.write position))
    else (conversation.written (.live index (.write position))).all (!·.changesTurns)
  | _ => true

end AgentConversation

def AgentHistory.timely (history : AgentHistory) : HistoryStep → Bool
  | .conversation step => history.conversation.timely step
  | .readSnapshot index =>
    match history.subscribing[index]? with
    | some (some runtime) => history.conversation.last runtime
    | some none => history.conversation.row.unfinished = []
    | none => true
  | _ => true

def AgentHistory.stepTimely (history : AgentHistory) (step : HistoryStep) : Option AgentHistory :=
  if history.timely step then history.step step else none

structure StoredSession.Extends (row next : StoredSession) : Prop where
  latest : row.latestSeq ≤ next.latestSeq
  listed : ∀ throughSeq ≤ row.latestSeq,
    completedThrough throughSeq next.turns = completedThrough throughSeq row.turns

theorem StoredSession.Extends.of_turns {row next : StoredSession} (hturns : next.turns = row.turns)
    (hseq : row.latestSeq ≤ next.latestSeq) : row.Extends next := by
  refine ⟨hseq, fun _ _ => ?_⟩
  rw [hturns]

theorem unfinished_congr {row next : StoredSession} (hturns : next.turns = row.turns) :
    next.unfinished = row.unfinished := by
  unfold StoredSession.unfinished
  rw [hturns]

namespace AgentConversation

structure Told (transcript : List TranscriptTurn) (conversation : AgentConversation) : Prop where
  recorded : conversation.row.Recorded
  last : ∀ entry, conversation.entries.getLast? = some entry →
    (⟨conversation.row, entry.live⟩ : AttachedSession).Transcribed transcript
  settled : conversation.entries = [] → conversation.row.unfinished = [] →
    said conversation.row.turns = transcript
  starting : ∀ start, conversation.startOf = some start → conversation.row.unfinished = [] ∧
    (∀ seq ∈ completedSeqs conversation.row.turns, seq ≤ start.latestSeq) ∧
    start.latestSeq ≤ conversation.row.latestSeq

variable {transcript : List TranscriptTurn} {conversation next : AgentConversation}

section
variable (h : conversation.Told transcript)
include h

theorem Told.said (hfinished : conversation.row.unfinished = []) :
    said conversation.row.turns = transcript := by
  cases hlast : conversation.entries.getLast? with
  | none => exact h.settled (List.getLast?_eq_none_iff.mp hlast) hfinished
  | some entry => exact (h.last entry hlast).settled h.recorded hfinished

theorem Told.of_same (hturns : next.row.turns = conversation.row.turns)
    (hseq : conversation.row.latestSeq ≤ next.row.latestSeq)
    (hentries : next.entries = conversation.entries)
    (hstart : ∀ start, next.startOf = some start → conversation.startOf = some start) :
    next.Told transcript := by
  refine ⟨h.recorded.of_turns hturns hseq, ?_, ?_, ?_⟩
  · intro entry hlast
    rw [hentries] at hlast
    exact (h.last entry hlast).of_row next.row hturns hseq
  · intro hnone hfinished
    rw [hentries] at hnone
    rw [unfinished_congr hturns] at hfinished
    rw [hturns]
    exact h.settled hnone hfinished
  · intro start heq
    obtain ⟨hfinished, hcompleted, hle⟩ := h.starting start (hstart start heq)
    rw [unfinished_congr hturns, hturns]
    exact ⟨hfinished, hcompleted, Nat.le_trans hle hseq⟩

theorem Told.lock (attaching : Attaching)
    (hstart : { conversation with attaching := some attaching }.startOf = none)
    (hstep : conversation.lock attaching = some next) :
    next.Told transcript ∧ next.row = conversation.row := by
  obtain ⟨-, hstep⟩ := Option.ite_none_left_eq_some.mp hstep
  split at hstep
  · cases hstep
    exact ⟨h, rfl⟩
  · cases hstep
    refine ⟨h.of_same rfl (Nat.le_refl _) rfl ?_, rfl⟩
    intro start heq
    rw [hstart] at heq
    cases heq

theorem Told.abandon (task : ℕ) :
    (conversation.abandon task).Told transcript :=
  h.of_same rfl (Nat.le_refl _) rfl nofun

theorem Told.startRuntime (hfinished : conversation.row.unfinished = [])
    (hstep : conversation.startRuntime = some next) :
    next.Told transcript ∧ next.row = conversation.row := by
  unfold AgentConversation.startRuntime at hstep
  split at hstep
  · cases hstep
    refine ⟨⟨h.recorded, h.last, h.settled, ?_⟩, rfl⟩
    intro start heq
    cases heq
    exact ⟨hfinished, h.recorded.latest, Nat.le_refl _⟩
  · cases hstep

theorem Told.started (ready : Option (String × List AgentConfigOption))
    (hstep : conversation.started ready = some next) :
    next.Told transcript ∧ next.row = conversation.row := by
  unfold AgentConversation.started at hstep
  split at hstep
  · rename_i start hstarting
    split at hstep
    · cases hstep
      exact ⟨h.abandon start.task, rfl⟩
    · obtain ⟨-, hstep⟩ := Option.ite_none_right_eq_some.mp hstep
      cases hstep
      refine ⟨h.of_same rfl (Nat.le_refl _) rfl ?_, rfl⟩
      intro other heq
      cases heq
      unfold startOf
      rw [hstarting]
  · cases hstep

theorem Told.storeProviderSession (ok : Bool)
    (hstep : conversation.storeProviderSession ok = some next) :
    next.Told transcript ∧ conversation.row.Extends next.row := by
  unfold AgentConversation.storeProviderSession at hstep
  split at hstep
  · rename_i ready hready
    have hstart : conversation.startOf = some ready.start := by
      unfold startOf
      rw [hready]
    have hkeeps : ∀ row : StoredSession, row.turns = conversation.row.turns →
        conversation.row.latestSeq ≤ row.latestSeq →
        ({ conversation with row := row, attaching := some (.stored ready) } :
          AgentConversation).Told transcript := by
      intro row hturns hseq
      refine h.of_same hturns hseq rfl ?_
      intro start heq
      cases heq
      exact hstart
    split at hstep
    · cases hstep
      exact ⟨hkeeps conversation.row rfl (Nat.le_refl _), .of_turns rfl (Nat.le_refl _)⟩
    · split at hstep
      · cases hstep
        exact ⟨hkeeps _ rfl (Nat.le_refl _), .of_turns rfl (Nat.le_refl _)⟩
      · cases hstep
        exact ⟨h.abandon ready.start.task, .of_turns rfl (Nat.le_refl _)⟩
  · cases hstep

theorem Told.install (ok : Bool)
    (hstep : conversation.install ok = some next) :
    next.Told transcript ∧ next.row = conversation.row := by
  unfold AgentConversation.install at hstep
  split at hstep
  · rename_i ready hstored
    have hstart : conversation.startOf = some ready.start := by
      unfold startOf
      rw [hstored]
    obtain ⟨hfinished, hcompleted, hle⟩ := h.starting ready.start hstart
    split at hstep
    · cases hstep
      refine ⟨⟨h.recorded, ?_, ?_, nofun⟩, rfl⟩
      · intro entry hlast
        rw [List.getLast?_append_cons, List.getLast?_singleton] at hlast
        cases hlast
        refine ⟨AgentLiveSession.started_orderly _ rfl, hle, List.Pairwise.nil,
          fun _ hp => (nomatch hp), fun _ hp => (nomatch hp), conversation.row.turns, ?_, rfl⟩
        refine ⟨h.said hfinished, conversation.row.turns, [], (List.append_nil _).symm, ?_,
          fun _ hmem => (nomatch hmem), rfl⟩
        intro turn hmem
        obtain ⟨seq, hseq⟩ := Option.ne_none_iff_exists'.mp
          (h.recorded.finished hfinished turn hmem)
        exact ⟨seq, hseq, hcompleted seq (List.mem_filterMap.mpr ⟨turn, hmem, hseq⟩)⟩
      · intro hnil
        exact absurd hnil (List.append_ne_nil_of_right_ne_nil _ (List.cons_ne_nil _ _))
    · cases hstep
      exact ⟨h.abandon ready.start.task, rfl⟩
  · cases hstep

end

theorem getLast?_of_last (index : ℕ) (entry : AgentRuntimeEntry)
    (hlast : conversation.last index = true) (hentry : conversation.entries[index]? = some entry) :
    conversation.entries.getLast? = some entry := by
  have hlength := of_decide_eq_true hlast
  rw [List.getLast?_eq_getElem?, ← hentry]
  congr 1
  omega

theorem Told.onLast (h : conversation.Told transcript) (index : ℕ) (step : LiveStep)
    (hlast : conversation.last index = true)
    (htimely : conversation.timely (.live index step) = true)
    (hstep : conversation.onLive index step = some next) :
    next.Told ((conversation.written (.live index step)).elim transcript (·.tell transcript)) ∧
      conversation.row.Extends next.row := by
  obtain ⟨entry, hentry, hattached⟩ := Option.bind_eq_some_iff.mp hstep
  obtain ⟨attached, hattached, heq⟩ := Option.map_eq_some_iff.mp hattached
  have htranscribed := h.last entry (getLast?_of_last index entry hlast hentry)
  have horder : ∀ position, step = .write position → entry.live.inOrder step = true := by
    intro position hwrite
    rw [hwrite] at htimely ⊢
    dsimp only [timely] at htimely
    rw [if_pos hlast, hentry] at htimely
    exact htimely
  have hget : (conversation.entries.set index { entry with live := attached.live }).getLast? =
      some { entry with live := attached.live } := by
    obtain ⟨hlt, -⟩ := List.getElem?_eq_some_iff.mp hentry
    have hlength := of_decide_eq_true hlast
    rw [List.getLast?_eq_getElem?, List.length_set, ← hlength]
    exact List.getElem?_set_self hlt
  have hnonempty : conversation.entries.set index { entry with live := attached.live } ≠ [] := by
    intro hnil
    rw [hnil] at hget
    cases hget
  -- what is left to show once the new state of the runtime is known
  have hassemble : ∀ told, attached.Transcribed told → attached.row.Recorded →
      (∀ start, conversation.startOf = some start → attached.row.unfinished = [] ∧
        (∀ seq ∈ completedSeqs attached.row.turns, seq ≤ start.latestSeq) ∧
        start.latestSeq ≤ attached.row.latestSeq) → next.Told told := by
    intro told htold hrecorded hstarting
    rw [← heq]
    refine ⟨hrecorded, ?_, fun hnil => absurd hnil hnonempty, hstarting⟩
    intro other hother
    rw [hget] at hother
    cases hother
    exact htold
  obtain ⟨horderly, hstepped⟩ := AttachedSession.orderly_step htranscribed.orderly step horder hattached
  rw [show next.row = attached.row by rw [← heq]]
  cases hstepped with
  | none hwrite hrow hsnapshot hwaiting =>
    have hwritten : conversation.written (.live index step) = none := by
      cases step with
      | write position => exact absurd rfl (hwrite position)
      | _ => rfl
    rw [hwritten]
    refine ⟨hassemble transcript ?_ ?_ ?_, .of_turns (by rw [hrow]) (by rw [hrow])⟩
    · have hholding : attached.live.holding = entry.live.holding := by
        unfold AgentLiveSession.holding
        rw [hwaiting]
      refine ⟨horderly, ?_, ?_, ?_, ?_, ?_⟩
      · rw [hsnapshot, hrow]
        exact htranscribed.latest
      · rw [hwaiting]
        exact htranscribed.rising
      · rw [hwaiting, hsnapshot, hrow]
        exact htranscribed.between
      · rw [hwaiting, hsnapshot]
        exact htranscribed.free
      · rw [hsnapshot, hrow, hholding]
        exact htranscribed.reflected
    · rw [hrow]
      exact h.recorded
    · rw [hrow]
      exact h.starting
  | commit change hcommitted hchecked hcommit hsnapshot hwaiting =>
    rw [hcommitted] at htimely ⊢
    obtain ⟨hseq, -⟩ := LiveChange.commit_seq _ _ _ hcommit
    have hturns := LiveChange.commit_turns _ _ change hcommit
    have hadvance := htranscribed.advance h.recorded change hchecked hcommit
    have hcount : conversation.row.latestSeq < attached.row.latestSeq := by
      have hpos := change.count_pos
      dsimp only at hseq
      omega
    refine ⟨hassemble transcript ?_ ?_ ?_, Nat.le_of_lt hcount, ?_⟩
    · exact htranscribed.commit h.recorded change horderly hchecked hcommit hsnapshot hwaiting
    · exact h.recorded.commit change hcommit hadvance hcount
    · intro start hstart
      obtain ⟨hfinished, hcompleted, hle⟩ := h.starting start hstart
      have hsame : change.changesTurns = false := by
        dsimp only [timely] at htimely
        rw [hstart, hentry, Option.bind_some, hchecked] at htimely
        simpa [StateUpdate.change] using htimely
      rw [change.turns_of_not_changesTurns _ _ hsame] at hturns
      rw [unfinished_congr hturns, hturns]
      exact ⟨hfinished, hcompleted, Nat.le_trans hle (Nat.le_of_lt hcount)⟩
    · exact fun throughSeq hle => hadvance.completedThrough throughSeq (Nat.lt_of_le_of_lt hle hcount)
  | write position change stored hwritten hindex hrow hsnapshot hwaiting =>
    have hwrite : conversation.written (.live index step) = some change := by
      rw [hwritten]
      dsimp only [written]
      rw [hentry, Option.bind_some]
      rw [hindex]
      rfl
    rw [hwrite]
    refine ⟨hassemble (change.tell transcript) ?_ ?_ ?_, .of_turns (by rw [hrow]) (by rw [hrow])⟩
    · exact htranscribed.write h.recorded change stored horderly hrow hsnapshot hwaiting
    · rw [hrow]
      exact h.recorded
    · rw [hrow]
      exact h.starting

theorem Told.onOther (h : conversation.Told transcript) (index : ℕ) (step : LiveStep)
    (hlast : conversation.last index = false)
    (htimely : conversation.timely (.live index step) = true)
    (hstep : conversation.onLive index step = some next) :
    next.Told ((conversation.written (.live index step)).elim transcript (·.tell transcript)) ∧
      conversation.row.Extends next.row := by
  obtain ⟨entry, hentry, hattached⟩ := Option.bind_eq_some_iff.mp hstep
  obtain ⟨attached, hattached, heq⟩ := Option.map_eq_some_iff.mp hattached
  have htold : (conversation.written (.live index step)).elim transcript (·.tell transcript) =
      transcript := by
    cases hwritten : conversation.written (.live index step) with
    | none => rfl
    | some change =>
      cases step with
      | write position =>
        dsimp only [timely] at htimely
        rw [hlast, if_neg nofun, hwritten] at htimely
        exact change.tell_of_not_changesTurns transcript (by simpa using htimely)
      | _ => cases hwritten
  have hrow : attached.row.turns = conversation.row.turns ∧
      conversation.row.latestSeq ≤ attached.row.latestSeq := by
    by_cases hcommit : ∃ ok, step = .commit ok
    · obtain ⟨ok, hcommit⟩ := hcommit
      rw [hcommit] at hattached htimely
      dsimp only [timely] at htimely
      rw [hlast, hentry, Option.bind_some] at htimely
      cases AttachedSession.commit_stepped ok hattached with
      | none hwrite hrow hsnapshot hwaiting
      | write position change stored hwritten hindex hrow hsnapshot hwaiting =>
        rw [hrow]
        exact ⟨rfl, Nat.le_refl _⟩
      | commit change hcommitted hchecked hcommit hsnapshot hwaiting =>
        rw [hchecked] at htimely
        have hsame : change.changesTurns = false := by
          simpa [StateUpdate.change] using htimely
        obtain ⟨hseq, -⟩ := LiveChange.commit_seq _ _ _ hcommit
        rw [LiveChange.commit_turns _ _ change hcommit]
        refine ⟨change.turns_of_not_changesTurns _ _ hsame, ?_⟩
        dsimp only at hseq
        omega
    · rw [AttachedSession.step_row _ attached step (fun ok hok => hcommit ⟨ok, hok⟩) hattached]
      exact ⟨rfl, Nat.le_refl _⟩
  rw [htold, show next.row = attached.row by rw [← heq]]
  refine ⟨⟨?_, ?_, ?_, ?_⟩, .of_turns hrow.1 hrow.2⟩
  · rw [← heq]
    exact h.recorded.of_turns hrow.1 hrow.2
  · intro other hother
    have hsame : next.entries.getLast? = conversation.entries.getLast? := by
      have hne : conversation.entries.length - 1 ≠ index := by
        have hlength := of_decide_eq_false hlast
        obtain ⟨hlt, -⟩ := List.getElem?_eq_some_iff.mp hentry
        omega
      rw [← heq, List.getLast?_eq_getElem?, List.getLast?_eq_getElem?, List.length_set,
        List.getElem?_set_ne (Ne.symm hne)]
    rw [hsame] at hother
    rw [← heq]
    exact (h.last other hother).of_row attached.row hrow.1 hrow.2
  · intro hnil
    rw [← heq] at hnil
    have hlength := congrArg List.length hnil
    rw [List.length_set, List.length_nil] at hlength
    obtain ⟨hlt, -⟩ := List.getElem?_eq_some_iff.mp hentry
    omega
  · intro start hstart
    have hold : conversation.startOf = some start := by
      rw [← heq] at hstart
      exact hstart
    obtain ⟨hfinished, hcompleted, hle⟩ := h.starting start hold
    rw [← heq]
    rw [unfinished_congr hrow.1, hrow.1]
    exact ⟨hfinished, hcompleted, Nat.le_trans hle hrow.2⟩

theorem Told.step (h : conversation.Told transcript) (step : ConversationStep)
    (htimely : conversation.timely step = true) (hstep : conversation.step step = some next) :
    next.Told ((conversation.written step).elim transcript (·.tell transcript)) ∧
      conversation.row.Extends next.row := by
  have hsame : next.Told transcript ∧ next.row = conversation.row →
      next.Told transcript ∧ conversation.row.Extends next.row := by
    rintro ⟨htold, hrow⟩
    exact ⟨htold, .of_turns (by rw [hrow]) (by rw [hrow])⟩
  cases step with
  | createAndAttach | taskEnds task =>
    cases hstep
    exact hsame ⟨h.of_same rfl (Nat.le_refl _) rfl fun _ heq => heq, rfl⟩
  | lockCreated index =>
    obtain ⟨session, -, hstep⟩ := Option.bind_eq_some_iff.mp hstep
    have hrest : ({ conversation with
        creating := conversation.creating.eraseIdx index } : AgentConversation).Told transcript :=
      h.of_same rfl (Nat.le_refl _) rfl fun _ heq => heq
    exact hsame (hrest.lock (.persisted session) rfl hstep)
  | lockAttach => exact hsame (h.lock .locked rfl hstep)
  | readRow providerKnown =>
    dsimp only [AgentConversation.step, AgentConversation.readRow] at hstep
    split at hstep
    · cases hstep
      refine hsame ⟨h.of_same rfl (Nat.le_refl _) rfl ?_, rfl⟩
      intro start heq
      cases providerKnown with
      | true | false => cases heq
    · cases hstep
  | startRuntime => exact hsame (h.startRuntime (of_decide_eq_true htimely) hstep)
  | started ready => exact hsame (h.started ready hstep)
  | storeProviderSession ok => exact h.storeProviderSession ok hstep
  | install ok => exact hsame (h.install ok hstep)
  | removeRuntime index =>
    obtain ⟨entry, -, hstep⟩ := Option.bind_eq_some_iff.mp hstep
    obtain ⟨-, hstep⟩ := Option.ite_none_left_eq_some.mp hstep
    cases hstep
    exact hsame ⟨h.of_same rfl (Nat.le_refl _) rfl fun _ heq => heq, rfl⟩
  | updateUnattached title archived =>
    cases hstep
    exact ⟨h.of_same rfl (Nat.le_succ _) rfl fun _ heq => heq, .of_turns rfl (Nat.le_succ _)⟩
  | live index step =>
    cases hlast : conversation.last index with
    | true => exact h.onLast index step hlast htimely hstep
    | false => exact h.onOther index step hlast htimely hstep
  | restart =>
    cases hstep
    exact hsame ⟨⟨h.recorded, fun _ hlast => (nomatch hlast),
      fun _ hfinished => h.said hfinished, fun _ hstart => (nomatch hstart)⟩, rfl⟩

theorem created_told (row : StoredSession) (hrow : row.turns = []) : (created row).Told [] := by
  have hrecorded : row.Recorded := by
    refine ⟨⟨?_, ?_⟩, ?_, ?_, ?_⟩
    · rw [hrow]
      exact List.nodup_nil
    · rw [hrow]
      exact List.nodup_nil
    · rw [hrow]
      exact List.Pairwise.nil
    · rw [hrow]
      exact fun _ hmem => nomatch hmem
    · rw [hrow]
      exact fun _ hmem => nomatch hmem
  refine ⟨hrecorded, fun _ hlast => (nomatch hlast), ?_, fun _ hstart => (nomatch hstart)⟩
  intro _ _
  show Agent.said row.turns = []
  rw [hrow]
  rfl

end AgentConversation

structure HistoryReader.Follows (row : StoredSession) (reader : HistoryReader) : Prop where
  through : reader.snapshot.latestSeq ≤ row.latestSeq
  listed : (completedThrough reader.snapshot.latestSeq row.turns).map (·.transcript) ++
    reader.snapshot.transcript = reader.transcript
  distinct : (reader.transcript.map (·.turnId)).Nodup
  reading : ∃ read, reader.turns = read.map storedTurnRecord ∧
    Pages.Reading (·.key) (completedThrough reader.snapshot.latestSeq row.turns) read
      (reader.next.map (·.map (·.key)))
  cursor : ∀ cursor, reader.next = some (some cursor) →
    cursor.throughSeq = reader.snapshot.latestSeq

section
variable {row next : StoredSession} {reader : HistoryReader}

theorem HistoryReader.Follows.of_extends (h : reader.Follows row) (hextends : row.Extends next) :
    reader.Follows next := by
  have hlisted := hextends.listed _ h.through
  refine ⟨Nat.le_trans h.through hextends.latest, ?_, h.distinct, ?_, h.cursor⟩
  · rw [hlisted]
    exact h.listed
  · rw [hlisted]
    exact h.reading

theorem HistoryReader.Follows.request (h : reader.Follows row) (cursor : Option HistoryCursor)
    (hnext : reader.next = some cursor) (limit : ℕ) (hpos : 1 ≤ limit)
    (hmax : limit ≤ maxSessionHistoryPageSize) :
    listSessionTurns row ⟨reader.snapshot.latestSeq, cursor, limit⟩ = .ok {
      turns := ((listCompletedAgentTurns row reader.snapshot.latestSeq (cursor.map (·.key))
        (limit + 1)).take limit).reverse.map storedTurnRecord
      nextCursor := (Pages.nextCursor (·.key) limit (listCompletedAgentTurns row
        reader.snapshot.latestSeq (cursor.map (·.key)) (limit + 1))).map
          (⟨reader.snapshot.latestSeq, ·⟩) } := by
  have hcursor : ¬ cursor.any (fun cursor => cursor.throughSeq ≠ reader.snapshot.latestSeq) = true := by
    cases cursor with
    | none => exact nofun
    | some cursor => simpa using h.cursor cursor hnext
  have hlatest := h.through
  unfold listSessionTurns
  dsimp only
  rw [if_neg (by omega), if_neg (by omega), if_neg hcursor]

theorem HistoryReader.Follows.page (h : reader.Follows row) (hrecorded : row.Recorded)
    (cursor : Option HistoryCursor) (hnext : reader.next = some cursor) (limit : ℕ) :
    (reader.page (listSessionTurns row ⟨reader.snapshot.latestSeq, cursor, limit⟩)).Follows row ∧
      ∀ page, listSessionTurns row ⟨reader.snapshot.latestSeq, cursor, limit⟩ = .ok page →
        page.nextCursor ≠ none → page.turns.length = limit := by
  by_cases hlimit : limit < 1 ∨ maxSessionHistoryPageSize < limit
  · have herror : listSessionTurns row ⟨reader.snapshot.latestSeq, cursor, limit⟩ =
        .error (.invalidArgument "limit must be between 1 and 100") := if_pos hlimit
    rw [herror]
    exact ⟨h, nofun⟩
  · obtain ⟨read, hturns, hreading⟩ := h.reading
    rw [hnext] at hreading
    obtain ⟨hpage, hfull⟩ := hreading.page
      (completedThrough_sorted row.turns reader.snapshot.latestSeq hrecorded.completed) limit
      (by omega)
    rw [h.request cursor hnext limit (by omega) (by omega)]
    obtain ⟨rows, hrows⟩ : ∃ rows, rows = listCompletedAgentTurns row reader.snapshot.latestSeq
      (cursor.map (·.key)) (limit + 1) := ⟨_, rfl⟩
    rw [← hrows]
    replace hpage : Pages.Reading (·.key) (completedThrough reader.snapshot.latestSeq row.turns)
        ((rows.take limit).reverse ++ read) ((Pages.nextCursor (·.key) limit rows).map some) := by
      rw [hrows]
      exact hpage
    replace hfull : Pages.nextCursor (·.key) limit rows ≠ none →
        (rows.take limit).length = limit := by
      rw [hrows]
      exact hfull
    refine ⟨⟨h.through, h.listed, h.distinct, ⟨(rows.take limit).reverse ++ read, ?_, ?_⟩, ?_⟩, ?_⟩
    · show (rows.take limit).reverse.map storedTurnRecord ++ reader.turns = _
      rw [hturns, List.map_append]
    · cases hcursor : Pages.nextCursor (fun record : StoredAgentTurnRecord => record.key) limit rows with
      | none | some key =>
        rw [hcursor] at hpage
        exact hpage
    · intro other hother
      cases hcursor : Pages.nextCursor (fun record : StoredAgentTurnRecord => record.key) limit rows with
      | none =>
        rw [hcursor] at hother
        cases hother
      | some key =>
        rw [hcursor] at hother
        cases hother
        rfl
    · intro page hok hne
      cases hok
      rw [List.length_map, List.length_reverse]
      refine hfull fun hnone => hne ?_
      rw [hnone]
      rfl

end

structure AgentHistory.Kept (history : AgentHistory) : Prop where
  told : history.conversation.Told history.transcript
  readers : ∀ reader ∈ history.readers, reader.Follows history.conversation.row

namespace AgentHistory
variable {history next : AgentHistory}

theorem distinct_said (turns : List StoredTurn) (h : Distinct turns) :
    ((said turns).map (·.turnId)).Nodup := by
  unfold said
  rw [List.map_map]
  exact h.turnIds

theorem Kept.follows (h : history.Kept) (index : ℕ) (runtime : Option ℕ)
    (snapshot : AgentSessionLiveSnapshot) (hruntime : history.subscribing[index]? = some runtime)
    (htimely : history.timely (.readSnapshot index) = true)
    (hsnapshot : history.conversation.snapshotOf runtime = some snapshot) :
    (⟨snapshot, history.transcript, [], some none⟩ : HistoryReader).Follows
      history.conversation.row := by
  have hrecorded := h.told.recorded
  dsimp only [AgentHistory.timely] at htimely
  rw [hruntime] at htimely
  have hreading := Pages.reading_first (·.key)
    (completedThrough snapshot.latestSeq history.conversation.row.turns)
  cases runtime with
  | none =>
    have hfinished := of_decide_eq_true htimely
    have htold := h.told.said hfinished
    cases hsnapshot
    -- all turns are completed with numbers up to that of the row
    have hreflected : Reflected (dormantSnapshot history.conversation.row) history.transcript
        history.conversation.row.turns := by
      refine ⟨htold, history.conversation.row.turns, [], (List.append_nil _).symm, ?_,
        fun _ hmem => (nomatch hmem), rfl⟩
      intro turn hmem
      obtain ⟨seq, hseq⟩ := Option.ne_none_iff_exists'.mp (hrecorded.finished hfinished turn hmem)
      exact ⟨seq, hseq, hrecorded.latest seq (List.mem_filterMap.mpr ⟨turn, hmem, hseq⟩)⟩
    refine ⟨Nat.le_refl _, hreflected.listed, ?_, ⟨[], rfl, hreading⟩, nofun⟩
    rw [← htold]
    exact distinct_said _ hrecorded.distinct
  | some runtime =>
    obtain ⟨entry, hentry, heq⟩ := Option.map_eq_some_iff.mp hsnapshot
    have htranscribed := h.told.last entry
      (AgentConversation.getLast?_of_last runtime entry htimely hentry)
    rw [← heq] at hreading ⊢
    refine ⟨htranscribed.latest, htranscribed.listed hrecorded, ?_, ⟨[], rfl, hreading⟩, nofun⟩
    obtain ⟨turns, hreflected, hturns⟩ := htranscribed.reflected
    have hdistinct : Distinct turns := by
      have hall := hrecorded.distinct
      rw [show history.conversation.row.turns = entry.live.holding.elim turns (·.turns turns)
        from hturns] at hall
      cases hholding : entry.live.holding with
      | none =>
        rw [hholding] at hall
        exact hall
      | some p =>
        rw [hholding] at hall
        exact p.change.distinct_before _ _ hall
    rw [← hreflected.told]
    exact distinct_said turns hdistinct

theorem Kept.step (h : history.Kept) (step : HistoryStep)
    (hstep : history.stepTimely step = some next) : next.Kept := by
  obtain ⟨htimely, hstep⟩ := Option.ite_none_right_eq_some.mp hstep
  cases step with
  | conversation step =>
    obtain ⟨conversation, hconversation, heq⟩ := Option.map_eq_some_iff.mp hstep
    obtain ⟨htold, hextends⟩ := h.told.step step htimely hconversation
    rw [← heq]
    exact ⟨htold, fun reader hmem => (h.readers reader hmem).of_extends hextends⟩
  | subscribe =>
    cases hstep
    exact ⟨h.told, h.readers⟩
  | readSnapshot index =>
    obtain ⟨runtime, hruntime, hstep⟩ := Option.bind_eq_some_iff.mp hstep
    obtain ⟨snapshot, hsnapshot, heq⟩ := Option.map_eq_some_iff.mp hstep
    rw [← heq]
    refine ⟨h.told, fun reader hmem => ?_⟩
    rcases List.mem_append.mp hmem with hmem | hmem
    · exact h.readers reader hmem
    · rw [List.mem_singleton.mp hmem]
      exact h.follows index runtime snapshot hruntime htimely hsnapshot
  | listTurns index limit =>
    obtain ⟨reader, hreader, hstep⟩ := Option.bind_eq_some_iff.mp hstep
    obtain ⟨cursor, hcursor, heq⟩ := Option.map_eq_some_iff.mp hstep
    have hfollows := h.readers reader (List.mem_of_getElem? hreader)
    rw [← heq]
    refine ⟨h.told, fun other hmem => ?_⟩
    rcases List.mem_or_eq_of_mem_set hmem with hold | hnew
    · exact h.readers other hold
    · rw [hnew]
      exact (hfollows.page h.told.recorded cursor hcursor limit).1

end AgentHistory

/-- Once the last page was read, the pages and the active turn of the snapshot say what was said when
it was taken, each turn once; until then no request fails, and each page but the last is full. -/
structure HistoryReader.Complete (row : StoredSession) (reader : HistoryReader) : Prop where
  ended : reader.next = none →
    reader.turns.map (·.transcript) ++ reader.snapshot.transcript = reader.transcript
  distinct : (reader.transcript.map (·.turnId)).Nodup
  bounded : reader.turns.length ≤ reader.transcript.length
  answered : ∀ cursor limit, reader.next = some cursor → 1 ≤ limit →
    limit ≤ maxSessionHistoryPageSize →
    ∃ page, listSessionTurns row ⟨reader.snapshot.latestSeq, cursor, limit⟩ = .ok page ∧
      (page.nextCursor ≠ none → page.turns.length = limit)

theorem HistoryReader.Follows.complete {row : StoredSession} {reader : HistoryReader}
    (h : reader.Follows row) (hrecorded : row.Recorded) : reader.Complete row := by
  obtain ⟨read, hturns, hreading⟩ := h.reading
  refine ⟨?_, h.distinct, ?_, ?_⟩
  · intro hnext
    rw [hnext] at hreading
    have hall : read = completedThrough reader.snapshot.latestSeq row.turns := hreading.ended
    rw [hturns, List.map_map, hall]
    exact h.listed
  · obtain ⟨rest, hlisted, -⟩ := hreading
    have hlength := congrArg List.length h.listed
    rw [List.length_append, List.length_map, hlisted, List.length_append] at hlength
    rw [hturns, List.length_map]
    omega
  · intro cursor limit hnext hpos hmax
    refine ⟨_, h.request cursor hnext limit hpos hmax, ?_⟩
    exact (h.page hrecorded cursor hnext limit).2 _ (h.request cursor hnext limit hpos hmax)

theorem transcript_complete (row : StoredSession) (hrow : row.turns = [])
    (steps : List HistoryStep) (history : AgentHistory)
    (hrun : steps.foldlM AgentHistory.stepTimely (.created row) = some history) :
    ∀ reader ∈ history.readers, reader.Complete history.conversation.row := by
  have hkept : history.Kept := by
    refine System.run_invariant AgentHistory.stepTimely (·.Kept) ?_ steps
      ⟨AgentConversation.created_told row hrow, fun _ hmem => absurd hmem List.not_mem_nil⟩ hrun
    exact fun history step next h hstep => h.step step hstep
  exact fun reader hmem => (hkept.readers reader hmem).complete hkept.told.recorded

def greeting : NewTurn := ⟨"request", 11, 21, 22, "Hi"⟩

def operate (operation : LiveOperation) (position events : ℕ) : List ConversationStep :=
  [.live 0 (.begin operation), .live 0 (.commit true), .live 0 (.write position)] ++
    List.replicate events (.live 0 (.send position)) ++ [.live 0 (.drop position)]

def answeredTurn : List ConversationStep :=
  [.lockAttach, .readRow true, .startRuntime, .started (some ("first", [])),
    .storeProviderSession true, .install true] ++
    operate (.createTurn greeting) 0 3 ++ operate (.applyAgentTextChunk 11 "Hello") 0 1

def readAll : List HistoryStep := [.subscribe, .readSnapshot 0, .listTurns 0 10]

def endedTurn : List ConversationStep :=
  answeredTurn ++ operate (.finishLiveTurn 11 (.finished .endTurn)) 0 2

def overtakenRename : List ConversationStep :=
  answeredTurn ++ [.live 0 (.begin (.updateSession (some (some "Final")) none)),
    .live 0 (.commit true)] ++ operate (.finishLiveTurn 11 (.finished .endTurn)) 1 2 ++
    [.live 0 (.write 0)]

def promptEnd : List HistoryStep := endedTurn.map .conversation ++ readAll

def lateEnd : List HistoryStep := overtakenRename.map .conversation ++ readAll

def interruptedTurn : List HistoryStep :=
  answeredTurn.map .conversation ++ [.conversation .restart] ++ readAll

theorem transcript_complete_promptEnd : ∃ history,
    promptEnd.foldlM AgentHistory.stepTimely (.created emptyRow) = some history ∧
    history.readers.length = 1 ∧
    ∀ reader ∈ history.readers, reader.Complete history.conversation.row := by
  refine ⟨_, rfl, rfl, ?_⟩
  exact transcript_complete emptyRow rfl promptEnd _ rfl

theorem transcript_incomplete :
    (∃ history reader,
      lateEnd.foldlM AgentHistory.step (.created emptyRow) = some history ∧
      history.readers = [reader] ∧ reader.next.isNone ∧ reader.turns = [] ∧
      reader.snapshot.activeTurn = none ∧ reader.transcript = [⟨11, "Hi", "Hello"⟩] ∧
      ¬ reader.Complete history.conversation.row) ∧
    ∃ history reader,
      interruptedTurn.foldlM AgentHistory.step (.created emptyRow) = some history ∧
      history.readers = [reader] ∧ reader.next.isNone ∧ reader.turns = [] ∧
      reader.snapshot.activeTurn = none ∧ reader.transcript = [⟨11, "Hi", "Hello"⟩] ∧
      ¬ reader.Complete history.conversation.row := by
  refine ⟨⟨_, _, rfl, rfl, rfl, rfl, rfl, by rfl, ?_⟩, _, _, rfl, rfl, rfl, rfl, rfl, by rfl, ?_⟩
  · intro hcomplete
    have hended := hcomplete.ended rfl
    cases hended
  · intro hcomplete
    have hended := hcomplete.ended rfl
    cases hended

end Rieul.Agent
