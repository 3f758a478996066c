import Rieul.Agent.Live
import Rieul.Lib.Calls

/-!
# Changes of a live session

A change stands between its transaction and the write of the snapshot.
-/

namespace Rieul.Agent

def AgentSessionLiveSnapshot.Shaped (snapshot : AgentSessionLiveSnapshot) : Prop :=
  ∀ record, snapshot.activeTurn = some record → ∃ user assistant,
    record.messages = [user, assistant] ∧ user.role = .user ∧ assistant.role = .assistant ∧
    user.messageId ≠ assistant.messageId

def LiveChange.Ready (snapshot : AgentSessionLiveSnapshot) : LiveChange → Prop
  | chunk turnId messageId _ => ∃ message, activeAssistantMessage snapshot turnId = some message ∧
      message.messageId = messageId
  | finish turnId messageId _ => ∃ message,
      activeAssistantMessage snapshot turnId = some message ∧ message.messageId = messageId
  | _ => True

def LiveChange.Sound : LiveChange → Prop
  | create new => new.userMessageId ≠ new.assistantMessageId
  | _ => True

theorem LiveOperation.check_ready (snapshot : AgentSessionLiveSnapshot) (configChanging : Bool)
    (operation : LiveOperation) (change : LiveChange)
    (h : operation.check snapshot configChanging = some change) : change.Ready snapshot := by
  cases operation with
  | createTurn new =>
    simp only [LiveOperation.check, Option.ite_none_left_eq_some] at h
    cases h.2.2.2
    trivial
  | applyAgentConfigOptions options =>
    simp only [LiveOperation.check, Option.ite_none_left_eq_some] at h
    cases h.2
    trivial
  | applyAgentTextChunk turnId text | finishLiveTurn turnId outcome =>
    obtain ⟨message, hmessage, heq⟩ := Option.map_eq_some_iff.mp h
    cases heq
    exact ⟨message, hmessage, rfl⟩
  | updateSession title archived | applyAgentUsage usage | applyRuntimeExit message =>
    cases h
    trivial

theorem activeAssistantMessage_shaped (snapshot : AgentSessionLiveSnapshot) (turnId : ℕ)
    (message : AgentMessage) (hshape : snapshot.Shaped)
    (h : activeAssistantMessage snapshot turnId = some message) :
    ∃ turn user, snapshot.activeTurn = some ⟨turn, [user, message]⟩ ∧ turn.turnId = turnId ∧
      user.role = .user ∧ message.role = .assistant ∧ user.messageId ≠ message.messageId := by
  unfold activeAssistantMessage at h
  obtain ⟨record, hrecord, hfind⟩ := Option.bind_eq_some_iff.mp h
  obtain ⟨hactive, hid⟩ := Option.filter_eq_some_iff.mp hrecord
  obtain ⟨user, assistant, hmessages, huser, hassistant, hne⟩ := hshape record hactive
  rw [hmessages, List.find?_cons_of_neg (by simp [huser]),
    List.find?_cons_of_pos (by simp [hassistant])] at hfind
  cases hfind
  refine ⟨record.turn, user, ?_, of_decide_eq_true hid, huser, hassistant, hne⟩
  rw [hactive, ← hmessages]

theorem LiveChange.commit_seq (row stored : StoredSession) (change : LiveChange)
    (h : change.commit row = some stored) :
    stored.latestSeq = row.latestSeq + change.count ∧ change.Sound := by
  cases change with
  | create new =>
    obtain ⟨hfits, rfl⟩ := LiveChange.commit_create h
    exact ⟨rfl, hfits.2.2⟩
  | chunk turnId messageId text =>
    rw [LiveChange.commit_chunk h]
    exact ⟨rfl, trivial⟩
  | finish turnId messageId outcome | update title archived | config options | usage used
  | exit message =>
    cases h
    exact ⟨rfl, trivial⟩

section
variable (stored : StoredSession) (snapshot : AgentSessionLiveSnapshot) (turn : AgentTurnInfo)
  (user message : AgentMessage)
include stored snapshot turn user message

theorem LiveChange.chunk_write (messageId : ℕ) (text : String)
    (hactive : snapshot.activeTurn = some ⟨turn, [user, message]⟩) (huser : user.role = .user)
    (hassistant : message.role = .assistant) :
    (LiveChange.chunk turn.turnId messageId text).write stored snapshot =
      ({ snapshot with
          activeTurn := some
            ⟨turn, [user, { message with content := message.content ++ [text] }]⟩
          latestSeq := stored.latestSeq
          session := { snapshot.session with updatedAtMs := stored.latestSeq } },
        [.messageContentAppend stored.latestSeq messageId text]) := by
  simp [LiveChange.write, hactive, modifyAssistant, huser, hassistant]

theorem LiveChange.finish_write (turnId : ℕ) (outcome : TurnOutcome)
    (hactive : snapshot.activeTurn = some ⟨turn, [user, message]⟩)
    (hne : user.messageId ≠ message.messageId) :
    (LiveChange.finish turnId message.messageId outcome).write stored snapshot =
      ({ snapshot with
          latestSeq := stored.latestSeq
          session := { snapshot.session with
            turnState := .idle
            updatedAtMs := stored.latestSeq }
          activeTurn := none },
        [.messageUpsert (stored.latestSeq - 1) { message with state := .complete },
          .turnUpsert stored.latestSeq { turn with state := outcome.state }]) := by
  simp [LiveChange.write, hactive, hne]

end

theorem LiveChange.write_shaped (change : LiveChange) (stored : StoredSession)
    (snapshot : AgentSessionLiveSnapshot) (hshape : snapshot.Shaped)
    (hready : change.Ready snapshot) (hsound : change.Sound) :
    (change.write stored snapshot).1.Shaped := by
  cases change with
  | create new =>
    intro record hrecord
    cases hrecord
    exact ⟨new.userMessage, new.assistantMessage, rfl, rfl, rfl, hsound⟩
  | update title archived | config options | usage used | exit message => exact hshape
  | chunk turnId messageId text =>
    obtain ⟨message, hmessage, hid⟩ := hready
    obtain ⟨turn, user, hactive, hturn, huser, hassistant, hne⟩ :=
      activeAssistantMessage_shaped snapshot turnId message hshape hmessage
    rw [← hid, ← hturn, LiveChange.chunk_write stored snapshot turn user message message.messageId
      text hactive huser hassistant]
    intro record hrecord
    cases hrecord
    exact ⟨user, _, rfl, huser, hassistant, hne⟩
  | finish turnId messageId outcome =>
    obtain ⟨message, hmessage, hid⟩ := hready
    obtain ⟨turn, user, hactive, -, -, -, hne⟩ :=
      activeAssistantMessage_shaped snapshot turnId message hshape hmessage
    rw [← hid, LiveChange.finish_write stored snapshot turn user message turnId outcome hactive hne]
    exact fun record hrecord => nomatch hrecord

theorem LiveChange.ready_of_not_keepsLock (change : LiveChange) (snapshot : AgentSessionLiveSnapshot)
    (h : change.keepsLock = false) : change.Ready snapshot := by
  cases change with
  | update title archived => trivial
  | create new | config options | chunk turnId messageId text | usage used
  | finish turnId messageId outcome | exit message => cases h

theorem LiveChange.ready_congr (change : LiveChange) (snapshot other : AgentSessionLiveSnapshot)
    (h : other.activeTurn = snapshot.activeTurn) (hready : change.Ready snapshot) :
    change.Ready other := by
  have hmessage : ∀ turnId, activeAssistantMessage other turnId =
      activeAssistantMessage snapshot turnId := by
    intro turnId
    unfold activeAssistantMessage
    rw [h]
  cases change with
  | chunk turnId messageId text | finish turnId messageId outcome =>
    dsimp only [LiveChange.Ready] at hready ⊢
    rw [hmessage]
    exact hready
  | create new | update title archived | config options | usage used | exit message => trivial

theorem LiveChange.write_activeTurn (change : LiveChange) (stored : StoredSession)
    (snapshot : AgentSessionLiveSnapshot) (h : change.keepsLock = false) :
    (change.write stored snapshot).1.activeTurn = snapshot.activeTurn := by
  cases change with
  | update title archived => rfl
  | create new | config options | chunk turnId messageId text | usage used
  | finish turnId messageId outcome | exit message => cases h

theorem countP_split (p : Publication) (before after : List Publication) :
    (before ++ p :: after).countP (·.change.keepsLock) =
      (before ++ after).countP (·.change.keepsLock) + if p.change.keepsLock then 1 else 0 := by
  rw [List.countP_append, List.countP_append, List.countP_cons]
  omega

def AgentLiveSession.inOrder (live : AgentLiveSession) : LiveStep → Bool
  | .write index => (live.publications.take index).all (·.events.isSome)
  | .send index => (live.publications.take index).all (·.events = some [])
  | _ => true

def Publication.waits (publication : Publication) : Bool := publication.events.isNone

def AgentLiveSession.waiting (live : AgentLiveSession) : List Publication :=
  live.publications.filter (·.waits)

structure AgentLiveSession.Orderly (live : AgentLiveSession) : Prop where
  shaped : live.snapshot.Shaped
  ordered : live.publications.Pairwise fun p q => p.waits = true → q.waits = true
  ready : ∀ p ∈ live.publications, p.waits = true →
    p.change.Ready live.snapshot ∧ p.change.Sound
  checked : ∀ change, live.stateUpdate = .checked change → change.Ready live.snapshot
  exclusive : live.publications.countP (·.change.keepsLock) =
    if live.stateUpdate = .publishing then 1 else 0

inductive AttachedSession.Stepped (attached : AttachedSession) (step : LiveStep)
    (next : AttachedSession) : Prop where
  | none (hstep : ∀ index, step ≠ .write index) (hrow : next.row = attached.row)
    (hsnapshot : next.live.snapshot = attached.live.snapshot)
    (hwaiting : next.live.waiting = attached.live.waiting)
  | commit (change : LiveChange) (hstep : step = .commit true)
    (hchecked : attached.live.stateUpdate = .checked change)
    (hcommit : change.commit attached.row = some next.row)
    (hsnapshot : next.live.snapshot = attached.live.snapshot)
    (hwaiting : next.live.waiting = attached.live.waiting ++ [⟨change, next.row, Option.none⟩])
  | write (index : ℕ) (change : LiveChange) (stored : StoredSession) (hstep : step = .write index)
    (hindex : attached.live.publications[index]? = some ⟨change, stored, Option.none⟩)
    (hrow : next.row = attached.row)
    (hsnapshot : next.live.snapshot = (change.write stored attached.live.snapshot).1)
    (hwaiting : attached.live.waiting = ⟨change, stored, Option.none⟩ :: next.live.waiting)

section
variable {live next : AgentLiveSession}

structure AgentLiveSession.Unwritten (live next : AgentLiveSession) : Prop where
  orderly : next.Orderly
  snapshot : next.snapshot = live.snapshot
  waiting : next.waiting = live.waiting

section
variable (h : live.Orderly)
include h

theorem AgentLiveSession.Orderly.of_same (hsnapshot : next.snapshot = live.snapshot)
    (hpublications : next.publications = live.publications)
    (hchecked : ∀ change, next.stateUpdate = .checked change → change.Ready next.snapshot)
    (hexclusive : next.stateUpdate = .publishing ↔ live.stateUpdate = .publishing) :
    live.Unwritten next := by
  refine ⟨⟨?_, ?_, ?_, hchecked, ?_⟩, hsnapshot, ?_⟩
  · rw [hsnapshot]
    exact h.shaped
  · rw [hpublications]
    exact h.ordered
  · rw [hsnapshot, hpublications]
    exact h.ready
  · rw [hpublications]
    simp only [hexclusive]
    exact h.exclusive
  · unfold AgentLiveSession.waiting
    rw [hpublications]

theorem AgentLiveSession.Orderly.of_call (call : Option ConfigCall) :
    live.Unwritten { live with configCall := call } :=
  h.of_same rfl rfl h.checked Iff.rfl

theorem AgentLiveSession.Orderly.begin (operation : LiveOperation)
    (hstep : live.begin operation = some next) : live.Unwritten next := by
  obtain ⟨hfree, hstep⟩ := Option.ite_none_left_eq_some.mp hstep
  have hfree : live.stateUpdate = .free := Decidable.not_not.mp hfree
  split at hstep
  · rename_i change hcheck
    cases hstep
    refine h.of_same rfl rfl ?_ ?_
    · intro other heq
      cases heq
      exact LiveOperation.check_ready _ _ operation change hcheck
    · rw [hfree]
      exact ⟨nofun, nofun⟩
  · cases hstep
    exact ⟨h, rfl, rfl⟩

theorem AgentLiveSession.Orderly.checkConfig (valid : Bool)
    (hstep : live.checkConfig valid = some next) : live.Unwritten next := by
  unfold AgentLiveSession.checkConfig at hstep
  split at hstep
  · obtain ⟨-, hstep⟩ := Option.ite_none_left_eq_some.mp hstep
    split at hstep
    · cases hstep
      exact h.of_call none
    · cases hstep
      exact h.of_call (some .await)
  · cases hstep

theorem AgentLiveSession.Orderly.answerConfig (options : Option (List AgentConfigOption))
    (hstep : live.answerConfig options = some next) : live.Unwritten next := by
  obtain ⟨-, hstep⟩ := Option.ite_none_right_eq_some.mp hstep
  cases options with
  | none =>
    cases hstep
    exact h.of_call none
  | some options =>
    have hcall := h.of_call (some .apply)
    have hbegin := hcall.orderly.begin _ hstep
    exact ⟨hbegin.orderly, hbegin.snapshot, hbegin.waiting⟩

theorem AgentLiveSession.Orderly.alone (change : LiveChange)
    (hchecked : live.stateUpdate = .checked change) :
    ∀ p ∈ live.publications, p.change.keepsLock = false := by
  have hcount := h.exclusive
  rw [hchecked, if_neg nofun] at hcount
  intro p hp
  have hnot := List.countP_eq_zero.mp hcount p hp
  simpa using hnot

theorem AgentLiveSession.Orderly.first_waits (index : ℕ) (p : Publication)
    (horder : live.inOrder (.write index) = true) (hindex : live.publications[index]? = some p)
    (hwaits : p.waits = true) :
    ∃ before after, live.publications = before ++ p :: after ∧
      (∀ other, live.publications.set index other = before ++ other :: after) ∧
      (∀ b ∈ before, b.waits = false) ∧ ∀ q ∈ after, q.waits = true := by
  obtain ⟨before, after, hsplit, htake, hset, -⟩ := Calls.exists_split hindex
  refine ⟨before, after, hsplit, hset, ?_, ?_⟩
  · intro b hb
    have hsome := List.all_eq_true.mp horder b (htake ▸ hb)
    unfold Publication.waits
    rw [Option.isNone_eq_false_iff]
    exact hsome
  · have hordered := h.ordered
    rw [hsplit] at hordered
    intro q hq
    exact (List.pairwise_cons.mp (List.pairwise_append.mp hordered).2.1).1 q hq hwaits

end

theorem waiting_split (before after : List Publication) (p : Publication)
    (hbefore : ∀ b ∈ before, b.waits = false) (hafter : ∀ q ∈ after, q.waits = true) :
    (before ++ p :: after).filter (·.waits) =
      if p.waits then p :: after else after := by
  have hfilter : before.filter (·.waits) = [] := by
    rw [List.filter_eq_nil_iff]
    intro b hb
    rw [hbefore b hb]
    exact nofun
  have hrest : after.filter (·.waits) = after := List.filter_eq_self.mpr hafter
  rw [List.filter_append, hfilter, List.nil_append, List.filter_cons, hrest]

theorem AgentLiveSession.Orderly.ready_after (h : live.Orderly) (before after : List Publication)
    (change : LiveChange) (stored : StoredSession) (events : Option (List AgentSessionEvent))
    (hsplit : live.publications = before ++ ⟨change, stored, events⟩ :: after)
    (q : Publication) (hq : q ∈ after) (hready : q.change.Ready live.snapshot) :
    q.change.Ready (change.write stored live.snapshot).1 := by
  cases hkeeps : change.keepsLock with
  | false => exact q.change.ready_congr _ _ (change.write_activeTurn stored _ hkeeps) hready
  | true =>
    -- the lock is this change's, so the other is no change that keeps it
    apply q.change.ready_of_not_keepsLock
    have hcount := h.exclusive
    rw [hsplit, countP_split, if_pos hkeeps] at hcount
    have hothers : (before ++ after).countP (·.change.keepsLock) = 0 := by
      split at hcount
      · omega
      · omega
    have hnot := List.countP_eq_zero.mp hothers q (List.mem_append_right _ hq)
    simpa using hnot

theorem AgentLiveSession.Orderly.write (h : live.Orderly) (index : ℕ)
    (horder : live.inOrder (.write index) = true) (hstep : live.write index = some next) :
    next.Orderly ∧ ∃ change stored, live.publications[index]? = some ⟨change, stored, none⟩ ∧
      next.snapshot = (change.write stored live.snapshot).1 ∧
      live.waiting = ⟨change, stored, none⟩ :: next.waiting := by
  unfold AgentLiveSession.write at hstep
  split at hstep
  · rename_i change stored hindex
    obtain ⟨before, after, hsplit, hset, hbefore, hafter⟩ :=
      h.first_waits index _ horder hindex rfl
    obtain ⟨hready, hsound⟩ := h.ready _ (Calls.mem hindex) rfl
    have hordered := h.ordered
    have hcount := h.exclusive
    rw [hsplit] at hordered
    rw [hsplit, countP_split] at hcount
    cases hstep
    refine ⟨⟨?_, ?_, ?_, ?_, ?_⟩, change, stored, hindex, rfl, ?_⟩
    · exact change.write_shaped stored live.snapshot h.shaped hready hsound
    · dsimp only
      rw [hset]
      obtain ⟨hfirst, hsecond, hcross⟩ := List.pairwise_append.mp hordered
      refine List.pairwise_append.mpr ⟨hfirst, ?_, ?_⟩
      · refine List.pairwise_cons.mpr ⟨?_, (List.pairwise_cons.mp hsecond).2⟩
        intro q _ hwaits
        cases hwaits
      · intro p hp q _ hwaits
        rw [hbefore p hp] at hwaits
        cases hwaits
    · dsimp only
      rw [hset]
      intro q hq hwaits
      have hq : q ∈ after := by
        rcases List.mem_append.mp hq with hq | hq
        · rw [hbefore q hq] at hwaits
          cases hwaits
        · rcases List.mem_cons.mp hq with heq | hq
          · rw [heq] at hwaits
            cases hwaits
          · exact hq
      have hold := h.ready q (by rw [hsplit]; simp [hq]) hwaits
      exact ⟨h.ready_after before after change stored none hsplit q hq hold.1, hold.2⟩
    · intro other heq
      have hkeeps := h.alone other heq _ (Calls.mem hindex)
      exact other.ready_congr _ _ (change.write_activeTurn stored _ hkeeps) (h.checked other heq)
    · dsimp only
      rw [hset, countP_split]
      exact hcount
    · unfold AgentLiveSession.waiting
      dsimp only
      rw [hset, hsplit, waiting_split before after _ hbefore hafter,
        waiting_split before after _ hbefore hafter]
      rfl
  · cases hstep

theorem AgentLiveSession.Orderly.of_waiting (h : live.Orderly)
    (hsnapshot : next.snapshot = live.snapshot) (hwaiting : next.waiting = live.waiting)
    (hordered : next.publications.Pairwise fun p q => p.waits = true → q.waits = true)
    (hchecked : ∀ change, next.stateUpdate = .checked change →
      live.stateUpdate = .checked change)
    (hexclusive : next.publications.countP (·.change.keepsLock) =
      if next.stateUpdate = .publishing then 1 else 0) : live.Unwritten next := by
  refine ⟨⟨?_, hordered, ?_, ?_, hexclusive⟩, hsnapshot, hwaiting⟩
  · rw [hsnapshot]
    exact h.shaped
  · intro p hp hwaits
    have hmem : p ∈ next.waiting := List.mem_filter.mpr ⟨hp, hwaits⟩
    rw [hwaiting] at hmem
    rw [hsnapshot]
    exact h.ready p (List.mem_of_mem_filter hmem) hwaits
  · intro change heq
    rw [hsnapshot]
    exact h.checked change (hchecked change heq)

theorem AgentLiveSession.Orderly.send (h : live.Orderly) (index : ℕ)
    (hstep : live.send index = some next) : live.Unwritten next := by
  unfold AgentLiveSession.send at hstep
  split at hstep
  · rename_i change stored event events hindex
    obtain ⟨before, after, hsplit, -, hset, -⟩ := Calls.exists_split hindex
    have hordered := h.ordered
    have hcount := h.exclusive
    rw [hsplit] at hordered
    rw [hsplit, countP_split] at hcount
    cases hstep
    have hwaiting : AgentLiveSession.waiting { live with
        sent := live.sent ++ [event]
        publications := live.publications.set index ⟨change, stored, some events⟩ } =
          live.waiting := by
      unfold AgentLiveSession.waiting
      dsimp only
      rw [hset, hsplit, List.filter_append, List.filter_append]
      rfl
    refine h.of_waiting rfl hwaiting ?_ (fun _ heq => heq) ?_
    · dsimp only
      rw [hset]
      obtain ⟨hfirst, hsecond, hcross⟩ := List.pairwise_append.mp hordered
      refine List.pairwise_append.mpr
        ⟨hfirst, List.pairwise_cons.mpr ⟨?_, (List.pairwise_cons.mp hsecond).2⟩, ?_⟩
      · intro q _ hwaits
        cases hwaits
      · intro p hp q hq hwaits
        rcases List.mem_cons.mp hq with heq | hq
        · have hnone := hcross p hp _ List.mem_cons_self hwaits
          cases hnone
        · exact hcross p hp q (List.mem_cons_of_mem _ hq) hwaits
    · dsimp only
      rw [hset, countP_split]
      exact hcount
  · cases hstep

theorem AgentLiveSession.Orderly.drop (h : live.Orderly) (index : ℕ)
    (hstep : live.drop index = some next) : live.Unwritten next := by
  unfold AgentLiveSession.drop at hstep
  split at hstep
  · rename_i change stored hindex
    obtain ⟨before, after, hsplit, -, -, herase⟩ := Calls.exists_split hindex
    have hordered := h.ordered
    have hcount := h.exclusive
    rw [hsplit] at hordered
    rw [hsplit, countP_split] at hcount
    dsimp only at hcount
    cases hstep
    have hwaiting : AgentLiveSession.waiting { live with
        stateUpdate := if change.keepsLock then .free else live.stateUpdate
        publications := live.publications.eraseIdx index } = live.waiting := by
      unfold AgentLiveSession.waiting
      dsimp only
      rw [herase, hsplit, List.filter_append, List.filter_append]
      rfl
    refine h.of_waiting rfl hwaiting ?_ ?_ ?_
    · dsimp only
      rw [herase]
      exact hordered.sublist ((List.sublist_cons_self _ _).append_left before)
    · intro other heq
      dsimp only at heq
      split at heq
      · cases heq
      · exact heq
    · dsimp only
      rw [herase]
      cases hkeeps : change.keepsLock with
      | false =>
        rw [hkeeps] at hcount
        exact hcount
      | true =>
        rw [hkeeps, if_pos rfl] at hcount
        have hfree : ¬ StateUpdate.free = .publishing := nofun
        rw [if_pos rfl, if_neg hfree]
        split at hcount
        · omega
        · omega
  · cases hstep

end

section
variable {attached next : AttachedSession}

theorem AttachedSession.commit_stepped (ok : Bool) (hstep : attached.commit ok = some next) :
    attached.Stepped (.commit ok) next := by
  unfold AttachedSession.commit at hstep
  split at hstep
  · rename_i change hchecked
    split at hstep
    · cases hstep
      exact .none nofun rfl rfl rfl
    · rename_i stored hcommit
      obtain ⟨hok, hcommit⟩ := Option.ite_none_right_eq_some.mp hcommit
      cases hstep
      refine .commit change (by rw [hok]) hchecked hcommit rfl ?_
      unfold AgentLiveSession.waiting
      rw [List.filter_append]
      rfl
  · cases hstep

theorem AttachedSession.commit_orderly (h : attached.live.Orderly) (ok : Bool)
    (hstep : attached.commit ok = some next) : next.live.Orderly := by
  unfold AttachedSession.commit at hstep
  split at hstep
  · rename_i change hchecked
    split at hstep
    · cases hstep
      have hfreed : attached.live.Unwritten { attached.live with stateUpdate := .free } := by
        refine h.of_same rfl rfl nofun ?_
        rw [hchecked]
        exact ⟨nofun, nofun⟩
      exact hfreed.orderly
    · rename_i stored hcommit
      obtain ⟨-, hcommit⟩ := Option.ite_none_right_eq_some.mp hcommit
      obtain ⟨-, hsound⟩ := LiveChange.commit_seq _ _ _ hcommit
      have hnone : attached.live.publications.countP (·.change.keepsLock) = 0 := by
        rw [h.exclusive, hchecked, if_neg nofun]
      cases hstep
      refine ⟨h.shaped, ?_, ?_, ?_, ?_⟩
      · refine List.pairwise_append.mpr ⟨h.ordered, List.pairwise_singleton _ _, ?_⟩
        intro p _ q hq _
        rw [List.mem_singleton.mp hq]
        rfl
      · intro p hp hwaits
        rcases List.mem_append.mp hp with hp | hp
        · exact h.ready p hp hwaits
        · rw [List.mem_singleton.mp hp]
          exact ⟨h.checked change hchecked, hsound⟩
      · intro other heq
        dsimp only at heq
        split at heq
        · cases heq
        · cases heq
      · rw [List.countP_append, hnone, List.countP_singleton]
        cases hkeeps : change.keepsLock with
        | true | false => simp
  · cases hstep

theorem AgentLiveSession.Unwritten.stepped {step : LiveStep} {live : AgentLiveSession}
    (h : attached.live.Unwritten live) (hstep : ∀ index, step ≠ .write index) :
    live.Orderly ∧ attached.Stepped step { attached with live := live } :=
  ⟨h.orderly, .none hstep rfl h.snapshot h.waiting⟩

theorem AttachedSession.orderly_step (h : attached.live.Orderly) (step : LiveStep)
    (horder : ∀ index, step = .write index → attached.live.inOrder step = true)
    (hstep : attached.step step = some next) : next.live.Orderly ∧ attached.Stepped step next := by
  cases step with
  | begin operation =>
    obtain ⟨live, hlive, heq⟩ := Option.map_eq_some_iff.mp hstep
    rw [← heq]
    exact (h.begin operation hlive).stepped nofun
  | commit ok => exact ⟨commit_orderly h ok hstep, commit_stepped ok hstep⟩
  | write index =>
    obtain ⟨live, hlive, heq⟩ := Option.map_eq_some_iff.mp hstep
    rw [← heq]
    obtain ⟨horderly, change, stored, hindex, hsnapshot, hwaiting⟩ :=
      h.write index (horder index rfl) hlive
    exact ⟨horderly, .write index change stored rfl hindex rfl hsnapshot hwaiting⟩
  | send index =>
    obtain ⟨live, hlive, heq⟩ := Option.map_eq_some_iff.mp hstep
    rw [← heq]
    exact (h.send index hlive).stepped nofun
  | drop index =>
    obtain ⟨live, hlive, heq⟩ := Option.map_eq_some_iff.mp hstep
    rw [← heq]
    exact (h.drop index hlive).stepped nofun
  | setSessionConfig configId =>
    dsimp only [AttachedSession.step] at hstep
    split at hstep
    · cases hstep
      exact ⟨h, .none nofun rfl rfl rfl⟩
    · cases hstep
      exact (h.of_call _).stepped nofun
  | checkConfig valid =>
    obtain ⟨live, hlive, heq⟩ := Option.map_eq_some_iff.mp hstep
    rw [← heq]
    exact (h.checkConfig valid hlive).stepped nofun
  | answerConfig options =>
    obtain ⟨live, hlive, heq⟩ := Option.map_eq_some_iff.mp hstep
    rw [← heq]
    exact (h.answerConfig options hlive).stepped nofun
  | dropConfig =>
    obtain ⟨-, hstep⟩ := Option.ite_none_right_eq_some.mp hstep
    cases hstep
    exact (h.of_call none).stepped nofun
  | subscribe =>
    cases hstep
    refine AgentLiveSession.Unwritten.stepped ?_ nofun
    exact h.of_same rfl rfl h.checked Iff.rfl
  | readSnapshot index =>
    obtain ⟨live, hlive, heq⟩ := Option.map_eq_some_iff.mp hstep
    obtain ⟨since, -, hlive⟩ := Option.map_eq_some_iff.mp hlive
    rw [← heq, ← hlive]
    refine AgentLiveSession.Unwritten.stepped ?_ nofun
    exact h.of_same rfl rfl h.checked Iff.rfl

theorem AttachedSession.step_row (attached next : AttachedSession) (step : LiveStep)
    (hcommit : ∀ ok, step ≠ .commit ok) (h : attached.step step = some next) :
    next.row = attached.row := by
  have honLive : ∀ live, attached.onLive live = some next → next.row = attached.row := by
    intro live h
    obtain ⟨live, -, heq⟩ := Option.map_eq_some_iff.mp h
    rw [← heq]
  cases step with
  | commit ok => exact absurd rfl (hcommit ok)
  | begin operation | write index | send index | drop index | checkConfig valid
  | answerConfig options | subscribe | readSnapshot index => exact honLive _ h
  | setSessionConfig configId =>
    dsimp only [AttachedSession.step] at h
    split at h
    · cases h
      rfl
    · exact honLive _ h
  | dropConfig =>
    obtain ⟨-, h⟩ := Option.ite_none_right_eq_some.mp h
    exact honLive _ h

theorem AgentLiveSession.started_orderly (snapshot : AgentSessionLiveSnapshot)
    (hturn : snapshot.activeTurn = none) : (AgentLiveSession.started snapshot).Orderly := by
  refine ⟨?_, List.Pairwise.nil, fun _ h => (nomatch h), fun _ h => (nomatch h), rfl⟩
  intro record hrecord
  rw [show snapshot.activeTurn = some record from hrecord] at hturn
  cases hturn

end

end Rieul.Agent
