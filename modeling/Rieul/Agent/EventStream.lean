import Rieul.Agent.Publication
import Rieul.Lib.Feed
import Rieul.Lib.System

/-!
# The events of a live session

What was sent and what is still to be sent of the changes written to the snapshot are a feed of
it, as long as snapshots are written and events sent in the order of the transactions.
-/

namespace Rieul.Agent

/-- A snapshot without the time of its last change, for which there is no event. -/
def AgentSessionLiveSnapshot.untimed (snapshot : AgentSessionLiveSnapshot) :
    AgentSessionLiveSnapshot :=
  { snapshot with session := { snapshot.session with updatedAtMs := 0 } }

theorem AgentSessionEvent.apply_untimed (event : AgentSessionEvent)
    (snapshot other : AgentSessionLiveSnapshot) (h : snapshot.untimed = other.untimed) :
    (event.apply snapshot).untimed = (event.apply other).untimed := by
  simp only [AgentSessionLiveSnapshot.untimed, AgentSessionLiveSnapshot.mk.injEq,
    AgentSessionInfo.mk.injEq] at h
  cases event <;> simp [AgentSessionEvent.apply, AgentSessionLiveSnapshot.untimed, h]
  split <;> simp

theorem foldl_untimed (events : List AgentSessionEvent) (snapshot other : AgentSessionLiveSnapshot)
    (h : snapshot.untimed = other.untimed) :
    (events.foldl AgentSessionEvent.apply snapshot).untimed =
      (events.foldl AgentSessionEvent.apply other).untimed := by
  induction events generalizing snapshot other with
  | nil => exact h
  | cons event events ih => exact ih _ _ (event.apply_untimed snapshot other h)

structure LiveChange.Told (change : LiveChange) (stored : StoredSession)
    (snapshot : AgentSessionLiveSnapshot) : Prop where
  shaped : (change.write stored snapshot).1.Shaped
  latest : (change.write stored snapshot).1.latestSeq = stored.latestSeq
  follows : Feed.Follows AgentSessionEvent.seq snapshot.latestSeq (change.write stored snapshot).2
  count : (change.write stored snapshot).2.length = change.count
  folded : ((change.write stored snapshot).2.foldl AgentSessionEvent.apply snapshot).untimed =
    (change.write stored snapshot).1.untimed

theorem LiveChange.told_of_one (change : LiveChange) (stored : StoredSession)
    (snapshot : AgentSessionLiveSnapshot) (event : AgentSessionEvent)
    (hshaped : (change.write stored snapshot).1.Shaped) (hcount : change.count = 1)
    (hseq : stored.latestSeq = snapshot.latestSeq + 1)
    (hevents : (change.write stored snapshot).2 = [event]) (hevent : event.seq = stored.latestSeq)
    (hlatest : (change.write stored snapshot).1.latestSeq = stored.latestSeq)
    (hfold : (event.apply snapshot).untimed = (change.write stored snapshot).1.untimed) :
    change.Told stored snapshot := by
  refine ⟨hshaped, hlatest, ?_, ?_, ?_⟩
  · rw [hevents]
    show [event.seq] = [snapshot.latestSeq + 1]
    rw [hevent, hseq]
  · rw [hevents, hcount]
    rfl
  · rw [hevents]
    exact hfold

theorem LiveChange.write_told (change : LiveChange) (stored : StoredSession)
    (snapshot : AgentSessionLiveSnapshot) (hshape : snapshot.Shaped)
    (hready : change.Ready snapshot) (hsound : change.Sound)
    (hseq : stored.latestSeq = snapshot.latestSeq + change.count) :
    change.Told stored snapshot := by
  have hshaped := change.write_shaped stored snapshot hshape hready hsound
  cases change with
  | create new =>
    have hcount : stored.latestSeq = snapshot.latestSeq + 3 := hseq
    refine ⟨hshaped, rfl, ?_, rfl, ?_⟩
    · show [stored.latestSeq - 2, stored.latestSeq - 1, stored.latestSeq] =
        [snapshot.latestSeq + 1, snapshot.latestSeq + 1 + 1, snapshot.latestSeq + 1 + 1 + 1]
      simp only [List.cons.injEq, and_true]
      omega
    · -- the two messages join the turn one after the other
      have hne : (new.userMessage.messageId = new.assistantMessage.messageId) = False :=
        eq_false hsound
      simp [LiveChange.write, AgentSessionEvent.apply, AgentTurnRecord.upsertMessage, hne,
        AgentSessionLiveSnapshot.untimed]
  | update title archived | config options | usage used | exit message =>
    exact told_of_one _ _ _ _ hshaped rfl hseq rfl rfl rfl rfl
  | chunk turnId messageId text =>
    have hcount : stored.latestSeq = snapshot.latestSeq + 1 := hseq
    obtain ⟨message, hmessage, hid⟩ := hready
    obtain ⟨turn, user, hactive, hturn, huser, hassistant, hne⟩ :=
      activeAssistantMessage_shaped snapshot turnId message hshape hmessage
    rw [← hid, ← hturn]
    have hwrite := LiveChange.chunk_write stored snapshot turn user message message.messageId text
      hactive huser hassistant
    refine ⟨hid ▸ hturn ▸ hshaped, ?_, ?_, ?_, ?_⟩
    · rw [hwrite]
    · rw [hwrite]
      show [stored.latestSeq] = [snapshot.latestSeq + 1]
      rw [hcount]
    · rw [hwrite]
      rfl
    · rw [hwrite]
      simp [AgentSessionEvent.apply, hactive, hne, AgentSessionLiveSnapshot.untimed]
  | finish turnId messageId outcome =>
    have hcount : stored.latestSeq = snapshot.latestSeq + 2 := hseq
    obtain ⟨message, hmessage, hid⟩ := hready
    obtain ⟨turn, user, hactive, hturn, huser, hassistant, hne⟩ :=
      activeAssistantMessage_shaped snapshot turnId message hshape hmessage
    have hstate : outcome.state ≠ .running := by
      cases outcome with
      | finished stopReason | failed failure => simp [TurnOutcome.state]
    rw [← hid]
    have hwrite := LiveChange.finish_write stored snapshot turn user message turnId outcome hactive
      hne
    refine ⟨hid ▸ hshaped, ?_, ?_, ?_, ?_⟩
    · rw [hwrite]
    · rw [hwrite]
      show [stored.latestSeq - 1, stored.latestSeq] =
        [snapshot.latestSeq + 1, snapshot.latestSeq + 1 + 1]
      simp only [List.cons.injEq, and_true]
      omega
    · rw [hwrite]
      rfl
    · rw [hwrite]
      simp [AgentSessionEvent.apply, hstate, AgentSessionLiveSnapshot.untimed]

def AgentLiveSession.pending (live : AgentLiveSession) : List AgentSessionEvent :=
  live.publications.flatMap (·.events.getD [])

def AgentLiveSession.told (live : AgentLiveSession) : List AgentSessionEvent :=
  live.sent ++ live.pending

def AttachedSession.stepInOrder (attached : AttachedSession) (step : LiveStep) :
    Option AttachedSession :=
  if attached.live.inOrder step then attached.step step else none

def AgentLiveSession.idle (live : AgentLiveSession) : Prop :=
  live.publications = [] ∧ live.stateUpdate = .free

def SessionSubscriber.view (subscriber : SessionSubscriber) (sent : List AgentSessionEvent) :
    AgentSessionLiveSnapshot :=
  Feed.view AgentSessionEvent.apply AgentSessionEvent.seq subscriber.snapshot
    subscriber.snapshot.latestSeq (sent.drop subscriber.since)

/-- The transactions after the one with number `first` up to the one with number `last`. -/
def Chained (first last : ℕ) : List Publication → Prop
  | [] => first = last
  | publication :: rest =>
    publication.stored.latestSeq = first + publication.change.count ∧
      Chained publication.stored.latestSeq last rest

theorem Chained.append (first last : ℕ) (publications : List Publication) (new : Publication)
    (h : Chained first last publications)
    (hnew : new.stored.latestSeq = last + new.change.count) :
    Chained first new.stored.latestSeq (publications ++ [new]) := by
  induction publications generalizing first with
  | nil =>
    have hfirst : first = last := h
    rw [← hfirst] at hnew
    exact ⟨hnew, rfl⟩
  | cons publication rest ih => exact ⟨h.1, ih _ h.2⟩
structure AttachedSession.Streamed (initial : AgentSessionLiveSnapshot)
    (attached : AttachedSession) : Prop where
  shaped : attached.live.snapshot.Shaped
  follows : Feed.Follows AgentSessionEvent.seq initial.latestSeq attached.live.told
  folded : (attached.live.told.foldl AgentSessionEvent.apply initial).untimed =
    attached.live.snapshot.untimed
  latest : attached.live.snapshot.latestSeq = initial.latestSeq + attached.live.told.length
  chained : Chained attached.live.snapshot.latestSeq attached.row.latestSeq
    (attached.live.publications.filter (·.waits))
  ordered : attached.live.publications.Pairwise fun p q => p.waits = true → q.waits = true
  ready : ∀ p ∈ attached.live.publications, p.waits = true →
    p.change.Ready attached.live.snapshot ∧ p.change.Sound
  checked : ∀ change, attached.live.stateUpdate = .checked change →
    change.Ready attached.live.snapshot
  exclusive : attached.live.publications.countP (·.change.keepsLock) =
    if attached.live.stateUpdate = .publishing then 1 else 0
  joining : ∀ since ∈ attached.live.joining, since ≤ attached.live.sent.length
  subscribers : ∀ subscriber ∈ attached.live.subscribers, ∃ n,
    subscriber.since ≤ n ∧ n ≤ attached.live.told.length ∧
    subscriber.snapshot.untimed =
      ((attached.live.told.take n).foldl AgentSessionEvent.apply initial).untimed ∧
    subscriber.snapshot.latestSeq = initial.latestSeq + n

section
variable {initial : AgentSessionLiveSnapshot} {attached next : AttachedSession}

theorem AttachedSession.Streamed.orderly (h : attached.Streamed initial) :
    attached.live.Orderly :=
  ⟨h.shaped, h.ordered, h.ready, h.checked, h.exclusive⟩

structure AttachedSession.Untold (attached next : AttachedSession) : Prop where
  told : next.live.told = attached.live.told
  sent : attached.live.sent.length ≤ next.live.sent.length
  joining : ∀ since ∈ next.live.joining,
    since ∈ attached.live.joining ∨ since = attached.live.sent.length
  subscribers : ∀ subscriber ∈ next.live.subscribers, subscriber ∈ attached.live.subscribers ∨
    subscriber.since ∈ attached.live.joining ∧ subscriber.snapshot = attached.live.snapshot

theorem AttachedSession.Untold.of_same (live : AgentLiveSession)
    (hpublications : live.publications = attached.live.publications)
    (hsent : live.sent = attached.live.sent) (hjoining : live.joining = attached.live.joining)
    (hsubscribers : live.subscribers = attached.live.subscribers) :
    attached.Untold { attached with live := live } := by
  refine ⟨?_, Nat.le_of_eq (by rw [hsent]), ?_, ?_⟩
  · unfold AgentLiveSession.told AgentLiveSession.pending
    rw [hpublications, hsent]
  · rw [hjoining]
    exact fun _ hmem => .inl hmem
  · rw [hsubscribers]
    exact fun _ hmem => .inl hmem

theorem AttachedSession.begin_untold (live : AgentLiveSession) (operation : LiveOperation)
    (hstep : attached.live.begin operation = some live) :
    attached.Untold { attached with live := live } := by
  obtain ⟨-, hstep⟩ := Option.ite_none_left_eq_some.mp hstep
  split at hstep
  · cases hstep
    exact .of_same _ rfl rfl rfl rfl
  · cases hstep
    exact .of_same _ rfl rfl rfl rfl

theorem AttachedSession.commit_untold (ok : Bool) (hstep : attached.commit ok = some next) :
    attached.Untold next := by
  unfold AttachedSession.commit at hstep
  split at hstep
  · split at hstep
    · cases hstep
      exact .of_same _ rfl rfl rfl rfl
    · cases hstep
      refine ⟨?_, Nat.le_refl _, fun _ hmem => .inl hmem, fun _ hmem => .inl hmem⟩
      simp [AgentLiveSession.told, AgentLiveSession.pending]
  · cases hstep

theorem AttachedSession.send_untold (index : ℕ) (live : AgentLiveSession)
    (horder : attached.live.inOrder (.send index) = true)
    (hstep : attached.live.send index = some live) :
    attached.Untold { attached with live := live } := by
  unfold AgentLiveSession.send at hstep
  split at hstep
  · rename_i change stored event events hindex
    obtain ⟨before, after, hsplit, htake, hset, -⟩ := Calls.exists_split hindex
    cases hstep
    have hsent : before.flatMap (·.events.getD []) = [] := by
      rw [List.flatMap_eq_nil_iff]
      intro p hp
      have hnil := List.all_eq_true.mp horder p (htake ▸ hp)
      rw [of_decide_eq_true hnil]
      rfl
    refine ⟨?_, ?_, fun _ hmem => .inl hmem, fun _ hmem => .inl hmem⟩
    · unfold AgentLiveSession.told AgentLiveSession.pending
      dsimp only
      rw [hset, hsplit]
      simp [hsent]
    · simp
  · cases hstep

theorem AttachedSession.drop_untold (index : ℕ) (live : AgentLiveSession)
    (hstep : attached.live.drop index = some live) :
    attached.Untold { attached with live := live } := by
  unfold AgentLiveSession.drop at hstep
  split at hstep
  · rename_i change stored hindex
    obtain ⟨before, after, hsplit, -, -, herase⟩ := Calls.exists_split hindex
    cases hstep
    refine ⟨?_, Nat.le_refl _, fun _ hmem => .inl hmem, fun _ hmem => .inl hmem⟩
    unfold AgentLiveSession.told AgentLiveSession.pending
    dsimp only
    rw [herase, hsplit]
    simp
  · cases hstep

theorem AttachedSession.step_untold (step : LiveStep) (hwrite : ∀ index, step ≠ .write index)
    (hstep : attached.stepInOrder step = some next) : attached.Untold next := by
  obtain ⟨horder, hstep⟩ := Option.ite_none_right_eq_some.mp hstep
  cases step with
  | begin operation =>
    obtain ⟨live, hlive, heq⟩ := Option.map_eq_some_iff.mp hstep
    rw [← heq]
    exact begin_untold live operation hlive
  | commit ok => exact commit_untold ok hstep
  | write index => exact absurd rfl (hwrite index)
  | send index =>
    obtain ⟨live, hlive, heq⟩ := Option.map_eq_some_iff.mp hstep
    rw [← heq]
    exact send_untold index live horder hlive
  | drop index =>
    obtain ⟨live, hlive, heq⟩ := Option.map_eq_some_iff.mp hstep
    rw [← heq]
    exact drop_untold index live hlive
  | setSessionConfig configId =>
    dsimp only [AttachedSession.step] at hstep
    split at hstep
    · cases hstep
      exact .of_same _ rfl rfl rfl rfl
    · cases hstep
      exact .of_same _ rfl rfl rfl rfl
  | checkConfig valid =>
    obtain ⟨live, hlive, heq⟩ := Option.map_eq_some_iff.mp hstep
    rw [← heq]
    unfold AgentLiveSession.checkConfig at hlive
    split at hlive
    · obtain ⟨-, hlive⟩ := Option.ite_none_left_eq_some.mp hlive
      split at hlive
      · cases hlive
        exact .of_same _ rfl rfl rfl rfl
      · cases hlive
        exact .of_same _ rfl rfl rfl rfl
    · cases hlive
  | answerConfig options =>
    obtain ⟨live, hlive, heq⟩ := Option.map_eq_some_iff.mp hstep
    rw [← heq]
    obtain ⟨-, hlive⟩ := Option.ite_none_right_eq_some.mp hlive
    cases options with
    | none =>
      cases hlive
      exact .of_same _ rfl rfl rfl rfl
    | some options =>
      have hbegin := @begin_untold ⟨attached.row, { attached.live with configCall := some .apply }⟩
        live _ hlive
      exact ⟨hbegin.told, hbegin.sent, hbegin.joining, hbegin.subscribers⟩
  | dropConfig =>
    obtain ⟨-, hstep⟩ := Option.ite_none_right_eq_some.mp hstep
    cases hstep
    exact .of_same _ rfl rfl rfl rfl
  | subscribe =>
    cases hstep
    refine ⟨rfl, Nat.le_refl _, ?_, fun _ hmem => .inl hmem⟩
    intro since hmem
    exact (List.mem_append.mp hmem).imp_right List.mem_singleton.mp
  | readSnapshot index =>
    obtain ⟨live, hlive, heq⟩ := Option.map_eq_some_iff.mp hstep
    obtain ⟨since, hsince, hlive⟩ := Option.map_eq_some_iff.mp hlive
    rw [← heq, ← hlive]
    refine ⟨rfl, Nat.le_refl _, fun _ hmem => .inl (List.mem_of_mem_eraseIdx hmem), ?_⟩
    intro subscriber hmem
    refine (List.mem_append.mp hmem).imp_right fun hnew => ?_
    rw [List.mem_singleton.mp hnew]
    exact ⟨Calls.mem hsince, rfl⟩

section
variable (h : attached.Streamed initial)
include h

theorem AttachedSession.Streamed.of_untold
    (horderly : next.live.Orderly) (huntold : attached.Untold next)
    (hsnapshot : next.live.snapshot = attached.live.snapshot)
    (hchained : Chained next.live.snapshot.latestSeq next.row.latestSeq next.live.waiting) :
    next.Streamed initial := by
  refine ⟨horderly.shaped, ?_, ?_, ?_, hchained, horderly.ordered, horderly.ready,
    horderly.checked, horderly.exclusive, ?_, ?_⟩
  · rw [huntold.told]
    exact h.follows
  · rw [huntold.told, hsnapshot]
    exact h.folded
  · rw [huntold.told, hsnapshot]
    exact h.latest
  · intro since hmem
    have hsent := huntold.sent
    rcases huntold.joining since hmem with hold | hnew
    · have hle := h.joining since hold
      omega
    · omega
  · rw [huntold.told]
    intro subscriber hmem
    rcases huntold.subscribers subscriber hmem with hold | ⟨hsince, heq⟩
    · exact h.subscribers subscriber hold
    · have hle := h.joining _ hsince
      refine ⟨attached.live.told.length, ?_, Nat.le_refl _, ?_, ?_⟩
      · unfold AgentLiveSession.told
        rw [List.length_append]
        omega
      · rw [List.take_length, heq]
        exact h.folded.symm
      · rw [heq]
        exact h.latest

theorem AttachedSession.Streamed.first_told (index : ℕ)
    (change : LiveChange) (stored : StoredSession) (rest : List Publication)
    (hindex : attached.live.publications[index]? = some ⟨change, stored, none⟩)
    (hwaiting : attached.live.waiting = ⟨change, stored, none⟩ :: rest) :
    change.Told stored attached.live.snapshot ∧
      stored.latestSeq = attached.live.snapshot.latestSeq + change.count ∧
      Chained stored.latestSeq attached.row.latestSeq rest := by
  have hchained : Chained _ _ attached.live.waiting := h.chained
  rw [hwaiting] at hchained
  obtain ⟨hready, hsound⟩ := h.ready _ (Calls.mem hindex) rfl
  refine ⟨?_, hchained.1, hchained.2⟩
  exact change.write_told stored attached.live.snapshot h.shaped hready hsound hchained.1

theorem AttachedSession.Streamed.write (index : ℕ)
    (live : AgentLiveSession) (horder : attached.live.inOrder (.write index) = true)
    (hstep : attached.live.write index = some live) :
    ({ attached with live := live } : AttachedSession).Streamed initial := by
  obtain ⟨horderly, change, stored, hindex, hsnapshot, hwaiting⟩ :=
    h.orderly.write index horder hstep
  obtain ⟨htold, hseq, hchained⟩ := h.first_told index change stored _ hindex hwaiting
  obtain ⟨before, after, hsplit, hset, hbefore, hafter⟩ :=
    h.orderly.first_waits index _ horder hindex rfl
  have hnone : after.flatMap (·.events.getD []) = [] := by
    rw [List.flatMap_eq_nil_iff]
    intro q hq
    rw [Option.isNone_iff_eq_none.mp (hafter q hq)]
    rfl
  have hlive : live = { attached.live with
      snapshot := (change.write stored attached.live.snapshot).1
      publications := attached.live.publications.set index
        ⟨change, stored, some (change.write stored attached.live.snapshot).2⟩ } := by
    unfold AgentLiveSession.write at hstep
    rw [hindex] at hstep
    exact (Option.some.inj hstep).symm
  have hgrown : live.told = attached.live.told ++ (change.write stored attached.live.snapshot).2 := by
    rw [hlive]
    unfold AgentLiveSession.told AgentLiveSession.pending
    dsimp only
    rw [hset, hsplit]
    simp [hnone]
  have hlength := htold.latest
  rw [hseq, h.latest] at hlength
  refine ⟨horderly.shaped, ?_, ?_, ?_, ?_, horderly.ordered, horderly.ready, horderly.checked,
    horderly.exclusive, ?_, ?_⟩
  · rw [hgrown]
    refine h.follows.append ?_
    rw [← h.latest]
    exact htold.follows
  · rw [hgrown, List.foldl_append, hsnapshot]
    exact (foldl_untimed _ _ _ h.folded).trans htold.folded
  · rw [hgrown, List.length_append, htold.count, hsnapshot, hlength]
    omega
  · rw [hsnapshot, htold.latest]
    exact hchained
  · rw [hlive]
    exact h.joining
  · rw [hgrown]
    intro subscriber hmem
    rw [hlive] at hmem
    obtain ⟨n, hsince, hn, hsub, hlatest⟩ := h.subscribers subscriber hmem
    refine ⟨n, hsince, ?_, ?_, hlatest⟩
    · rw [List.length_append]
      omega
    · rw [List.take_append_of_le_length hn]
      exact hsub

theorem AttachedSession.Streamed.step (step : LiveStep)
    (hstep : attached.stepInOrder step = some next) : next.Streamed initial := by
  obtain ⟨horder, hplain⟩ := Option.ite_none_right_eq_some.mp hstep
  obtain ⟨horderly, hstepped⟩ := orderly_step h.orderly step (fun _ _ => horder) hplain
  cases hstepped with
  | none hwrite hrow hsnapshot hwaiting =>
    refine h.of_untold horderly (step_untold step hwrite hstep) hsnapshot ?_
    rw [hsnapshot, hrow, hwaiting]
    exact h.chained
  | commit change hcommitted hchecked hcommit hsnapshot hwaiting =>
    have hwrite : ∀ index, step ≠ .write index := by
      rw [hcommitted]
      exact nofun
    refine h.of_untold horderly (step_untold step hwrite hstep) hsnapshot ?_
    rw [hsnapshot, hwaiting]
    obtain ⟨hseq, -⟩ := LiveChange.commit_seq _ _ _ hcommit
    exact Chained.append _ _ _ ⟨change, next.row, none⟩ h.chained hseq
  | write index change stored hwritten hindex hrow hsnapshot hwaiting =>
    rw [hwritten] at horder hplain
    obtain ⟨live, hlive, heq⟩ := Option.map_eq_some_iff.mp hplain
    rw [← heq]
    exact h.write index live horder hlive

end

inductive AttachedSession.Effect (attached next : AttachedSession) : Prop where
  | none (hrow : next.row = attached.row) (hsnapshot : next.live.snapshot = attached.live.snapshot)
    (hwaiting : next.live.waiting = attached.live.waiting)
  | commit (change : LiveChange) (hchecked : attached.live.stateUpdate = .checked change)
    (hcommit : change.commit attached.row = some next.row)
    (hsnapshot : next.live.snapshot = attached.live.snapshot)
    (hwaiting : next.live.waiting = attached.live.waiting ++ [⟨change, next.row, Option.none⟩])
  | write (change : LiveChange) (stored : StoredSession) (hrow : next.row = attached.row)
    (htold : change.Told stored attached.live.snapshot)
    (hseq : stored.latestSeq = attached.live.snapshot.latestSeq + change.count)
    (hsnapshot : next.live.snapshot = (change.write stored attached.live.snapshot).1)
    (hwaiting : attached.live.waiting = ⟨change, stored, Option.none⟩ :: next.live.waiting)

theorem AttachedSession.Streamed.effect (h : attached.Streamed initial) (step : LiveStep)
    (hstep : attached.stepInOrder step = some next) : attached.Effect next := by
  obtain ⟨horder, hstep⟩ := Option.ite_none_right_eq_some.mp hstep
  obtain ⟨-, hstepped⟩ := orderly_step h.orderly step (fun _ _ => horder) hstep
  cases hstepped with
  | none hwrite hrow hsnapshot hwaiting => exact .none hrow hsnapshot hwaiting
  | commit change hcommitted hchecked hcommit hsnapshot hwaiting =>
    exact .commit change hchecked hcommit hsnapshot hwaiting
  | write index change stored hwritten hindex hrow hsnapshot hwaiting =>
    obtain ⟨htold, hseq, -⟩ := h.first_told index change stored _ hindex hwaiting
    exact .write change stored hrow htold hseq hsnapshot hwaiting

theorem AttachedSession.started_streamed (row : StoredSession) (snapshot : AgentSessionLiveSnapshot)
    (hseq : snapshot.latestSeq = row.latestSeq) (hturn : snapshot.activeTurn = none) :
    (⟨row, .started snapshot⟩ : AttachedSession).Streamed snapshot := by
  refine ⟨?_, Feed.follows_nil _ _, rfl, rfl, hseq, List.Pairwise.nil, fun _ h => (nomatch h),
    fun _ h => (nomatch h), rfl, fun _ h => (nomatch h), fun _ h => (nomatch h)⟩
  intro record hrecord
  rw [show snapshot.activeTurn = some record from hrecord] at hturn
  cases hturn

end

structure AttachedSession.Exact (attached : AttachedSession) : Prop where
  increasing : (attached.live.sent.map (·.seq)).Pairwise (· < ·)
  stored : attached.live.idle → attached.live.snapshot.latestSeq = attached.row.latestSeq
  viewed : attached.live.idle → ∀ subscriber ∈ attached.live.subscribers,
    (subscriber.view attached.live.sent).untimed = attached.live.snapshot.untimed

theorem AttachedSession.Streamed.exact {initial : AgentSessionLiveSnapshot}
    {attached : AttachedSession} (h : attached.Streamed initial) : attached.Exact := by
  have htold : attached.live.idle → attached.live.told = attached.live.sent := by
    intro hidle
    unfold AgentLiveSession.told AgentLiveSession.pending
    rw [hidle.1, List.flatMap_nil, List.append_nil]
  refine ⟨h.follows.of_append.increasing, ?_, ?_⟩
  · intro hidle
    have hchained := h.chained
    rw [hidle.1] at hchained
    exact hchained
  · intro hidle subscriber hmem
    obtain ⟨n, hsince, -, hsnapshot, hlatest⟩ := h.subscribers subscriber hmem
    have hview := h.follows.view_take AgentSessionEvent.apply initial subscriber.since n hsince
    unfold SessionSubscriber.view Feed.view at *
    rw [htold hidle] at hview
    rw [hlatest, ← h.folded, htold hidle, ← hview]
    exact foldl_untimed _ _ _ (htold hidle ▸ hsnapshot)

theorem AttachedSession.Streamed.latest_le {initial : AgentSessionLiveSnapshot}
    {attached next : AttachedSession} (h : attached.Streamed initial) (step : LiveStep)
    (hstep : attached.stepInOrder step = some next) :
    attached.live.snapshot.latestSeq ≤ next.live.snapshot.latestSeq := by
  cases h.effect step hstep with
  | none hrow hsnapshot hwaiting | commit change hchecked hcommit hsnapshot hwaiting =>
    rw [hsnapshot]
  | write change stored hrow htold hseq hsnapshot hwaiting =>
    rw [hsnapshot, htold.latest]
    omega

/-- In a run whose snapshots are written and events sent in the order of the transactions, the
events are exact, and no step lowers the number of the snapshot. -/
theorem stream_exact (row : StoredSession) (snapshot : AgentSessionLiveSnapshot)
    (hseq : snapshot.latestSeq = row.latestSeq) (hturn : snapshot.activeTurn = none)
    (steps : List LiveStep) (attached : AttachedSession)
    (hrun : steps.foldlM AttachedSession.stepInOrder ⟨row, .started snapshot⟩ = some attached) :
    attached.Exact ∧ ∀ step next, attached.stepInOrder step = some next →
      attached.live.snapshot.latestSeq ≤ next.live.snapshot.latestSeq := by
  have hstreamed : attached.Streamed snapshot := by
    refine System.run_invariant AttachedSession.stepInOrder (·.Streamed snapshot) ?_ steps
      (AttachedSession.started_streamed row snapshot hseq hturn) hrun
    exact fun attached step next h hstep => h.step step hstep
  exact ⟨hstreamed.exact, fun step next hstep => hstreamed.latest_le step hstep⟩

def emptyRow : StoredSession :=
  ⟨7, "provider", none, some "Draft", .project "project", false, 0, "key", []⟩

def emptySnapshot : AgentSessionLiveSnapshot :=
  ⟨⟨some "Draft", false, some "agent-session", .attached, .idle, none, 0, some 0, none⟩, none, none,
    [], 0⟩

def lateRename : List LiveStep :=
  [.subscribe, .readSnapshot 0, .begin (.updateSession (some (some "Final")) none), .commit true,
    .begin (.applyAgentUsage ⟨100, 1000⟩), .commit true, .write 1, .send 1, .drop 1, .write 0,
    .send 0, .drop 0]

def promptRename : List LiveStep :=
  [.subscribe, .readSnapshot 0, .begin (.createTurn ⟨"request", 1, 2, 3, "Hi"⟩), .commit true,
    .write 0, .send 0, .send 0, .send 0, .drop 0,
    .begin (.updateSession (some (some "Final")) none), .commit true, .write 0, .subscribe,
    .readSnapshot 0, .send 0, .drop 0, .begin (.applyAgentTextChunk 1 "Hello"), .commit true,
    .write 0, .send 0, .drop 0, .begin (.finishLiveTurn 1 (.finished .endTurn)), .commit true,
    .write 0, .send 0, .send 0, .drop 0]

theorem stream_exact_promptRename : ∃ attached,
    promptRename.foldlM AttachedSession.stepInOrder ⟨emptyRow, .started emptySnapshot⟩ =
      some attached ∧ attached.live.idle ∧ attached.Exact := by
  refine ⟨_, rfl, ⟨rfl, rfl⟩, ?_⟩
  exact (stream_exact emptyRow emptySnapshot rfl rfl promptRename _ rfl).1

def configReported : List LiveStep :=
  [.subscribe, .readSnapshot 0, .begin (.applyAgentConfigOptions [⟨"model", "large"⟩]),
    .commit true, .write 0, .send 0, .drop 0]

/-- An event for new options does not say when the session changed, and a rename that is overtaken
breaks the order. -/
theorem stream_strays :
    (∃ attached, configReported.foldlM AttachedSession.stepInOrder
        ⟨emptyRow, .started emptySnapshot⟩ = some attached ∧ attached.live.idle ∧
      ∃ subscriber ∈ attached.live.subscribers,
        (subscriber.view attached.live.sent).session.updatedAtMs = 0 ∧
          attached.live.snapshot.session.updatedAtMs = 1) ∧
    ∃ attached, lateRename.foldlM AttachedSession.step ⟨emptyRow, .started emptySnapshot⟩ =
        some attached ∧ attached.live.idle ∧ attached.live.sent.map (·.seq) = [2, 1] ∧
      attached.live.snapshot.latestSeq = 1 ∧ attached.row.latestSeq = 2 ∧ ¬ attached.Exact := by
  refine ⟨⟨_, rfl, ⟨rfl, rfl⟩, _, List.mem_singleton_self _, rfl, rfl⟩, _, rfl, ⟨rfl, rfl⟩, rfl, rfl,
    rfl, ?_⟩
  intro hexact
  have hstored := hexact.stored ⟨rfl, rfl⟩
  cases hstored

end Rieul.Agent
