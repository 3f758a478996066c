import Rieul.Terminal.Session

/-!
# Replay of terminal output

An attach gets the output that is retained above its cursor and then follows the session's events.
-/

namespace Rieul.Terminal
open Bytes Fallible Broadcast Retention

def TerminalEvent.record : TerminalEvent → Option OutputRecord
  | .outputChunk seq bytes => some ⟨seq, bytes⟩
  | _ => none

def recorded (events : List TerminalEvent) : List OutputRecord :=
  events.filterMap (·.record)

@[simp] theorem recorded_append (events rest : List TerminalEvent) :
    recorded (events ++ rest) = recorded events ++ recorded rest :=
  List.filterMap_append

@[simp] theorem recorded_metadata (metadata : List TerminalMetadata) :
    recorded (metadata.map (·.event)) = [] := by
  induction metadata with
  | nil => rfl
  | cons event metadata ih => cases event <;> exact ih

theorem recorded_chunk (seq : ℕ) (bytes : Str) (metadata : List TerminalMetadata) :
    recorded (.outputChunk seq bytes :: metadata.map (·.event)) = [⟨seq, bytes⟩] :=
  congrArg (OutputRecord.mk seq bytes :: ·) (recorded_metadata metadata)

@[simp] theorem recorded_events (records : List OutputRecord) :
    recorded (records.map (·.event)) = records := by
  induction records with
  | nil => rfl
  | cons record records ih => exact congrArg (record :: ·) ih

structure TerminalSession.Consistent (session : TerminalSession) : Prop where
  numbered : Numbered OutputRecord.seq (recorded session.sent)
  latest : session.info.latestOutputSeq = (recorded session.sent).length
  buffer : session.outputBuffer =
    retained OutputRecord.size TERMINAL_OUTPUT_RETENTION_BYTES (recorded session.sent)
  bytes : session.retainedOutputBytes = total OutputRecord.size session.outputBuffer

inductive SessionOp where
  | output (bytes : Str) (now : ℕ)
  | attach (attachId rpcSessionId : ℕ) (afterSeq : Option ℕ) (now : ℕ)
  | detach (attachId now : ℕ)
  | takeControl (attachId rpcSessionId cols rows : ℕ) (resize : Except ServiceError Unit)
  | close
  | exited (code : Option Int) (signal : Option String) (now : ℕ)
  | hostClosed (message : String)

section
variable (parseOscMetadata : Str → Option TerminalMetadata)
variable {session : TerminalSession}

def TerminalSession.apply (session : TerminalSession) : SessionOp → TerminalSession
  | .output bytes now =>
    ((session.recordOutput parseOscMetadata bytes now).map (·.1)).getD session
  | .attach attachId rpcSessionId afterSeq now =>
    match session.attach attachId rpcSessionId afterSeq now with
    | .ok (attached, _) => attached
    | .error _ => session
  | .detach attachId now => session.detach attachId now
  | .takeControl attachId rpcSessionId cols rows resize =>
    (session.takeControl attachId rpcSessionId cols rows resize).1
  | .close => session.close
  | .exited code signal now => (session.markExited code signal now).getD session
  | .hostClosed message => (session.markHostClosed message).getD session

theorem TerminalSession.new_consistent (request : CreateTerminalSessionReq) (id : ℕ)
    (creator : String) (cwd : Option String) (now : ℕ) :
    (TerminalSession.new request id creator cwd now).Consistent :=
  ⟨rfl, rfl, rfl, rfl⟩

theorem TerminalSession.Consistent.of_same {session changed : TerminalSession}
    (h : session.Consistent) (hsent : recorded changed.sent = recorded session.sent)
    (hlatest : changed.info.latestOutputSeq = session.info.latestOutputSeq)
    (hbuffer : changed.outputBuffer = session.outputBuffer)
    (hbytes : changed.retainedOutputBytes = session.retainedOutputBytes) : changed.Consistent := by
  constructor
  · rw [hsent]
    exact h.numbered
  · rw [hlatest, hsent]
    exact h.latest
  · rw [hbuffer, hsent]
    exact h.buffer
  · rw [hbytes, hbuffer]
    exact h.bytes

theorem TerminalSessionInfo.noteAll_keeps {β : Type} (f : TerminalSessionInfo → β)
    (hf : ∀ (info : TerminalSessionInfo) (event : TerminalMetadata), f (info.note event) = f info)
    (info : TerminalSessionInfo) (changed : Bool) (events : List TerminalMetadata) :
    f (info.noteAll changed events).1 = f info := by
  induction events generalizing info changed with
  | nil => rfl
  | cons event events ih =>
    unfold TerminalSessionInfo.noteAll
    split
    · exact ih info changed
    · rw [ih, hf]

theorem TerminalSessionInfo.noteAll_latest (info : TerminalSessionInfo) (changed : Bool)
    (events : List TerminalMetadata) :
    (info.noteAll changed events).1.latestOutputSeq = info.latestOutputSeq := by
  refine noteAll_keeps (·.latestOutputSeq) ?_ info changed events
  intro info event
  cases event <;> rfl

theorem TerminalSession.recordOutput_eq_some (session next : TerminalSession) (bytes : Str) (now : ℕ)
    (updated : Option TerminalSessionInfo)
    (h : session.recordOutput parseOscMetadata bytes now = some (next, updated)) :
    (session.closed = false ∧ bytes ≠ []) ∧ next.closed = false ∧
      next.info.latestOutputSeq = session.info.latestOutputSeq + 1 ∧
      (∃ metadata : List TerminalMetadata, next.sent = session.sent ++
        .outputChunk (session.info.latestOutputSeq + 1) bytes :: metadata.map (·.event)) ∧
      (next.retainedOutputBytes, next.outputBuffer) =
        evict OutputRecord.size TERMINAL_OUTPUT_RETENTION_BYTES
          (session.retainedOutputBytes + bytes.length)
          (session.outputBuffer ++ [⟨session.info.latestOutputSeq + 1, bytes⟩]) := by
  unfold TerminalSession.recordOutput at h
  split at h
  · cases h
  · rename_i hopen
    rw [not_or, Bool.not_eq_true] at hopen
    cases h
    refine ⟨hopen, hopen.1, ?_, ⟨_, rfl⟩, rfl⟩
    exact TerminalSessionInfo.noteAll_latest _ _ _

theorem TerminalSession.recordOutput_of_open (session : TerminalSession) (bytes : Str) (now : ℕ)
    (hopen : session.closed = false) (hbytes : bytes ≠ []) :
    ∃ result, session.recordOutput parseOscMetadata bytes now = some result := by
  unfold TerminalSession.recordOutput
  rw [if_neg (by simp [hopen, hbytes])]
  exact ⟨_, rfl⟩

theorem TerminalSession.Consistent.recordOutput {session next : TerminalSession} {bytes : Str}
    {now : ℕ} {updated : Option TerminalSessionInfo} (hs : session.Consistent)
    (h : session.recordOutput parseOscMetadata bytes now = some (next, updated)) :
    next.Consistent ∧ recorded next.sent =
      recorded session.sent ++ [⟨session.info.latestOutputSeq + 1, bytes⟩] := by
  obtain ⟨_, _, hlatest, ⟨metadata, hsent⟩, hevict⟩ :=
    session.recordOutput_eq_some parseOscMetadata next bytes now updated h
  have hrecorded : recorded next.sent =
      recorded session.sent ++ [⟨session.info.latestOutputSeq + 1, bytes⟩] := by
    rw [hsent, recorded_append, recorded_chunk]
  have hcount : session.retainedOutputBytes + bytes.length = total OutputRecord.size
      (session.outputBuffer ++ [⟨session.info.latestOutputSeq + 1, bytes⟩]) := by
    rw [total_append, hs.bytes]
    rfl
  rw [hcount, evict_total, hs.buffer, retained_retained_append, ← hrecorded] at hevict
  obtain ⟨hbytes, hbuffer⟩ := Prod.mk.inj hevict
  refine ⟨⟨?_, ?_, hbuffer, ?_⟩, hrecorded⟩
  · rw [hrecorded]
    apply hs.numbered.snoc
    rw [hs.latest]
  · rw [hrecorded, hlatest, hs.latest, List.length_append, List.length_singleton]
  · rw [hbytes, hbuffer]

theorem TerminalSession.Consistent.takeControl (hs : session.Consistent)
    (attachId rpcSessionId cols rows : ℕ) (resize : Except ServiceError Unit) :
    (session.takeControl attachId rpcSessionId cols rows resize).1.Consistent := by
  unfold TerminalSession.takeControl
  split
  · exact hs
  · split
    · exact hs.of_same rfl rfl rfl rfl
    · refine hs.of_same ?_ rfl rfl rfl
      have hcontrol : recorded (if session.info.primaryAttachId ≠ some attachId then
          [TerminalEvent.controlChanged attachId] else []) = [] := by
        split <;> rfl
      have hresized : recorded (if (session.info.cols, session.info.rows) ≠ (cols, rows) then
          [TerminalEvent.pseudoTerminalResized cols rows] else []) = [] := by
        split <;> rfl
      simp only [recorded_append, hcontrol, hresized, List.append_nil]

theorem TerminalSession.attach_eq_ok (session next : TerminalSession) (attachId rpcSessionId : ℕ)
    (afterSeq : Option ℕ) (now : ℕ) (attached : AttachedTerminal)
    (h : session.attach attachId rpcSessionId afterSeq now = .ok (next, attached)) :
    session.closed = false ∧ next = { session with
      info := { session.info with lastAttachedAtMs := some now }
      attachOwners := (attachId, rpcSessionId) :: session.attachOwners } ∧
      attached.replay = replayEvents session afterSeq ∧ attached.receiver = session.sent.length := by
  obtain ⟨hopen, h⟩ := (bind_unit_eq_ok _ _ _).mp h
  cases h
  exact ⟨(ensure_eq_ok _ _ _).mp hopen, rfl, rfl, rfl⟩

theorem TerminalSession.attach_of_open (session : TerminalSession) (attachId rpcSessionId : ℕ)
    (afterSeq : Option ℕ) (now : ℕ) (hopen : session.closed = false) :
    ∃ result, session.attach attachId rpcSessionId afterSeq now = .ok result := by
  unfold TerminalSession.attach
  rw [ensure_of _ _ hopen]
  exact ⟨_, rfl⟩

theorem recorded_snoc (events : List TerminalEvent) (event : TerminalEvent)
    (h : event.record = none) : recorded (events ++ [event]) = recorded events := by
  rw [recorded_append, recorded, recorded, List.filterMap_cons_none h]
  exact List.append_nil _

theorem TerminalSession.apply_cases {P : SessionOp → TerminalSession → Prop}
    (session : TerminalSession) (op : SessionOp) (same : ∀ op, P op session)
    (output : ∀ bytes now result, session.recordOutput parseOscMetadata bytes now = some result →
      P (.output bytes now) result.1)
    (attach : ∀ attachId rpcSessionId afterSeq now, P (.attach attachId rpcSessionId afterSeq now)
      { session with
        info := { session.info with lastAttachedAtMs := some now }
        attachOwners := (attachId, rpcSessionId) :: session.attachOwners })
    (detach : ∀ attachId now, P (.detach attachId now) (session.detach attachId now))
    (takeControl : ∀ attachId rpcSessionId cols rows resize,
      P (.takeControl attachId rpcSessionId cols rows resize)
        (session.takeControl attachId rpcSessionId cols rows resize).1)
    (close : P .close session.close)
    (exited : ∀ code signal now, ¬ (session.closed ∨ session.info.exit.isSome) →
      P (.exited code signal now) { session with
        info := { session.info with exit := some ⟨code, signal, now⟩ }
        sent := session.sent ++ [.sessionExited ⟨code, signal, now⟩] })
    (hostClosed : ∀ message, P (.hostClosed message) { session with
      closed := true
      sent := session.sent ++ [.sessionClosed (.failed message)] }) :
    P op (session.apply parseOscMetadata op) := by
  cases op with
  | output bytes now =>
    dsimp only [TerminalSession.apply]
    cases h : session.recordOutput parseOscMetadata bytes now with
    | none => exact same _
    | some result => exact output bytes now result h
  | attach attachId rpcSessionId afterSeq now =>
    dsimp only [TerminalSession.apply]
    cases h : session.attach attachId rpcSessionId afterSeq now with
    | error err => exact same _
    | ok result =>
      obtain ⟨_, hnext, _⟩ := session.attach_eq_ok result.1 attachId rpcSessionId afterSeq now result.2 h
      dsimp only
      rw [hnext]
      exact attach attachId rpcSessionId afterSeq now
  | detach attachId now => exact detach attachId now
  | takeControl attachId rpcSessionId cols rows resize =>
    exact takeControl attachId rpcSessionId cols rows resize
  | close => exact close
  | exited code signal now =>
    dsimp only [TerminalSession.apply]
    unfold TerminalSession.markExited
    split
    · exact same _
    · rename_i hrunning
      exact exited code signal now hrunning
  | hostClosed message =>
    dsimp only [TerminalSession.apply]
    unfold TerminalSession.markHostClosed
    split
    · exact same _
    · exact hostClosed message

theorem TerminalSession.Consistent.apply (hs : session.Consistent)
    (op : SessionOp) : (session.apply parseOscMetadata op).Consistent := by
  refine session.apply_cases (P := fun _ next => next.Consistent) parseOscMetadata op (fun _ => hs)
    ?_ ?_ ?_ ?_ ?_ ?_ ?_
  · exact fun _ _ _ h => (hs.recordOutput parseOscMetadata h).1
  · exact fun _ _ _ _ => hs.of_same rfl rfl rfl rfl
  · exact fun _ _ => hs.of_same rfl rfl rfl rfl
  · exact fun _ _ _ _ _ => hs.takeControl _ _ _ _ _
  · exact hs.of_same (recorded_snoc _ _ rfl) rfl rfl rfl
  · exact fun _ _ _ _ => hs.of_same (recorded_snoc _ _ rfl) rfl rfl rfl
  · exact fun _ => hs.of_same (recorded_snoc _ _ rfl) rfl rfl rfl

theorem TerminalSession.Consistent.run (hs : session.Consistent)
    (ops : List SessionOp) : (ops.foldl (·.apply parseOscMetadata) session).Consistent := by
  induction ops generalizing session with
  | nil => exact hs
  | cons op ops ih => exact ih (hs.apply parseOscMetadata op)

end

def TerminalSession.Evicted (session : TerminalSession) (after : ℕ) : Prop :=
  ∃ record ∈ recorded session.sent, after < record.seq ∧ record ∉ session.outputBuffer

def TerminalSession.gone (session : TerminalSession) : ℕ :=
  evicted OutputRecord.size TERMINAL_OUTPUT_RETENTION_BYTES (recorded session.sent)

section
variable {session : TerminalSession} (hs : session.Consistent) (after : ℕ)
include hs

theorem TerminalSession.Consistent.evicted_iff : session.Evicted after ↔ after < session.gone := by
  unfold TerminalSession.Evicted
  rw [hs.buffer]
  exact exists_evicted _ _ _ hs.numbered after

theorem TerminalSession.Consistent.buffer_eq :
    session.outputBuffer = (recorded session.sent).drop session.gone :=
  hs.buffer.trans (retained_eq_drop _ _ _)

omit hs in
theorem TerminalSession.gone_le : session.gone ≤ (recorded session.sent).length :=
  evicted_le _ _ _

theorem TerminalSession.Consistent.buffer_eq_nil (h : after < session.info.latestOutputSeq) :
    session.outputBuffer = [] ↔ ¬ ∀ record, (recorded session.sent).getLast? = some record →
      record.bytes.length ≤ TERMINAL_OUTPUT_RETENTION_BYTES := by
  rw [hs.latest] at h
  rw [hs.buffer]
  rcases List.eq_nil_or_concat (recorded session.sent) with hnil | ⟨records, record, hlast⟩
  · rw [hnil] at h
    exact absurd h (Nat.not_lt_zero _)
  · rw [hlast, List.concat_eq_append, retained_snoc_eq_nil, List.getLast?_concat]
    constructor
    · exact fun hlimit hall => absurd (hall record rfl) (Nat.not_le.mpr hlimit)
    · intro hall
      apply Nat.not_le.mp
      intro hle
      apply hall
      rintro _ ⟨⟩
      exact hle

omit hs in
theorem replay_of_nil (h : session.outputBuffer = []) : replayEvents session (some after) = [] := by
  unfold replayEvents
  rw [h]
  rfl

theorem replay_of_cons (h : session.outputBuffer ≠ []) :
    replayEvents session (some after) =
      (if after < session.gone then [.historyGap (session.gone + 1)] else []) ++
        ((recorded session.sent).drop (max session.gone after)).map (·.event) := by
  obtain ⟨first, rest, hcons⟩ := List.exists_cons_of_ne_nil h
  have hseq : first.seq = session.gone + 1 := by
    apply head_drop OutputRecord.seq hs.numbered session.gone first
    rw [← hs.buffer_eq, hcons]
    rfl
  have hfilter := filter_drop OutputRecord.seq hs.numbered session.gone after
  rw [← hs.buffer_eq] at hfilter
  unfold replayEvents
  rw [← hfilter, hcons]
  simp only [List.head?_cons, Option.map_some, Option.getD_some, hseq, Option.all_some,
    Nat.add_lt_add_iff_right]

end

structure Follower where
  session : TerminalSession
  next : ℕ
  received : List (Received TerminalEvent)

inductive FollowStep where
  | op (op : SessionOp)
  | read

section
variable (parseOscMetadata : Str → Option TerminalMetadata)

def Follower.step (follower : Follower) : FollowStep → Follower
  | .op op => { follower with session := follower.session.apply parseOscMetadata op }
  | .read =>
    match recv TERMINAL_EVENT_CHANNEL_CAPACITY follower.session.sent follower.next with
    | none => follower
    | some (event, next) =>
      { follower with next := next, received := follower.received ++ [event] }

def Follower.Timely (follower : Follower) : List FollowStep → Prop
  | [] => True
  | .op op :: steps => (follower.step parseOscMetadata (.op op)).Timely steps
  | .read :: steps =>
    follower.session.sent.length ≤ follower.next + TERMINAL_EVENT_CHANNEL_CAPACITY ∧
      (follower.step parseOscMetadata .read).Timely steps

def live (received : List (Received TerminalEvent)) : List TerminalEvent :=
  received.filterMap fun
    | .value event => some event
    | .lagged => none

theorem TerminalSession.apply_sent (session : TerminalSession) (op : SessionOp) :
    session.sent <+: (session.apply parseOscMetadata op).sent := by
  refine session.apply_cases (P := fun _ next => session.sent <+: next.sent) parseOscMetadata op
    (fun _ => List.prefix_refl _) ?_ (fun _ _ _ _ => List.prefix_refl _)
    (fun _ _ => List.prefix_refl _) ?_ (List.prefix_append _ _)
    (fun _ _ _ _ => List.prefix_append _ _) (fun _ => List.prefix_append _ _)
  · intro bytes now result h
    obtain ⟨_, _, _, ⟨metadata, hsent⟩, _⟩ :=
      session.recordOutput_eq_some parseOscMetadata result.1 bytes now result.2 h
    exact ⟨_, hsent.symm⟩
  · intro attachId rpcSessionId cols rows resize
    unfold TerminalSession.takeControl
    split
    · exact List.prefix_refl _
    · split
      · exact List.prefix_refl _
      · exact (List.prefix_append _ _).trans (List.prefix_append _ _)

def Follower.Exact (start : List TerminalEvent) (follower : Follower) : Prop :=
  follower.next ≤ follower.session.sent.length ∧
    start ++ live follower.received = follower.session.sent.take follower.next

section
variable {start : List TerminalEvent} {follower : Follower} (h : follower.Exact start)
include start follower h

theorem Follower.Exact.op (op : SessionOp) :
    (follower.step parseOscMetadata (.op op)).Exact start := by
  have hprefix := follower.session.apply_sent parseOscMetadata op
  refine ⟨h.1.trans hprefix.length_le, ?_⟩
  obtain ⟨rest, hrest⟩ := hprefix
  show start ++ live follower.received =
    (follower.session.apply parseOscMetadata op).sent.take follower.next
  rw [← hrest, List.take_append_of_le_length h.1]
  exact h.2

theorem Follower.Exact.read
    (htimely : follower.session.sent.length ≤ follower.next + TERMINAL_EVENT_CHANNEL_CAPACITY) :
    (follower.step parseOscMetadata .read).Exact start := by
  have hrecv := recv_of_le TERMINAL_EVENT_CHANNEL_CAPACITY follower.session.sent follower.next htimely
  unfold Follower.step
  cases hdrop : follower.session.sent.drop follower.next with
  | nil =>
    rw [hdrop] at hrecv
    rw [hrecv]
    exact h
  | cons event rest =>
    have hlt : follower.next < follower.session.sent.length := by
      apply Nat.not_le.mp
      intro hle
      rw [List.drop_eq_nil_of_le hle] at hdrop
      cases hdrop
    have hevent : follower.session.sent[follower.next] = event := by
      rw [List.drop_eq_getElem_cons hlt] at hdrop
      exact (List.cons.inj hdrop).1
    rw [hdrop] at hrecv
    rw [hrecv]
    refine ⟨hlt, ?_⟩
    show start ++ live (follower.received ++ [.value event]) =
      follower.session.sent.take (follower.next + 1)
    rw [List.take_succ_eq_append_getElem hlt, ← h.2, hevent, List.append_assoc]
    exact congrArg (start ++ ·) List.filterMap_append

theorem Follower.Exact.run (steps : List FollowStep)
    (htimely : follower.Timely parseOscMetadata steps) :
    (steps.foldl (·.step parseOscMetadata) follower).Exact start := by
  induction steps generalizing follower with
  | nil => exact h
  | cons step steps ih =>
    cases step with
    | op op => exact ih (h.op parseOscMetadata op) htimely
    | read => exact ih (h.read parseOscMetadata htimely.1) htimely.2

end

theorem Follower.run_consistent (follower : Follower) (h : follower.session.Consistent)
    (steps : List FollowStep) :
    (steps.foldl (·.step parseOscMetadata) follower).session.Consistent := by
  induction steps generalizing follower with
  | nil => exact h
  | cons step steps ih =>
    apply ih
    cases step with
    | op op => exact h.apply parseOscMetadata op
    | read =>
      unfold Follower.step
      dsimp only
      split
      · exact h
      · exact h

end

/-- The replay and the live events so far hold every chunk above the cursor, once and in order, unless
the replay starts with a gap; and there is a gap exactly if a chunk above the cursor was evicted. -/
def CompleteReplay (session : TerminalSession) (after : ℕ) (replay : List TerminalEvent)
    (follower : Follower) : Prop :=
  (recorded (replay ++ live follower.received) =
      (recorded (follower.session.sent.take follower.next)).drop after ∨
    ∃ nextSeq events, replay = .historyGap nextSeq :: events) ∧
  ((∃ nextSeq, .historyGap nextSeq ∈ replay) ↔ session.Evicted after)

theorem no_gap_records (records : List OutputRecord) (nextSeq : ℕ) :
    TerminalEvent.historyGap nextSeq ∉ records.map (·.event) := by
  intro hmem
  obtain ⟨record, _, hevent⟩ := List.mem_map.mp hmem
  cases hevent

theorem TerminalSession.Consistent.complete_iff {session : TerminalSession} (hs : session.Consistent)
    (after : ℕ) (hafter : after ≤ session.info.latestOutputSeq) (follower : Follower)
    (hexact : follower.Exact session.sent) :
    CompleteReplay session after (replayEvents session (some after)) follower ↔
      after = session.info.latestOutputSeq ∨
        ∀ record, (recorded session.sent).getLast? = some record →
          record.bytes.length ≤ TERMINAL_OUTPUT_RETENTION_BYTES := by
  have hlive : recorded (follower.session.sent.take follower.next) =
      recorded session.sent ++ recorded (live follower.received) := by
    rw [← hexact.2, recorded_append]
  unfold CompleteReplay
  rw [hlive, hs.evicted_iff, recorded_append]
  by_cases hbuffer : session.outputBuffer = []
  · -- nothing is retained and nothing is replayed
    have hgone := session.gone_le
    have hlength : (recorded session.sent).length ≤ session.gone := by
      rw [← List.drop_eq_nil_iff, ← hs.buffer_eq]
      exact hbuffer
    rw [replay_of_nil after hbuffer]
    constructor
    · rintro ⟨_, hgap⟩
      apply Or.inl
      apply Nat.le_antisymm hafter
      apply Nat.not_lt.mp
      intro hlt
      rw [hs.latest] at hlt
      obtain ⟨_, hmem⟩ := hgap.mpr (hlt.trans_le hlength)
      exact absurd hmem List.not_mem_nil
    · intro h
      have hlatest : after = session.info.latestOutputSeq := by
        rcases h with h | hlast
        · exact h
        · apply Nat.le_antisymm hafter
          apply Nat.not_lt.mp
          exact fun hlt => (hs.buffer_eq_nil after hlt).mp hbuffer hlast
      rw [hs.latest] at hlatest
      refine ⟨.inl (List.drop_left' hlatest.symm).symm, ?_⟩
      constructor
      · exact fun hgap => absurd hgap.choose_spec List.not_mem_nil
      · omega
  · have hlast : after = session.info.latestOutputSeq ∨
        ∀ record, (recorded session.sent).getLast? = some record →
          record.bytes.length ≤ TERMINAL_OUTPUT_RETENTION_BYTES := by
      rcases Nat.lt_or_ge after session.info.latestOutputSeq with hlt | hge
      · exact .inr (not_not.mp fun hlast => hbuffer ((hs.buffer_eq_nil after hlt).mpr hlast))
      · exact .inl (Nat.le_antisymm hafter hge)
    rw [hs.latest] at hafter
    rw [replay_of_cons hs after hbuffer]
    refine ⟨fun _ => hlast, fun _ => ?_⟩
    by_cases hgap : after < session.gone
    · rw [if_pos hgap]
      exact ⟨.inr ⟨_, _, rfl⟩, fun _ => hgap, fun _ => ⟨_, List.mem_cons_self⟩⟩
    · rw [if_neg hgap, List.nil_append, recorded_events]
      refine ⟨.inl ?_, ?_⟩
      · rw [show max session.gone after = after by omega, List.drop_append_of_le_length hafter]
      · exact ⟨fun ⟨_, hmem⟩ => absurd hmem (no_gap_records _ _), fun h => absurd h hgap⟩

/-- An attach is complete exactly if the cursor is at the latest chunk or the last chunk is retained. -/
theorem replay_complete (parseOscMetadata : Str → Option TerminalMetadata)
    (request : CreateTerminalSessionReq) (id : ℕ) (creator : String) (cwd : Option String)
    (createdAt : ℕ) (ops : List SessionOp) (session next : TerminalSession)
    (hsession : session = ops.foldl (·.apply parseOscMetadata)
      (TerminalSession.new request id creator cwd createdAt))
    (attachId rpcSessionId after now : ℕ) (attached : AttachedTerminal)
    (hafter : after ≤ session.info.latestOutputSeq)
    (hattach : session.attach attachId rpcSessionId (some after) now = .ok (next, attached))
    (steps : List FollowStep) (follower : Follower)
    (htimely : Follower.Timely parseOscMetadata ⟨next, attached.receiver, []⟩ steps)
    (hfollower : follower = steps.foldl (·.step parseOscMetadata) ⟨next, attached.receiver, []⟩) :
    Numbered OutputRecord.seq (recorded follower.session.sent) ∧
    (CompleteReplay session after attached.replay follower ↔
      after = session.info.latestOutputSeq ∨
        ∀ record, (recorded session.sent).getLast? = some record →
          record.bytes.length ≤ TERMINAL_OUTPUT_RETENTION_BYTES) := by
  have hs : session.Consistent := by
    rw [hsession]
    exact (TerminalSession.new_consistent request id creator cwd createdAt).run parseOscMetadata ops
  obtain ⟨_, hnext, hreplay, hreceiver⟩ := session.attach_eq_ok next attachId rpcSessionId _ now _ hattach
  have hstart : Follower.Exact session.sent ⟨next, attached.receiver, []⟩ := by
    rw [hreceiver, hnext]
    exact ⟨Nat.le_refl _, (List.append_nil _).trans List.take_length.symm⟩
  have hexact := hstart.run parseOscMetadata steps htimely
  have hattached : next.Consistent := by
    rw [hnext]
    exact hs.of_same rfl rfl rfl rfl
  have hconsistent := Follower.run_consistent parseOscMetadata ⟨next, attached.receiver, []⟩
    hattached steps
  rw [← hfollower] at hexact hconsistent
  rw [hreplay]
  exact ⟨hconsistent.numbered, hs.complete_iff after hafter follower hexact⟩

def shortSession : TerminalSession :=
  [SessionOp.output [65] 1, .output [66] 2].foldl (·.apply fun _ => none)
    (TerminalSession.new ⟨80, 24, none⟩ 1 "client" none 0)

theorem shortSession_complete : ∃ next attached follower,
    shortSession.attach 1 7 (some 1) 3 = .ok (next, attached) ∧
    Numbered OutputRecord.seq (recorded follower.session.sent) ∧
    (CompleteReplay shortSession 1 attached.replay follower ↔
      1 = shortSession.info.latestOutputSeq ∨
        ∀ record, (recorded shortSession.sent).getLast? = some record →
          record.bytes.length ≤ TERMINAL_OUTPUT_RETENTION_BYTES) :=
  ⟨_, _, _, rfl, replay_complete (fun _ => none) ⟨80, 24, none⟩ 1 "client" none 0
    [.output [65] 1, .output [66] 2] shortSession _ rfl 1 7 1 3 _ (by decide) rfl
    [.op (.output [67] 4), .read] _ ⟨by decide, True.intro⟩ rfl⟩

def flood : Str := List.replicate (TERMINAL_OUTPUT_RETENTION_BYTES + 1) 65

theorem flood_lost : ∃ session next attached,
    session = [SessionOp.output flood 1].foldl (·.apply fun _ => none)
      (TerminalSession.new ⟨80, 24, none⟩ 1 "client" none 0) ∧
    session.attach 1 7 (some 0) 2 = .ok (next, attached) ∧
    recorded session.sent = [⟨1, flood⟩] ∧ session.outputBuffer = [] ∧ attached.replay = [] ∧
    ¬ CompleteReplay session 0 attached.replay ⟨next, attached.receiver, []⟩ := by
  have hnew : (TerminalSession.new ⟨80, 24, none⟩ 1 "client" none 0).Consistent :=
    TerminalSession.new_consistent _ _ _ _ _
  obtain ⟨⟨session, updated⟩, hrecord⟩ :=
    (TerminalSession.new ⟨80, 24, none⟩ 1 "client" none 0).recordOutput_of_open (fun _ => none)
      flood 1 rfl (List.cons_ne_nil _ _)
  obtain ⟨hs, hrecorded⟩ := hnew.recordOutput _ hrecord
  obtain ⟨_, hopen, hlatest, _⟩ :=
    TerminalSession.recordOutput_eq_some _ _ session flood 1 updated hrecord
  obtain ⟨⟨next, attached⟩, hattach⟩ := session.attach_of_open 1 7 (some 0) 2 hopen
  obtain ⟨_, hnext, hreplay, hreceiver⟩ := session.attach_eq_ok next 1 7 _ 2 attached hattach
  have hchunk : recorded session.sent = [⟨1, flood⟩] := hrecorded
  have hbuffer : session.outputBuffer = [] := by
    rw [hs.buffer, hchunk, ← List.nil_append [_], retained_snoc_eq_nil]
    unfold OutputRecord.size flood
    rw [List.length_replicate]
    exact Nat.lt_succ_self _
  have hnone := replay_of_nil 0 hbuffer
  refine ⟨session, next, attached, ?_, hattach, hchunk, hbuffer, hreplay.trans hnone, ?_⟩
  · rw [List.foldl_cons, List.foldl_nil, TerminalSession.apply, hrecord]
    rfl
  · rintro ⟨_, hgap⟩
    rw [hreplay, hnone] at hgap
    obtain ⟨_, hmem⟩ := hgap.mpr
      ⟨⟨1, flood⟩, hchunk ▸ List.mem_singleton_self _, Nat.one_pos, hbuffer ▸ List.not_mem_nil⟩
    exact absurd hmem List.not_mem_nil

end Rieul.Terminal
