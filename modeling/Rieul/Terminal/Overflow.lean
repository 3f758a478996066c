import Rieul.Terminal.AttachStream
import Rieul.Terminal.Exit
import Rieul.Lib.System

/-!
# A stream that fell behind

A gap is announced with the number after the snapshot's latest chunk, wherever the stream stands.
-/

namespace Rieul.Terminal
open Bytes Fallible Broadcast Retention

/-- Lost output is announced by a gap with the number of the next chunk, and who has all events that
are left knows the session. -/
structure TerminalStream.Resynchronized (stream : TerminalStream) (session : TerminalSession) :
    Prop where
  output : (stream.delivered.foldlM TerminalEvent.follow
    (stream.attached.session.latestOutputSeq + 1)).isSome
  view : stream.finished = true ∨ recv TERMINAL_EVENT_CHANNEL_CAPACITY session.sent stream.next = none →
    stream.view = session.info.view

/-- What a takeover sets is told by events: the host resizes where that changes anything, and the
session is not over. -/
def TerminalSession.tells (session : TerminalSession) : SessionOp → Bool
  | .takeControl attachId rpcSessionId cols rows resize =>
    match validateAttachOwner session attachId rpcSessionId with
    | .error _ => true
    | .ok () => !session.closed && session.info.exit.isNone &&
      (resize.isOk || (session.info.primaryAttachId = some attachId ∧
        session.info.cols = cols ∧ session.info.rows = rows))
  | _ => true

inductive ViewPart where
  | primary
  | size
  | title
  | directory
  | exit
  deriving DecidableEq

def TerminalEvent.sets : TerminalEvent → Option ViewPart
  | .controlChanged _ => some .primary
  | .pseudoTerminalResized _ _ => some .size
  | .titleChanged _ => some .title
  | .workingDirectoryChanged _ => some .directory
  | .sessionExited _ => some .exit
  | _ => none

/-- At an overflow there was no output yet between the snapshot and what is kept, and of a kind that
the view depends on an event is kept if one is lost. -/
def TerminalStream.spared (stream : TerminalStream) (sent : List TerminalEvent) : Bool :=
  let kept := sent.length - TERMINAL_EVENT_CHANNEL_CAPACITY
  sent.length ≤ stream.next + TERMINAL_EVENT_CHANNEL_CAPACITY ∨
    (recorded (sent.take kept)).length = stream.attached.session.latestOutputSeq ∧
    ∀ lost ∈ (sent.take kept).drop stream.next, lost.sets.isSome →
      ∃ event ∈ sent.drop kept, event.sets = lost.sets

def StreamedSession.recovers (streamed : StreamedSession) : StreamedStep → Bool
  | .op op => streamed.stream.isNone || streamed.session.tells op
  | .stream _ _ _ _ => true
  | .read => streamed.stream.all (·.spared streamed.session.sent)

section
variable (parseOscMetadata : Str → Option TerminalMetadata)

def StreamedSession.stepRecovering (streamed : StreamedSession) (step : StreamedStep) :
    Option StreamedSession :=
  if streamed.recovers step then streamed.step parseOscMetadata step else none

def TerminalEvent.closes : TerminalEvent → Bool
  | sessionClosed _ => true
  | _ => false

def TerminalEvent.gap : TerminalEvent → Bool
  | historyGap _ => true
  | _ => false

def NoGap (events : List TerminalEvent) : Prop := ∀ event ∈ events, event.gap = false

def TerminalSession.done (session : TerminalSession) : Bool :=
  session.info.exit.isSome || session.closed

/-- The views agree but for `parts`. -/
structure AgreesBut (parts : ViewPart → Prop) (view other : TerminalView) : Prop where
  primary : ¬ parts .primary → view.primaryAttachId = other.primaryAttachId
  size : ¬ parts .size → view.cols = other.cols ∧ view.rows = other.rows
  title : ¬ parts .title → view.lastKnownTitle = other.lastKnownTitle
  directory : ¬ parts .directory → view.lastKnownCwd = other.lastKnownCwd
  exit : ¬ parts .exit → view.exit = other.exit

section
variable {parts : ViewPart → Prop} {view other : TerminalView} (h : AgreesBut parts view other)
include h

theorem AgreesBut.lose (event : TerminalEvent) :
    AgreesBut (fun part => parts part ∨ event.sets = some part) view (other.apply event) := by
  obtain ⟨hprimary, hsize, htitle, hdirectory, hexit⟩ := h
  cases event <;> constructor <;> simp_all [TerminalEvent.sets, TerminalView.apply]

theorem AgreesBut.loseAll (lost : List TerminalEvent) :
    AgreesBut (fun part => parts part ∨ ∃ event ∈ lost, event.sets = some part) view
      (other.applyAll lost) := by
  induction lost generalizing parts other with
  | nil => simpa [TerminalView.applyAll] using h
  | cons event lost ih =>
    simpa [TerminalView.applyAll, or_assoc] using ih (h.lose event)

theorem AgreesBut.apply (event : TerminalEvent) :
    AgreesBut (fun part => parts part ∧ event.sets ≠ some part) (view.apply event)
      (other.apply event) := by
  obtain ⟨hprimary, hsize, htitle, hdirectory, hexit⟩ := h
  cases event <;> constructor <;> simp_all [TerminalEvent.sets, TerminalView.apply]

theorem AgreesBut.applyAll (events : List TerminalEvent)
    (hset : ∀ part, parts part → ∃ event ∈ events, event.sets = some part) :
    view.applyAll events = other.applyAll events := by
  induction events generalizing parts view other with
  | nil =>
    have hnone (part : ViewPart) (hpart : parts part) : False := by
      obtain ⟨event, hmem, -⟩ := hset part hpart
      exact List.not_mem_nil hmem
    obtain ⟨hcols, hrows⟩ := h.size (hnone _)
    have hprimary := h.primary (hnone _)
    have htitle := h.title (hnone _)
    have hdirectory := h.directory (hnone _)
    have hexit := h.exit (hnone _)
    cases view
    cases other
    simp_all [TerminalView.applyAll]
  | cons event events ih =>
    refine ih (h.apply event) fun part hpart => ?_
    obtain ⟨later, hmem, hsets⟩ := hset part hpart.1
    rcases List.mem_cons.mp hmem with rfl | hmem
    · exact absurd hsets hpart.2
    · exact ⟨later, hmem, hsets⟩

end

/-- Events that are lost are outdone by later ones of their kinds. -/
theorem applyAll_outdone (view : TerminalView) (lost kept : List TerminalEvent)
    (h : ∀ event ∈ lost, event.sets.isSome → ∃ later ∈ kept, later.sets = event.sets) :
    view.applyAll kept = (view.applyAll lost).applyAll kept := by
  have hsame : AgreesBut (fun _ => False) view view :=
    ⟨fun _ => rfl, fun _ => ⟨rfl, rfl⟩, fun _ => rfl, fun _ => rfl, fun _ => rfl⟩
  refine (hsame.loseAll lost).applyAll kept ?_
  rintro part (hfalse | ⟨event, hmem, hsets⟩)
  · exact hfalse.elim
  · rw [← hsets]
    exact h event hmem (by rw [hsets]; rfl)

structure Told (session next : TerminalSession) (events : List TerminalEvent) : Prop where
  sent : next.sent = session.sent ++ events
  view : next.info.view = session.info.view.applyAll events
  stays : session.done = true → next.done = true
  quiet : session.done = true → ∀ event ∈ events, event.closes = true
  last : (∃ event ∈ events, event.terminalDone = true) → events.length = 1 ∧ next.done = true

theorem Told.silent {session next : TerminalSession} (hsent : next.sent = session.sent)
    (hview : next.info.view = session.info.view) (hdone : next.done = session.done) :
    Told session next [] := by
  refine ⟨?_, hview, ?_, ?_, ?_⟩
  · rw [hsent, List.append_nil]
  · rw [hdone]
    exact id
  · exact fun _ _ hmem => absurd hmem List.not_mem_nil
  · rintro ⟨event, hmem, -⟩
    exact absurd hmem List.not_mem_nil

theorem noteAll_view (info : TerminalSessionInfo) (changed : Bool)
    (events : List TerminalMetadata) :
    (info.noteAll changed events).1.view = info.view.applyAll (events.map (·.event)) := by
  induction events generalizing info changed with
  | nil => rfl
  | cons event events ih =>
    have hnote : (info.note event).view = info.view.apply event.event := by
      cases event <;> rfl
    rw [List.map_cons, TerminalView.applyAll, List.foldl_cons, ← hnote]
    unfold TerminalSessionInfo.noteAll
    split
    · rename_i hsame
      rw [hsame]
      exact ih info changed
    · exact ih _ true

theorem metadata_plain (metadata : List TerminalMetadata) (event : TerminalEvent)
    (hmem : event ∈ metadata.map (·.event)) : event.terminalDone = false ∧ event.gap = false := by
  obtain ⟨noted, -, heq⟩ := List.mem_map.mp hmem
  rw [← heq]
  cases noted with
  | title text | cwd path => exact ⟨rfl, rfl⟩

theorem recordOutput_told (session next : TerminalSession) (bytes : Str) (now : ℕ)
    (updated : Option TerminalSessionInfo) (hexit : session.info.exit = none)
    (h : session.recordOutput parseOscMetadata bytes now = some (next, updated)) :
    ∃ events, Told session next events := by
  unfold TerminalSession.recordOutput at h
  split at h
  · cases h
  · rename_i hopen
    rw [not_or, Bool.not_eq_true] at hopen
    have hdone : session.done = false := by
      simp [TerminalSession.done, hexit, hopen.1]
    cases h
    refine ⟨_, rfl, ?_, ?_, ?_, ?_⟩
    · exact noteAll_view _ _ _
    · rw [hdone]
      nofun
    · rw [hdone]
      nofun
    · rintro ⟨event, hmem, hevent⟩
      rcases List.mem_cons.mp hmem with hchunk | hmetadata
      · rw [hchunk] at hevent
        cases hevent
      · rw [(metadata_plain _ _ hmetadata).1] at hevent
        cases hevent

theorem control_plain (session : TerminalSession) (attachId cols rows : ℕ) (event : TerminalEvent)
    (hmem : event ∈ (if session.info.primaryAttachId ≠ some attachId then
        [TerminalEvent.controlChanged attachId] else []) ++
      if (session.info.cols, session.info.rows) ≠ (cols, rows) then
        [TerminalEvent.pseudoTerminalResized cols rows] else []) :
    event.terminalDone = false ∧ event.gap = false := by
  rcases List.mem_append.mp hmem with hcontrol | hresized
  · split at hcontrol
    · rw [List.mem_singleton.mp hcontrol]
      exact ⟨rfl, rfl⟩
    · exact absurd hcontrol List.not_mem_nil
  · split at hresized
    · rw [List.mem_singleton.mp hresized]
      exact ⟨rfl, rfl⟩
    · exact absurd hresized List.not_mem_nil

theorem takeControl_told (session : TerminalSession) (attachId rpcSessionId cols rows : ℕ)
    (resize : Except ServiceError Unit)
    (htells : session.tells (.takeControl attachId rpcSessionId cols rows resize) = true) :
    ∃ events, Told session (session.takeControl attachId rpcSessionId cols rows resize).1 events := by
  unfold TerminalSession.tells at htells
  unfold TerminalSession.takeControl
  cases hvalid : validateAttachOwner session attachId rpcSessionId with
  | error err => exact ⟨[], Told.silent rfl rfl rfl⟩
  | ok valid =>
    simp only [hvalid, Bool.and_eq_true, Bool.not_eq_true', Option.isNone_iff_eq_none,
      Bool.or_eq_true, decide_eq_true_eq] at htells
    obtain ⟨⟨hclosed, hexit⟩, htold⟩ := htells
    have hdone : session.done = false := by
      simp [TerminalSession.done, hexit, hclosed]
    cases resize with
    | error err =>
      obtain ⟨hprimary, hcols, hrows⟩ := htold.resolve_left nofun
      refine ⟨[], Told.silent rfl ?_ rfl⟩
      simp [TerminalSessionInfo.view, hprimary, hcols, hrows]
    | ok resized =>
      refine ⟨_, List.append_assoc _ _ _, ?_, ?_, ?_, ?_⟩
      · by_cases hprimary : session.info.primaryAttachId = some attachId
        · by_cases hsize : session.info.cols = cols ∧ session.info.rows = rows
          · simp [TerminalSessionInfo.view, TerminalView.applyAll, hprimary, hsize]
          · simp [TerminalSessionInfo.view, TerminalView.applyAll, TerminalView.apply, hprimary, hsize]
        · by_cases hsize : session.info.cols = cols ∧ session.info.rows = rows
          · simp [TerminalSessionInfo.view, TerminalView.applyAll, TerminalView.apply, hprimary, hsize]
          · simp [TerminalSessionInfo.view, TerminalView.applyAll, TerminalView.apply, hprimary, hsize]
      · rw [hdone]
        nofun
      · rw [hdone]
        nofun
      · rintro ⟨event, hmem, hevent⟩
        rw [(control_plain session attachId cols rows event hmem).1] at hevent
        cases hevent

theorem closed_told (session next : TerminalSession) (reason : TerminalSessionCloseReason)
    (hsent : next.sent = session.sent ++ [.sessionClosed reason])
    (hinfo : next.info = session.info) (hclosed : next.closed = true) :
    Told session next [.sessionClosed reason] := by
  have hdone : next.done = true := by
    simp [TerminalSession.done, hclosed]
  refine ⟨hsent, ?_, fun _ => hdone, ?_, fun _ => ⟨rfl, hdone⟩⟩
  · rw [hinfo]
    rfl
  · intro _ event hmem
    rw [List.mem_singleton.mp hmem]
    rfl

theorem apply_told (session : TerminalSession) (op : SessionOp) (htells : session.tells op = true)
    (hreader : op.ofReader = true → session.info.exit = none) :
    ∃ events, Told session (session.apply parseOscMetadata op) events := by
  revert htells hreader
  have hsilent : ∃ events, Told session session events := ⟨[], Told.silent rfl rfl rfl⟩
  refine session.apply_cases (P := fun op next => session.tells op = true →
    (op.ofReader = true → session.info.exit = none) → ∃ events, Told session next events)
    parseOscMetadata op (fun _ _ _ => hsilent) ?_ (fun _ _ _ _ _ _ => ⟨[], Told.silent rfl rfl rfl⟩)
    (fun _ _ _ _ => ⟨[], Told.silent rfl rfl rfl⟩) ?_ ?_ ?_ ?_
  · intro bytes now result h _ hreader
    exact recordOutput_told parseOscMetadata session result.1 bytes now result.2 (hreader rfl) h
  · intro attachId rpcSessionId cols rows resize htells _
    exact takeControl_told session attachId rpcSessionId cols rows resize htells
  · exact fun _ _ => ⟨_, closed_told session _ .closedByClient rfl rfl rfl⟩
  · intro code signal now hrunning _ _
    have hdone : session.done = false := by
      rw [not_or, Bool.not_eq_true, Bool.not_eq_true] at hrunning
      simp only [TerminalSession.done, hrunning.1, hrunning.2, Bool.or_false]
    refine ⟨_, rfl, rfl, fun _ => rfl, ?_, fun _ => ⟨rfl, rfl⟩⟩
    rw [hdone]
    nofun
  · exact fun message _ _ => ⟨_, closed_told session _ (.failed message) rfl rfl rfl⟩

theorem apply_plain (session : TerminalSession) (op : SessionOp) :
    (∃ events, (session.apply parseOscMetadata op).sent = session.sent ++ events ∧ NoGap events) ∧
      ((session.apply parseOscMetadata op).info.exit = session.info.exit ∨
        ∃ code signal now, op = .exited code signal now) := by
  have hnone : ∃ events, session.sent = session.sent ++ events ∧ NoGap events :=
    ⟨[], (List.append_nil _).symm, fun _ hmem => absurd hmem List.not_mem_nil⟩
  have hone (event : TerminalEvent) (hevent : event.gap = false) :
      ∃ events, session.sent ++ [event] = session.sent ++ events ∧ NoGap events := by
    refine ⟨_, rfl, ?_⟩
    intro other hmem
    rw [List.mem_singleton.mp hmem]
    exact hevent
  refine session.apply_cases (P := fun op next =>
    (∃ events, next.sent = session.sent ++ events ∧ NoGap events) ∧
      (next.info.exit = session.info.exit ∨ ∃ code signal now, op = .exited code signal now))
    parseOscMetadata op (fun _ => ⟨hnone, .inl rfl⟩) ?_ (fun _ _ _ _ => ⟨hnone, .inl rfl⟩)
    (fun _ _ => ⟨hnone, .inl rfl⟩) ?_ ⟨hone _ rfl, .inl rfl⟩
    (fun code signal now _ => ⟨hone _ rfl, .inr ⟨code, signal, now, rfl⟩⟩)
    (fun _ => ⟨hone _ rfl, .inl rfl⟩)
  · intro bytes now result h
    obtain ⟨-, -, -, ⟨metadata, hsent⟩, -⟩ :=
      session.recordOutput_eq_some parseOscMetadata result.1 bytes now result.2 h
    refine ⟨⟨_, hsent, ?_⟩, .inl ?_⟩
    · intro event hmem
      rcases List.mem_cons.mp hmem with hchunk | hmetadata
      · rw [hchunk]
        rfl
      · exact (metadata_plain _ _ hmetadata).2
    · exact session.recordOutput_exit parseOscMetadata result.1 bytes now result.2 h
  · intro attachId rpcSessionId cols rows resize
    unfold TerminalSession.takeControl
    split
    · exact ⟨hnone, .inl rfl⟩
    · split
      · exact ⟨hnone, .inl rfl⟩
      · refine ⟨⟨_, List.append_assoc _ _ _, ?_⟩, .inl rfl⟩
        exact fun event hmem => (control_plain session attachId cols rows event hmem).2

def Quiet (first later : TerminalEvent) : Prop := first.terminalDone = true → later.closes = true

structure TerminalStream.Tracks (stream : TerminalStream) (session : TerminalSession) : Prop where
  place : stream.next ≤ session.sent.length
  view : stream.view.applyAll (session.sent.drop stream.next) = session.info.view
  quiet : (session.sent.drop stream.next).Pairwise Quiet
  done : (∃ event ∈ session.sent.drop stream.next, event.terminalDone = true) →
    session.done = true
  finished : stream.finished = true →
    session.done = true ∧ ∀ event ∈ session.sent.drop stream.next, event.closes = true
  numbers : stream.delivered.foldlM TerminalEvent.follow
    (stream.attached.session.latestOutputSeq + 1) =
      some ((recorded (session.sent.take stream.next)).length + 1)

theorem applyAll_closes (view : TerminalView) (events : List TerminalEvent)
    (h : ∀ event ∈ events, event.closes = true) : view.applyAll events = view := by
  induction events with
  | nil => rfl
  | cons event events ih =>
    have hevent := h event List.mem_cons_self
    rw [TerminalView.applyAll, List.foldl_cons]
    cases event with
    | sessionClosed reason => exact ih fun later hmem => h later (List.mem_cons_of_mem _ hmem)
    | _ => cases hevent

variable {stream next : TerminalStream} {session : TerminalSession}

theorem TerminalStream.Tracks.resynchronized (h : stream.Tracks session) :
    stream.Resynchronized session := by
  refine ⟨?_, ?_⟩
  · rw [h.numbers]
    rfl
  · rintro (hfinished | hend)
    · rw [← h.view, applyAll_closes _ _ (h.finished hfinished).2]
    · have hview := h.view
      unfold recv at hend
      split at hend
      · cases hend
      · have hhead := Option.map_eq_none_iff.mp hend
        rw [List.head?_eq_none_iff.mp hhead] at hview
        exact hview

theorem TerminalStream.Tracks.told (h : stream.Tracks session) (changed : TerminalSession)
    (events : List TerminalEvent) (htold : Told session changed events) : stream.Tracks changed := by
  have hdrop : changed.sent.drop stream.next = session.sent.drop stream.next ++ events := by
    rw [htold.sent, List.drop_append_of_le_length h.place]
  have htake : changed.sent.take stream.next = session.sent.take stream.next := by
    rw [htold.sent, List.take_append_of_le_length h.place]
  refine ⟨?_, ?_, ?_, ?_, ?_, ?_⟩
  · rw [htold.sent, List.length_append]
    exact Nat.le_add_right_of_le h.place
  · rw [hdrop, TerminalView.applyAll, List.foldl_append, htold.view, ← h.view]
    rfl
  · rw [hdrop, List.pairwise_append]
    refine ⟨h.quiet, ?_, ?_⟩
    · by_cases hlast : ∃ event ∈ events, event.terminalDone = true
      · obtain ⟨event, heq⟩ := List.length_eq_one_iff.mp (htold.last hlast).1
        rw [heq]
        exact List.pairwise_singleton _ _
      · refine List.Pairwise.imp_of_mem ?_ (List.pairwise_of_forall (fun _ _ => trivial))
        intro first later hfirst _ _ hdone
        exact absurd ⟨first, hfirst, hdone⟩ hlast
    · intro first hfirst later hlater hdone
      exact htold.quiet (h.done ⟨first, hfirst, hdone⟩) later hlater
  · rw [hdrop]
    rintro ⟨event, hmem, hdone⟩
    rcases List.mem_append.mp hmem with hold | hnew
    · exact htold.stays (h.done ⟨event, hold, hdone⟩)
    · exact (htold.last ⟨event, hnew, hdone⟩).2
  · intro hfinished
    obtain ⟨hdone, hcloses⟩ := h.finished hfinished
    refine ⟨htold.stays hdone, ?_⟩
    rw [hdrop]
    intro event hmem
    rcases List.mem_append.mp hmem with hold | hnew
    · exact hcloses event hold
    · exact htold.quiet hdone event hnew
  · rw [htake]
    exact h.numbers

theorem follow_sent (hs : session.Consistent) (place : ℕ) (event : TerminalEvent)
    (rest : List TerminalEvent) (hdrop : session.sent.drop place = event :: rest)
    (hgap : event.gap = false) :
    event.follow ((recorded (session.sent.take place)).length + 1) =
      some ((recorded (session.sent.take (place + 1))).length + 1) := by
  have hlt : place < session.sent.length := by
    by_contra hge
    rw [List.drop_eq_nil_of_le (by omega)] at hdrop
    cases hdrop
  have htake : session.sent.take (place + 1) = session.sent.take place ++ [event] := by
    rw [List.drop_eq_getElem_cons hlt] at hdrop
    rw [List.take_succ_eq_append_getElem hlt, (List.cons.inj hdrop).1]
  rw [htake, recorded_append, List.length_append]
  cases event with
  | outputChunk seq bytes =>
    have hrecorded : recorded session.sent = recorded (session.sent.take place) ++
        (⟨seq, bytes⟩ :: recorded rest) := by
      rw [← List.take_append_drop place session.sent, recorded_append, hdrop,
        List.take_left' (by rw [List.length_take]; omega)]
      rfl
    have hseq : seq = (recorded (session.sent.take place)).length + 1 := by
      refine head_drop OutputRecord.seq hs.numbered _ ⟨seq, bytes⟩ ?_
      rw [hrecorded, List.drop_left]
      rfl
    rw [hseq]
    exact if_pos rfl
  | historyGap nextSeq => cases hgap
  | _ => rfl

theorem TerminalStream.Tracks.readValue (h : stream.Tracks session) (hs : session.Consistent)
    (hgap : NoGap session.sent) (event : TerminalEvent) (place : ℕ)
    (hrecv : recv TERMINAL_EVENT_CHANNEL_CAPACITY session.sent stream.next =
      some (.value event, place)) :
    { stream with
      next := place
      delivered := stream.delivered ++ [event]
      finished := event.terminalDone }.Tracks session := by
  obtain ⟨hplace, hdrop⟩ := recv_value _ _ _ _ _ hrecv
  have hmem : event ∈ session.sent := by
    refine List.mem_of_mem_drop (i := stream.next) ?_
    rw [hdrop]
    exact List.mem_cons_self
  have hview := h.view
  have hquiet := h.quiet
  have hdone := h.done
  rw [hdrop] at hview hquiet hdone
  obtain ⟨hfirst, hrest⟩ := List.pairwise_cons.mp hquiet
  rw [hplace]
  refine ⟨?_, ?_, hrest, ?_, ?_, ?_⟩
  · by_contra hge
    have hlen := congrArg List.length hdrop
    rw [List.length_drop, List.length_cons] at hlen
    dsimp only at hge
    omega
  · unfold TerminalStream.view
    rw [TerminalView.applyAll, TerminalView.applyAll, List.foldl_append]
    exact hview
  · rintro ⟨later, hlater, hends⟩
    exact hdone ⟨later, List.mem_cons_of_mem _ hlater, hends⟩
  · intro hends
    exact ⟨hdone ⟨event, List.mem_cons_self, hends⟩, fun later hlater => hfirst later hlater hends⟩
  · rw [List.foldlM_append, h.numbers]
    have hfollow := follow_sent hs stream.next event _ hdrop (hgap event hmem)
    simp only [Option.bind_eq_bind, Option.bind_some, List.foldlM_cons, List.foldlM_nil, hfollow]
    rfl

theorem TerminalStream.Tracks.readLagged (h : stream.Tracks session)
    (hspared : stream.spared session.sent = true) (place : ℕ)
    (hrunning : stream.finished = false)
    (hrecv : recv TERMINAL_EVENT_CHANNEL_CAPACITY session.sent stream.next =
      some (.lagged, place)) :
    { stream with
      next := place
      delivered := stream.delivered ++
        [TerminalEvent.historyGap (stream.attached.session.latestOutputSeq + 1)] }.Tracks session := by
  obtain ⟨hplace, hlt⟩ := recv_lagged _ _ _ _ hrecv
  have hspared := of_decide_eq_true hspared
  obtain ⟨hlatest, houtdone⟩ := hspared.resolve_left (by omega)
  have hsplit : session.sent.drop stream.next =
      (session.sent.take place).drop stream.next ++ session.sent.drop place := by
    rw [← List.drop_append_of_le_length (by rw [List.length_take]; omega), List.take_append_drop]
  have hview : stream.view.applyAll (session.sent.drop place) =
      stream.view.applyAll (session.sent.drop stream.next) := by
    rw [hsplit, hplace, applyAll_outdone _ _ _ houtdone]
    exact (List.foldl_append ..).symm
  have hsuffix := (drop_suffix session.sent stream.next place (by omega)).sublist
  rw [← hplace] at hlatest
  refine ⟨?_, ?_, h.quiet.sublist hsuffix, ?_, ?_, ?_⟩
  · dsimp only
    omega
  · rw [← h.view, ← hview]
    unfold TerminalStream.view
    rw [TerminalView.applyAll, TerminalView.applyAll, TerminalView.applyAll, List.foldl_append]
    rfl
  · rintro ⟨later, hlater, hends⟩
    exact h.done ⟨later, hsuffix.subset hlater, hends⟩
  · intro hfinished
    rw [hrunning] at hfinished
    cases hfinished
  · rw [List.foldlM_append, h.numbers, hlatest]
    rfl

theorem TerminalStream.Tracks.read (h : stream.Tracks session) (hs : session.Consistent)
    (hgap : NoGap session.sent) (hspared : stream.spared session.sent = true)
    (hread : stream.read session.sent = some next) : next.Tracks session := by
  obtain ⟨hrunning, hread⟩ := Option.ite_none_left_eq_some.mp hread
  obtain ⟨⟨received, place⟩, hrecv, heq⟩ := Option.map_eq_some_iff.mp hread
  cases received with
  | value event =>
    rw [← heq]
    exact h.readValue hs hgap event place hrecv
  | lagged =>
    rw [← heq]
    exact h.readLagged hspared place (Bool.eq_false_of_not_eq_true hrunning) hrecv

structure StreamedSession.Kept (streamed : StreamedSession) : Prop where
  consistent : streamed.session.Consistent
  noGap : NoGap streamed.session.sent
  reader : streamed.session.info.exit.isSome = true → streamed.reading = false
  tracks : ∀ stream, streamed.stream = some stream → stream.Tracks streamed.session

variable {streamed changed : StreamedSession}

theorem AttachedTerminal.stream_tracks (session : TerminalSession) (attached : AttachedTerminal)
    (hs : session.Consistent) (hinfo : attached.session = session.info)
    (hreceiver : attached.receiver = session.sent.length) : attached.stream.Tracks session := by
  have hdrop : session.sent.drop attached.stream.next = [] := by
    refine List.drop_eq_nil_of_le ?_
    exact Nat.le_of_eq hreceiver.symm
  have htake : session.sent.take attached.stream.next = session.sent := by
    refine List.take_of_length_le ?_
    exact Nat.le_of_eq hreceiver.symm
  refine ⟨Nat.le_of_eq hreceiver, ?_, ?_, ?_, ?_, ?_⟩
  · rw [hdrop]
    show attached.session.view.applyAll (attached.session.exit.toList.map .sessionExited) = _
    rw [hinfo]
    cases hexit : session.info.exit with
    | none => rfl
    | some exit =>
      simp [TerminalView.applyAll, TerminalView.apply, TerminalSessionInfo.view, hexit]
  · rw [hdrop]
    exact List.Pairwise.nil
  · rw [hdrop]
    rintro ⟨event, hmem, -⟩
    exact absurd hmem List.not_mem_nil
  · intro hfinished
    have hexit : session.info.exit.isSome = true := by
      rw [← hinfo]
      exact hfinished
    refine ⟨?_, ?_⟩
    · simp [TerminalSession.done, hexit]
    · rw [hdrop]
      exact fun _ hmem => absurd hmem List.not_mem_nil
  · rw [htake, ← hs.latest]
    show (attached.session.exit.toList.map TerminalEvent.sessionExited).foldlM TerminalEvent.follow
      (attached.session.latestOutputSeq + 1) = _
    rw [hinfo]
    cases session.info.exit with
    | none | some exit => rfl

theorem StreamedSession.Kept.op (h : streamed.Kept) (op : SessionOp)
    (hrecovers : streamed.recovers (.op op) = true)
    (hstep : streamed.step parseOscMetadata (.op op) = some changed) : changed.Kept := by
  obtain ⟨hreading, heq⟩ := Option.ite_none_left_eq_some.mp hstep
  obtain ⟨⟨events, hsent, hnoGap⟩, hexit⟩ := apply_plain parseOscMetadata streamed.session op
  cases heq
  have hreader : op.ofReader = true → streamed.session.info.exit = none := by
    intro hreader
    rw [hreader, Bool.true_and, Bool.not_eq_true, Bool.not_eq_false'] at hreading
    by_contra hsome
    rw [h.reader (Option.isSome_iff_ne_none.mpr hsome)] at hreading
    cases hreading
  refine ⟨h.consistent.apply parseOscMetadata op, ?_, ?_, ?_⟩
  · rw [hsent]
    intro event hmem
    rcases List.mem_append.mp hmem with hold | hnew
    · exact h.noGap event hold
    · exact hnoGap event hnew
  · intro hsome
    rcases hexit with hsame | ⟨code, signal, now, heq⟩
    · rw [hsame] at hsome
      rw [h.reader hsome]
      rfl
    · rw [heq]
      exact Bool.and_false _
  · intro stream hstream
    unfold StreamedSession.recovers at hrecovers
    rw [hstream] at hrecovers
    obtain ⟨told, htold⟩ := apply_told parseOscMetadata streamed.session op hrecovers hreader
    exact (h.tracks stream hstream).told _ told htold

theorem StreamedSession.Kept.open (h : streamed.Kept) (attachId rpcSessionId : ℕ)
    (afterSeq : Option ℕ) (now : ℕ)
    (hstep : streamed.step parseOscMetadata (.stream attachId rpcSessionId afterSeq now) =
      some changed) : changed.Kept := by
  obtain ⟨-, hstep⟩ := Option.ite_none_left_eq_some.mp hstep
  split at hstep
  · cases hstep
    exact h
  · rename_i session attached hattach
    obtain ⟨-, hnext, -, hreceiver⟩ :=
      streamed.session.attach_eq_ok session attachId rpcSessionId afterSeq now attached hattach
    have hinfo : attached.session = session.info := by
      obtain ⟨-, hattach⟩ := (bind_unit_eq_ok _ _ _).mp hattach
      cases hattach
      rfl
    have hconsistent : session.Consistent := by
      rw [hnext]
      exact h.consistent.of_same rfl rfl rfl rfl
    cases hstep
    refine ⟨hconsistent, ?_, ?_, ?_⟩
    · rw [hnext]
      exact h.noGap
    · rw [hnext]
      exact h.reader
    · intro stream hstream
      cases hstream
      refine attached.stream_tracks session hconsistent hinfo ?_
      rw [hreceiver, hnext]

theorem StreamedSession.Kept.step (h : streamed.Kept) (step : StreamedStep)
    (hstep : streamed.stepRecovering parseOscMetadata step = some changed) : changed.Kept := by
  obtain ⟨hrecovers, hstep⟩ := Option.ite_none_right_eq_some.mp hstep
  cases step with
  | op op => exact h.op parseOscMetadata op hrecovers hstep
  | stream attachId rpcSessionId afterSeq now =>
    exact h.open parseOscMetadata attachId rpcSessionId afterSeq now hstep
  | read =>
    obtain ⟨stream, hstream, hstep⟩ := Option.bind_eq_some_iff.mp hstep
    obtain ⟨next, hread, heq⟩ := Option.map_eq_some_iff.mp hstep
    unfold StreamedSession.recovers at hrecovers
    rw [hstream] at hrecovers
    cases heq
    refine ⟨h.consistent, h.noGap, h.reader, ?_⟩
    intro other hother
    cases hother
    exact (h.tracks stream hstream).read h.consistent h.noGap hrecovers hread

theorem attach_resynchronizes (request : CreateTerminalSessionReq) (terminalSessionId : ℕ)
    (creatorClientId : String) (initialCwd : Option String) (now : ℕ) (steps : List StreamedStep)
    (streamed : StreamedSession)
    (hrun : steps.foldlM (StreamedSession.stepRecovering parseOscMetadata)
      (.created request terminalSessionId creatorClientId initialCwd now) = some streamed)
    (stream : TerminalStream) (hstream : streamed.stream = some stream) :
    stream.Resynchronized streamed.session := by
  have hkept : streamed.Kept := by
    refine System.run_invariant (StreamedSession.stepRecovering parseOscMetadata) (·.Kept) ?_ steps
      ?_ hrun
    · exact fun streamed step next h hstep => h.step parseOscMetadata step hstep
    · refine ⟨TerminalSession.new_consistent _ _ _ _ _, ?_, ?_, ?_⟩
      · exact fun _ hmem => absurd hmem List.not_mem_nil
      · exact fun hexit => absurd hexit Bool.false_ne_true
      · exact fun stream hstream => absurd hstream.symm (Option.some_ne_none stream)
  exact (hkept.tracks stream hstream).resynchronized

end
def StreamedSession.run (streamed : StreamedSession) (steps : List StreamedStep) :
    Option StreamedSession :=
  steps.foldlM (StreamedSession.step fun _ => none) streamed

variable (streamed : StreamedSession)

theorem StreamedSession.run_append (steps rest : List StreamedStep) :
    streamed.run (steps ++ rest) = (streamed.run steps).bind (·.run rest) := by
  unfold StreamedSession.run
  rw [List.foldlM_append]
  rfl

def letter : StreamedStep := .op (.output [65] 0)

structure StreamedSession.Plain (streamed : StreamedSession) : Prop where
  opened : streamed.session.closed = false
  reading : streamed.reading = true
  parser : streamed.session.metadataParser = .normal

theorem letter_step (h : streamed.Plain) :
    ∃ next, streamed.run [letter] = some next ∧ next.Plain ∧ next.stream = streamed.stream ∧
      next.session.info.latestOutputSeq = streamed.session.info.latestOutputSeq + 1 ∧
      next.session.sent = streamed.session.sent ++
        [.outputChunk (streamed.session.info.latestOutputSeq + 1) [65]] := by
  obtain ⟨⟨session, updated⟩, hrecord⟩ :=
    streamed.session.recordOutput_of_open (fun _ => none) [65] 0 h.opened (List.cons_ne_nil _ _)
  have hstep : streamed.run [letter] = some { streamed with session := session } := by
    unfold StreamedSession.run letter
    rw [List.foldlM_cons]
    unfold StreamedSession.step
    dsimp only [SessionOp.ofReader, SessionOp.goesOn, TerminalSession.apply]
    rw [hrecord, h.reading, h.opened]
    rfl
  refine ⟨_, hstep, ?_⟩
  unfold TerminalSession.recordOutput at hrecord
  rw [if_neg (by simp [h.opened])] at hrecord
  simp only [TerminalMetadataParser.push, TerminalMetadataParser.pushByte, h.parser] at hrecord
  cases hrecord
  exact ⟨⟨h.opened, h.reading, rfl⟩, rfl, rfl, rfl⟩

theorem letters_run (count : ℕ) (streamed : StreamedSession) (h : streamed.Plain) :
    ∃ next, streamed.run (List.replicate count letter) = some next ∧ next.Plain ∧
      next.stream = streamed.stream ∧ next.session.sent = streamed.session.sent ++
        (List.range' (streamed.session.info.latestOutputSeq + 1) count).map (.outputChunk · [65]) := by
  induction count generalizing streamed with
  | zero => exact ⟨streamed, rfl, h, rfl, (List.append_nil _).symm⟩
  | succ count ih =>
    obtain ⟨middle, hstep, hplain, hstream, hlatest, hsent⟩ := letter_step streamed h
    obtain ⟨next, hrun, hplain', hstream', hsent'⟩ := ih middle hplain
    refine ⟨next, ?_, hplain', hstream'.trans hstream, ?_⟩
    · rw [List.replicate_succ, ← List.singleton_append, StreamedSession.run_append, hstep]
      exact hrun
    · rw [hsent', hsent, hlatest, List.append_assoc, List.range'_succ]
      rfl

theorem read_step (stream next : TerminalStream)
    (hstream : streamed.stream = some stream) (hread : stream.read streamed.session.sent = some next) :
    streamed.run [.read] = some { streamed with stream := some next } := by
  unfold StreamedSession.run
  rw [List.foldlM_cons]
  unfold StreamedSession.step
  rw [hstream, Option.bind_some, hread]
  rfl

theorem lagged_read (stream : TerminalStream)
    (hstream : streamed.stream = some stream) (hrunning : stream.finished = false)
    (hbehind : stream.next + TERMINAL_EVENT_CHANNEL_CAPACITY < streamed.session.sent.length) :
    streamed.run [.read] = some { streamed with stream := some { stream with
      next := streamed.session.sent.length - TERMINAL_EVENT_CHANNEL_CAPACITY
      delivered := stream.delivered ++
        [.historyGap (stream.attached.session.latestOutputSeq + 1)] } } := by
  refine read_step streamed stream _ hstream ?_
  unfold TerminalStream.read recv
  rw [hrunning, if_pos hbehind]
  rfl

def fresh : StreamedSession := .created ⟨80, 24, none⟩ 1 "client" none 0

def promptStream : List StreamedStep :=
  [letter, .stream 1 7 none 1, .op (.takeControl 1 7 100 30 (.ok ())), letter, .read, .read, .read,
    .op (.exited (some 0) none 5), .read]

theorem attach_resynchronizes_promptStream : ∃ streamed stream,
    promptStream.foldlM (StreamedSession.stepRecovering fun _ => none) fresh = some streamed ∧
    streamed.stream = some stream ∧ stream.finished = true ∧ stream.delivered.length = 4 ∧
    stream.Resynchronized streamed.session := by
  have hrun : (promptStream.foldlM (StreamedSession.stepRecovering fun _ => none) fresh).map
      (·.stream.map fun stream => (stream.finished, stream.delivered.length)) =
        some (some (true, 4)) := by decide +kernel
  obtain ⟨streamed, hstreamed, hview⟩ := Option.map_eq_some_iff.mp hrun
  obtain ⟨stream, hstream, hlast⟩ := Option.map_eq_some_iff.mp hview
  obtain ⟨hfinished, hlength⟩ := Prod.mk.inj hlast
  refine ⟨streamed, stream, hstreamed, hstream, hfinished, hlength, ?_⟩
  exact attach_resynchronizes (fun _ => none) ⟨80, 24, none⟩ 1 "client" none 0 promptStream streamed
    hstreamed stream hstream

def floodSteps : List StreamedStep :=
  [.stream 1 7 none 0] ++ List.replicate (TERMINAL_EVENT_CHANNEL_CAPACITY + 1) letter ++
    [.read] ++ [.read]

theorem capacity_pos : ∃ k, TERMINAL_EVENT_CHANNEL_CAPACITY = k + 1 := ⟨4095, rfl⟩

theorem overflow_misleads : ∃ streamed stream, fresh.run floodSteps = some streamed ∧
    streamed.stream = some stream ∧
    stream.delivered = [.historyGap 1, .outputChunk 2 [65]] ∧
    ¬ stream.Resynchronized streamed.session := by
  obtain ⟨start, hstart, hplain, hnone, hlatest, stream, hstream, hplace, hrunning, hdelivered,
      hsnapshot⟩ : ∃ start, fresh.run [.stream 1 7 none 0] = some start ∧ start.Plain ∧
      start.session.sent = [] ∧ start.session.info.latestOutputSeq = 0 ∧
      ∃ stream, start.stream = some stream ∧ stream.next = 0 ∧ stream.finished = false ∧
        stream.delivered = [] ∧ stream.attached.session.latestOutputSeq = 0 :=
    ⟨_, rfl, ⟨rfl, rfl, rfl⟩, rfl, rfl, _, rfl, rfl, rfl, rfl, rfl⟩
  obtain ⟨flooded, hflood, -, hsame, hsent⟩ :=
    letters_run (TERMINAL_EVENT_CHANNEL_CAPACITY + 1) start hplain
  rw [hnone, hlatest, List.nil_append] at hsent
  have hlength : flooded.session.sent.length = TERMINAL_EVENT_CHANNEL_CAPACITY + 1 := by
    rw [hsent, List.length_map, List.length_range']
  have hlag := lagged_read flooded stream (hsame.trans hstream) hrunning (by omega)
  rw [hlength, hdelivered, hsnapshot, Nat.add_sub_cancel_left, List.nil_append] at hlag
  obtain ⟨k, hk⟩ := capacity_pos
  have hdrop : ∃ rest, flooded.session.sent.drop 1 = .outputChunk 2 [65] :: rest := by
    rw [hsent, hk, List.range'_succ, List.range'_succ]
    exact ⟨_, rfl⟩
  obtain ⟨rest, hdrop⟩ := hdrop
  have hrecv := recv_of_le TERMINAL_EVENT_CHANNEL_CAPACITY flooded.session.sent 1 (by omega)
  rw [hdrop, List.head?_cons, Option.map_some] at hrecv
  have hread : TerminalStream.read { stream with next := 1, delivered := [.historyGap (0 + 1)] }
      flooded.session.sent = some { stream with
        next := 1 + 1
        delivered := [.historyGap (0 + 1)] ++ [.outputChunk 2 [65]]
        finished := false } := by
    unfold TerminalStream.read
    rw [hrunning, hrecv]
    rfl
  have hlast := read_step { flooded with stream := some { stream with
    next := 1, delivered := [.historyGap (0 + 1)] } } _ _ rfl hread
  refine ⟨_, _, Eq.trans ?_ hlast, rfl, rfl, ?_⟩
  · unfold floodSteps
    rw [StreamedSession.run_append, StreamedSession.run_append, StreamedSession.run_append, hstart,
      Option.bind_some, hflood, Option.bind_some, hlag, Option.bind_some]
  · intro hresynchronized
    have hnumbers := hresynchronized.output
    cases hnumbers

end Rieul.Terminal
