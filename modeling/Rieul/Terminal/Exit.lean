import Rieul.Terminal.Replay

/-!
# The end of a terminal's output (daemon/host/src/terminal.rs)

Two threads of the local backend send into one queue: one sends what it reads
from the pseudo terminal, the other that the child exited. Who takes from the
queue stops at the exit.
-/

namespace Rieul.Terminal
open Bytes

inductive HostedTerminalEvent where
  | output (bytes : Str)
  | exited (code : Option Int) (signal : Option String)
  | closed (message : String)

structure ExitStatus where
  exitCode : ℕ
  signal : Option String

def readerEvents : List (Except String Str) → List HostedTerminalEvent
  | [] => []
  | .ok [] :: _ => []
  | .ok (byte :: bytes) :: reads => .output (byte :: bytes) :: readerEvents reads
  | .error err :: _ => [.closed ("terminal output reader failed: " ++ err)]

def readChunks : List (Except String Str) → List Str
  | .ok (byte :: bytes) :: reads => (byte :: bytes) :: readChunks reads
  | _ => []

def waiterEvent : Except String ExitStatus → HostedTerminalEvent
  | .ok status => .exited (some status.exitCode) status.signal
  | .error err => .closed ("failed to wait for terminal child: " ++ err)

/-- The queue, when the waiting thread sends after `k` events of the reader. -/
def queued (reads : List (Except String Str)) (wait : Except String ExitStatus) (k : ℕ) :
    List HostedTerminalEvent :=
  (readerEvents reads).take k ++ waiterEvent wait :: (readerEvents reads).drop k

section
variable (parseOscMetadata : Str → Option TerminalMetadata)

/-- `spawn_host_event_reader`, from the entry of the session in the table; event `n` is handled at
`clock n`. -/
def hostEventReader (clock : ℕ → ℕ) (entry : Option TerminalSession) :
    List HostedTerminalEvent → Option TerminalSession
  | [] => entry
  | .output bytes :: events =>
    match entry.bind (·.recordOutput parseOscMetadata bytes (clock 0)) with
    | none => entry
    | some (session, _) => hostEventReader (fun n => clock (n + 1)) (some session) events
  | .exited code signal :: _ =>
    entry.map fun session => (session.markExited code signal (clock 0)).getD session
  | .closed _ :: _ => none

def NothingLost (start : TerminalSession) (chunks : List Str) (entry : Option TerminalSession) :
    Prop :=
  ∃ session, entry = some session ∧ session.info.exit.isSome ∧
    (recorded session.sent).map (·.bytes) = (recorded start.sent).map (·.bytes) ++ chunks

theorem TerminalSessionInfo.noteAll_exit (info : TerminalSessionInfo) (changed : Bool)
    (events : List TerminalMetadata) : (info.noteAll changed events).1.exit = info.exit := by
  refine noteAll_keeps (·.exit) ?_ info changed events
  intro info event
  cases event <;> rfl

theorem TerminalSession.recordOutput_exit (session next : TerminalSession) (bytes : Str) (now : ℕ)
    (updated : Option TerminalSessionInfo)
    (h : session.recordOutput parseOscMetadata bytes now = some (next, updated)) :
    next.info.exit = session.info.exit := by
  unfold TerminalSession.recordOutput at h
  split at h
  · cases h
  · cases h
    exact TerminalSessionInfo.noteAll_exit _ _ _

theorem TerminalSession.markExited_of_open (session : TerminalSession)
    (hopen : session.closed = false) (hexit : session.info.exit = none) (code : Option Int)
    (signal : Option String) (now : ℕ) : ∃ exited, session.markExited code signal now = some exited ∧
      exited.info.exit.isSome ∧ recorded exited.sent = recorded session.sent := by
  unfold TerminalSession.markExited
  rw [if_neg (by simp [hopen, hexit])]
  exact ⟨_, rfl, rfl, recorded_snoc _ _ rfl⟩

theorem hostEventReader_outputs (chunks : List Str) (hchunks : ∀ chunk ∈ chunks, chunk ≠ [])
    (events : List HostedTerminalEvent) (clock : ℕ → ℕ) (start : TerminalSession)
    (hopen : start.closed = false) :
    ∃ clock' session, session.closed = false ∧ session.info.exit = start.info.exit ∧
      (recorded session.sent).map (·.bytes) = (recorded start.sent).map (·.bytes) ++ chunks ∧
      hostEventReader parseOscMetadata clock (some start) (chunks.map .output ++ events) =
        hostEventReader parseOscMetadata clock' (some session) events := by
  induction chunks generalizing clock start with
  | nil => exact ⟨clock, start, hopen, rfl, (List.append_nil _).symm, rfl⟩
  | cons chunk chunks ih =>
    rw [List.forall_mem_cons] at hchunks
    obtain ⟨⟨next, updated⟩, hrecord⟩ :=
      start.recordOutput_of_open parseOscMetadata chunk (clock 0) hopen hchunks.1
    obtain ⟨_, hopen', _, ⟨metadata, hsent⟩, _⟩ :=
      start.recordOutput_eq_some parseOscMetadata next chunk (clock 0) updated hrecord
    have hexit := start.recordOutput_exit parseOscMetadata next chunk (clock 0) updated hrecord
    have hbytes : (recorded next.sent).map (·.bytes) =
        (recorded start.sent).map (·.bytes) ++ [chunk] := by
      rw [hsent, recorded_append, recorded_chunk, List.map_append]
      rfl
    obtain ⟨clock', session, hopen'', hexit', hbytes', hrest⟩ :=
      ih hchunks.2 (fun n => clock (n + 1)) next hopen'
    refine ⟨clock', session, hopen'', hexit'.trans hexit, ?_, ?_⟩
    · rw [hbytes', hbytes, List.append_assoc]
      rfl
    · rw [List.map_cons, List.cons_append, hostEventReader, Option.bind_some, hrecord]
      exact hrest

theorem readerEvents_eq (reads : List (Except String Str)) :
    ∃ rest : List HostedTerminalEvent,
      readerEvents reads = (readChunks reads).map .output ++ rest ∧
        (rest = [] ∨ ∃ message, rest = [.closed message]) ∧
        ∀ chunk ∈ readChunks reads, chunk ≠ [] := by
  induction reads with
  | nil => exact ⟨[], rfl, .inl rfl, fun chunk h => absurd h List.not_mem_nil⟩
  | cons read reads ih =>
    cases read with
    | error err => exact ⟨_, rfl, .inr ⟨_, rfl⟩, fun chunk h => absurd h List.not_mem_nil⟩
    | ok bytes =>
      cases bytes with
      | nil => exact ⟨[], rfl, .inl rfl, fun chunk h => absurd h List.not_mem_nil⟩
      | cons byte bytes =>
        obtain ⟨rest, hevents, hrest, hchunks⟩ := ih
        refine ⟨rest, ?_, hrest, ?_⟩
        · rw [readerEvents, hevents]
          rfl
        exact List.forall_mem_cons.mpr ⟨List.cons_ne_nil _ _, hchunks⟩

/-- What is read is recorded, and the session has exited, exactly if the exit is sent after the last
chunk and before a failure of the reader. -/
theorem nothing_lost_iff (clock : ℕ → ℕ) (start : TerminalSession) (hopen : start.closed = false)
    (hexit : start.info.exit = none) (reads : List (Except String Str))
    (wait : Except String ExitStatus) (k : ℕ) (hk : k ≤ (readerEvents reads).length) :
    NothingLost start (readChunks reads)
        (hostEventReader parseOscMetadata clock (some start) (queued reads wait k)) ↔
      (∃ status, wait = .ok status) ∧ k = (readChunks reads).length := by
  obtain ⟨rest, hevents, hrest, hchunks⟩ := readerEvents_eq reads
  unfold queued
  rw [hevents] at hk ⊢
  by_cases hall : k ≤ (readChunks reads).length
  · -- the queue holds `k` chunks and then what the waiting thread sent
    have htake : ((readChunks reads).map HostedTerminalEvent.output ++ rest).take k =
        ((readChunks reads).take k).map .output := by
      rw [List.take_append_of_le_length (by rw [List.length_map]; exact hall), List.map_take]
    obtain ⟨clock', session, hopen', hexit', hbytes, hreader⟩ := hostEventReader_outputs
      parseOscMetadata ((readChunks reads).take k)
      (fun chunk h => hchunks chunk (List.mem_of_mem_take h))
      (waiterEvent wait :: ((readChunks reads).map HostedTerminalEvent.output ++ rest).drop k) clock
      start hopen
    rw [htake, hreader]
    cases wait with
    | error err =>
      constructor
      · rintro ⟨_, hnone, _⟩
        cases hnone
      · rintro ⟨⟨_, herr⟩, _⟩
        cases herr
    | ok status =>
      obtain ⟨exited, hmark, hsome, hrecorded⟩ := session.markExited_of_open hopen'
        (hexit'.trans hexit) (some status.exitCode) status.signal (clock' 0)
      rw [waiterEvent, hostEventReader, Option.map_some, hmark]
      constructor
      · rintro ⟨_, ⟨⟩, _, hlost⟩
        rw [Option.getD_some, hrecorded, hbytes] at hlost
        have hlength := congrArg List.length (List.append_cancel_left hlost)
        rw [List.length_take] at hlength
        exact ⟨⟨status, rfl⟩, by omega⟩
      · rintro ⟨_, hlength⟩
        refine ⟨exited, rfl, hsome, ?_⟩
        rw [hrecorded, hbytes, hlength, List.take_length]
  · -- the reader failed before the waiting thread sent
    rcases hrest with rfl | ⟨message, rfl⟩
    · rw [List.append_nil, List.length_map] at hk
      exact absurd hk hall
    · obtain ⟨clock', session, _, _, _, hreader⟩ := hostEventReader_outputs parseOscMetadata
        (readChunks reads) hchunks [.closed message, waiterEvent wait] clock start hopen
      have hqueue : ((readChunks reads).map HostedTerminalEvent.output ++
          [HostedTerminalEvent.closed message]).take k ++
          waiterEvent wait ::
            ((readChunks reads).map HostedTerminalEvent.output ++
              [HostedTerminalEvent.closed message]).drop k =
          (readChunks reads).map .output ++ [.closed message, waiterEvent wait] := by
        rw [List.take_of_length_le (by simp; omega), List.drop_of_length_le (by simp; omega)]
        simp
      rw [hqueue, hreader]
      constructor
      · rintro ⟨_, hnone, _⟩
        cases hnone
      · rintro ⟨_, hlength⟩
        omega

end

def started : TerminalSession := TerminalSession.new ⟨80, 24, none⟩ 1 "client" none 0

def lastWords : List (Except String Str) := [.ok [98, 121, 101], .ok []]

theorem lastWords_kept :
    NothingLost started (readChunks lastWords)
        (hostEventReader (fun _ => none) id (some started) (queued lastWords (.ok ⟨0, none⟩) 1)) ↔
      (∃ status, (Except.ok ⟨0, none⟩ : Except String ExitStatus) = .ok status) ∧
        1 = (readChunks lastWords).length :=
  nothing_lost_iff (fun _ => none) id started rfl rfl lastWords (.ok ⟨0, none⟩) 1 (by decide)

theorem lastWords_lost :
    (hostEventReader (fun _ => none) id (some started) (queued lastWords (.ok ⟨0, none⟩) 0)).map
        (fun session => (session.info.exit.isSome, recorded session.sent)) = some (true, []) ∧
      readChunks lastWords = [[98, 121, 101]] ∧
      ¬ NothingLost started (readChunks lastWords)
        (hostEventReader (fun _ => none) id (some started) (queued lastWords (.ok ⟨0, none⟩) 0)) := by
  refine ⟨rfl, rfl, ?_⟩
  rintro ⟨_, ⟨⟩, _, hbytes⟩
  cases hbytes

end Rieul.Terminal
