import Rieul.Screen.Helper

/-!
# The proxy (`Proxy` and `proxy_worker` of daemon/host/src/desktop_ipc.rs)

The calls of the daemon wait in a bounded queue. The worker connects for a call,
which after the first connection must be a recovery, and then sends the calls in
order over that connection and answers them, until the connection ends. Each
connection has the generation in which it was opened.
-/

namespace Rieul.Screen.Ipc

structure Call where
  command : UserDesktopCommand
  deadline : ℕ
  generation : ℕ
  recovery : Bool
  minimumCodecEpoch : ℕ
  frames : ℕ
  bytes : ℕ
  overflow : Bool

structure Worker where
  pending : List (ℕ × Call)
  next : ℕ
  firstRequest : Bool
  initial : Option Call

/-- A connection: everything the worker wrote, each message under the generation of its call, how
much of it the helper has read, and the responses on their way back. `recovered` says that the
worker has taken the acknowledgement of a recovery. -/
structure Link where
  generation : ℕ
  written : List (ℕ × Message)
  read : ℕ
  responses : List UserDesktopResponse
  recovered : Bool

structure State where
  calls : List Call
  generation : ℕ
  ready : Bool
  minimumCodecEpoch : ℕ
  ledger : Ledger
  worker : Option Worker
  now : ℕ
  replies : List (Call × Except Error UserDesktopResult)
  link : Link
  helper : Option Helper
  native : Native

def State.init : State where
  calls := []
  generation := 0
  ready := false
  minimumCodecEpoch := 0
  ledger := ⟨[], []⟩
  worker := none
  now := 0
  replies := []
  link := ⟨0, [], 0, [], false⟩
  helper := none
  native := ⟨∅, ∅, ∅⟩

/-- `call_inner`: a call made in a generation that was current a moment ago. -/
def State.call (s : State) (command : UserDesktopCommand) (recovery : Bool)
    (minimumCodecEpoch generation deadline : ℕ) : Option State :=
  if s.calls.length < 16 ∧ generation ≤ s.generation ∧ deadline ≤ s.now + 3000 then
    some { s with calls := s.calls ++
      [⟨command, deadline, generation, recovery, minimumCodecEpoch, 0, 0, false⟩] }
  else none

def State.reply (s : State) (call : Call) (value : Except Error UserDesktopResult) : State :=
  { s with replies := s.replies ++ [(call, value)] }

/-- `Proxy::end_track`, which read the minimum epoch a moment ago: a track from before the last
recovery is gone with its helper. -/
def State.endTrack (s : State) (track : DesktopTrack) (minimum generation deadline : ℕ) :
    Option State :=
  if s.minimumCodecEpoch < minimum then none
  else if track.codecEpoch < minimum then
    some (s.reply ⟨.EndTrack track, deadline, generation, false, 0, 0, 0, false⟩ (.ok .Done))
  else s.call (.EndTrack track) false 0 generation deadline

/-- `Proxy::stream_group_at_rate`, up to its call. -/
def State.streamGroup (s : State) (track : DesktopTrack) (refresh : Bool)
    (bitrate minimum generation deadline : ℕ) : Option State :=
  if ¬ validateEncoderRate track bitrate ∨ track.codecEpoch < minimum then none
  else s.call (.StreamGroup track refresh bitrate) false 0 generation deadline

def State.close (s : State) (pending : List (ℕ × Call)) : State :=
  { s with
    worker := none
    ready := false
    generation := s.generation + 1
    replies := s.replies ++ pending.map fun e => (e.2, .error .Backend) }

def connectError : Error → Error
  | .Unauthorized => .HelperAuthentication
  | .Unsupported => .HelperUnavailable
  | e => e

def State.opening (s : State) (call : Call) : Call :=
  if call.recovery then { call with command := s.ledger.recovery } else call

/-- The next call, while there is no connection. The connector hands a connection out only when the
process that owned the last one is gone. -/
def State.connect (s : State) (connected : Except Error Unit) : Option State :=
  match s.worker, s.calls with
  | none, call :: calls =>
    let s := { s with calls := calls }
    if call.generation ≠ s.generation ∨ (s.generation ≠ 0 ∧ ¬ call.recovery) then
      some (s.reply call (.error .Stale))
    else match connected with
    | .error e => some (s.reply call (.error (connectError e)))
    | .ok _ =>
      if s.helper.isNone then
        some { s with
          worker := some ⟨[], 0, true, some (s.opening call)⟩
          link := ⟨s.generation, [], 0, [], false⟩
          helper := some .start }
      else none
  | _, _ => none

def State.take (s : State) : Option State :=
  match s.worker, s.calls with
  | some w, call :: calls =>
    if w.initial.isNone ∧ w.pending.length < 16 then
      some { s with calls := calls, worker := some { w with initial := some call } }
    else none
  | _, _ => none

def State.refusal (s : State) (call : Call) : Option (Except Error UserDesktopResult) :=
  if call.generation ≠ s.generation then some (.error .Stale)
  else if s.ready = false ∧ call.generation ≠ 0 ∧ ¬ call.recovery then some (.error .Stale)
  else match call.command with
  | .StreamGroup track _ _ =>
    if track.codecEpoch < s.minimumCodecEpoch then some (.error .Stale) else none
  | .EndTrack track =>
    if track.codecEpoch < s.minimumCodecEpoch then some (.ok .Done) else none
  | _ => none

inductive Write where
  | sent
  | failed (delivered : Bool)

def Write.delivered : Write → Bool
  | .sent => true
  | .failed delivered => delivered

def Link.write (l : Link) (generation : ℕ) (m : Message) (write : Write) : Link :=
  if write.delivered then { l with written := l.written ++ [(generation, m)] } else l

def State.send (s : State) (w : Worker) (call : Call) (write : Write) : State :=
  let id := w.next + 1
  let pending := w.pending ++ [(id, call)]
  let s := { s with
    ledger := s.ledger.record call.command id
    link := s.link.write call.generation ⟨w.firstRequest, ⟨id, call.command⟩⟩ write
    worker := some ⟨pending, id, false, none⟩ }
  match write with
  | .sent => s
  | .failed _ => s.close pending

def State.submit (s : State) (write : Write) : Option State :=
  match s.worker with
  | some w =>
    match w.initial with
    | some call =>
      match s.refusal call with
      | some value => some ({ s with worker := some { w with initial := none } }.reply call value)
      | none =>
        if maxSafe < w.next + 1 then some (s.close w.pending)
        else if call.deadline ≤ s.now then
          some ({ s with worker := some { w with initial := none, next := w.next + 1 } }.reply call
            (.error .Stale))
        else some (s.send w call write)
    | none => none
  | none => none

def Call.frame (call : Call) (bytes : ℕ) (full : Bool) : Option Call :=
  let call := { call with frames := call.frames + 1, bytes := call.bytes + bytes }
  if 240 < call.frames ∨ 4 * 1024 * 1024 < bytes ∨ 16 * 1024 * 1024 < call.bytes then none
  else some { call with overflow := call.overflow || full }

def UserDesktopCommand.isGroup : UserDesktopCommand → Bool
  | .StreamGroup .. => true
  | _ => false

def lookup (pending : List (ℕ × Call)) (id : ℕ) : Option Call :=
  (pending.find? (·.1 = id)).map Prod.snd

/-- What an answer in time changes: a success is acknowledged in the ledger, and a recovery, or in
generation 0 any answer, makes the connection ready. -/
def State.acknowledge (s : State) (id : ℕ) (call : Call) (result : UserDesktopResult) : State :=
  let s := if result = .Done then { s with ledger := s.ledger.ack call.command id } else s
  if call.recovery then
    { s with
      minimumCodecEpoch := call.minimumCodecEpoch
      ready := true
      link := { s.link with recovered := true } }
  else if call.generation = 0 then { s with ready := true }
  else s

/-- The last response to a call of the connection; `gone` when its caller does not wait any more. -/
def State.settle (s : State) (w : Worker) (id : ℕ) (call : Call) (result : UserDesktopResult)
    (gone : Bool) : State :=
  let pending := w.pending.filter (·.1 ≠ id)
  let s := { s with worker := some { w with pending := pending } }
  if call.deadline ≤ s.now then (s.reply call (.error .Stale)).close pending
  else if call.command.isGroup then
    s.reply call (if call.overflow then .error .Busy else .ok result)
  else if call.recovery ∧ result ≠ .Done then (s.reply call (.error .Backend)).close pending
  else
    let s := s.acknowledge id call result
    if gone then s.close pending else s.reply call (.ok result)

def State.receive (s : State) (full gone : Bool) : Option State :=
  match s.worker, s.link.responses with
  | some w, ⟨id, result⟩ :: responses =>
    let s := { s with link := { s.link with responses := responses } }
    if w.initial.isSome then none
    else if id = 0 then some (if result = .Done then s else s.close w.pending)
    else match lookup w.pending id, result with
    | none, _ => some (s.close w.pending)
    | some call, .GroupFrame bytes =>
      if ¬ call.command.isGroup ∨ call.deadline ≤ s.now then some (s.close w.pending)
      else match call.frame bytes full with
      | none => some (s.close w.pending)
      | some call' =>
        some { s with worker := some { w with
          pending := w.pending.map fun e => if e.1 = id then (id, call') else e } }
    | some call, result => some (s.settle w id call result gone)
  | _, _ => none

def State.heartbeat (s : State) (write : Write) : Option State :=
  match s.worker with
  | some w =>
    if w.initial.isSome then none
    else if w.pending.any (·.2.deadline ≤ s.now) then some (s.close w.pending)
    else
      let s := { s with link := s.link.write s.generation ⟨false, ⟨0, .Ping⟩⟩ write }
      match write with
      | .sent => some s
      | .failed _ => some (s.close w.pending)
  | none => none

def State.lose (s : State) : Option State :=
  match s.worker with
  | some w => if w.initial.isSome then none else some (s.close w.pending)
  | none => none

def Link.respond (l : Link) (response : Option UserDesktopResponse) : Link :=
  { l with responses := l.responses ++ response.toList }

def State.serve (s : State) (outcome : Outcome) : Option State :=
  match s.helper, s.link.written[s.link.read]? with
  | some h, some (_, m) =>
    if h.stopped ∨ h.ending.isSome then none
    else
      let (h', n', response) := h.receive s.native m outcome
      some { s with
        helper := some h'
        native := n'
        link := { s.link with read := s.link.read + 1 }.respond response }
  | _, _ => none

def State.work (s : State) (work : Work) : Option State :=
  match s.helper with
  | some h =>
    match h.work s.native work with
    | some (h', n', response) =>
      some { s with helper := some h', native := n', link := s.link.respond response }
    | none => none
  | none => none

def State.retire (s : State) (outcome : Outcome) : Option State :=
  match s.helper with
  | some h =>
    if h.drained then some { s with helper := none, native := (s.native.releaseAll outcome).exit } else none
  | none => none

def State.crash (s : State) : Option State :=
  if s.helper.isSome then some { s with helper := none, native := s.native.exit } else none

inductive Action where
  | call (command : UserDesktopCommand) (generation deadline : ℕ)
  | endTrack (track : DesktopTrack) (minimum generation deadline : ℕ)
  | streamGroup (track : DesktopTrack) (refresh : Bool) (bitrate minimum generation deadline : ℕ)
  | recover (minimumCodecEpoch generation deadline : ℕ)
  | connect (connected : Except Error Unit)
  | take
  | submit (write : Write)
  | receive (full gone : Bool)
  | heartbeat (write : Write)
  | lose
  | serve (outcome : Outcome)
  | work (work : Work)
  | retire (outcome : Outcome)
  | crash
  | wait (ms : ℕ)

def State.step (s : State) : Action → Option State
  | .call command generation deadline =>
    if command.isRecovery ∨ command.isPing ∨ command.isCapture then none
    else s.call command false 0 generation deadline
  | .endTrack track minimum generation deadline => s.endTrack track minimum generation deadline
  | .streamGroup track refresh bitrate minimum generation deadline =>
    s.streamGroup track refresh bitrate minimum generation deadline
  | .recover minimumCodecEpoch generation deadline =>
    s.call (.RecoverInput [] []) true minimumCodecEpoch generation deadline
  | .connect connected => s.connect connected
  | .take => s.take
  | .submit write => s.submit write
  | .receive full gone => s.receive full gone
  | .heartbeat write => s.heartbeat write
  | .lose => s.lose
  | .serve outcome => s.serve outcome
  | .work work => s.work work
  | .retire outcome => s.retire outcome
  | .crash => s.crash
  | .wait ms => some { s with now := s.now + ms }

end Rieul.Screen.Ipc
