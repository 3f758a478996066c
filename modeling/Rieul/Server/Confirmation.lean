import Mathlib
import Rieul.Core.CborDecode

/-!
# Local pairing confirmation (daemon/gui/src/controller.rs, transport.rs)

One task for each connection reads its request, and the window takes the requests from a channel.
-/

namespace Rieul.Server.Confirmation
open Bytes Reader Cbor

inductive Message where
  | RequestUnary (procId streamId : UInt64) (payload : Option Str)
  | other

structure ShowPairingCodeReq where
  daemonUrl : String
  pairingCode : String
  expiresInSeconds : UInt64

structure ConfirmPairingReq where
  daemonUrl : String
  confirmationCode : String
  clientLabel : String

structure Info where
  configPath : String
  daemonUrl : String

inductive RpcRequest where
  | ShowPairingCode (model : ShowPairingCodeReq)
  | ConfirmPairing (model : ConfirmPairingReq)
  | ShowDaemonInfo (model : Info)
  | ActivateGui
  | PairingCompleted

def RpcRequest.replaces : RpcRequest → Bool
  | .ActivateGui | .PairingCompleted => false
  | _ => true

structure Url where
  scheme : String
  hostStr : Option String
  username : String
  password : Option String

/-- The generated decoders of a message and of a request, and `Url::parse`. -/
structure Codec where
  message : Value → Value → Option Message
  request : UInt64 → Str → Option RpcRequest
  parseUrl : String → Option Url

inductive Fault where
  | cbor (e : CborError)
  | codec
  | url
  | other (message : String)
  deriving DecidableEq

variable (codec : Codec)

/-- The first message, `from_flattened_parts` of two items. -/
def message : Reader UInt8 Fault Message := do
  let kind ← Reader.mapError .cbor decodeValue
  let fields ← Reader.mapError .cbor decodeValue
  Reader.require .codec (codec.message kind fields)

/-- `MAX_SOCKET_WIRE_SEQUENCE_SIZE`. -/
def maxSize : ℕ := 64 * 1024 * 1024

def decodePrefix (bytes : Str) : Except Fault (Option Message) :=
  if maxSize < bytes.length then .error (.other "socket-wire sequence exceeds implementation limit")
  else
    match message codec bytes with
    | .ok (m, _) => .ok (some m)
    | .error e => if e = .cbor .UnexpectedEnd then .ok none else .error e

def requireField (procId : UInt64) (fields : Entries) (id : UInt64) : Except Fault Unit :=
  if procId = 1 ∧ id = 3 then
    match fields.lookup id with
    | some (.u64 n) =>
      if n ≤ 9007199254740991 then .ok () else .error (.other "expiresInSeconds must be u53")
    | _ => .error (.other "expiresInSeconds must be u53")
  else
    match fields.lookup id with
    | some (.text _) => .ok ()
    | _ => .error (.other s!"required GUI field {id} must be text")

def textOf (fields : Entries) (id : UInt64) : String :=
  match fields.lookup id with
  | some (.text s) => s
  | _ => ""

def validateUrl (value : String) : Except Fault Unit :=
  if (value.toList.take 8).map Char.toLower = "https://".toList ∧
      ∀ c ∈ value.toList, ¬ (c ≤ ' ' ∨ c = '\x7f') then
    match codec.parseUrl value with
    | none => .error .url
    | some url =>
      if url.scheme = "https" ∧ url.hostStr.isSome ∧ url.username = "" ∧ url.password = none then
        .ok ()
      else .error (.other "daemonUrl must be HTTPS without userinfo")
  else .error (.other "daemonUrl must be an absolute HTTPS URL")

def validate (procId : UInt64) (payload : Str) : Except Fault RpcRequest := do
  let required : List UInt64 ←
    if procId = 1 ∨ procId = 2 then pure [1, 2, 3]
    else if procId = 3 then pure [1, 2]
    else if procId = 4 then pure [1]
    else if procId = 6 then pure []
    else .error (.other s!"unsupported GUI IPC proc id {procId}")
  if required = [] then
    if payload ≠ [] then .error (.other "PairingCompleted requires a void payload")
  else
    match decode payload with
    | .error e => .error (.cbor e)
    | .ok (.map fields) =>
      required.forM (requireField procId fields)
      if procId = 1 ∨ procId = 2 then
        validateUrl codec (textOf fields 1)
        let code := (textOf fields 2).toList
        if ¬ (code.length = (if procId = 1 then 6 else 2) ∧ code.all Char.isDigit) then
          .error (.other "invalid pairing code")
      else if procId = 3 ∧ textOf fields 2 ≠ "" then validateUrl codec (textOf fields 2)
    | .ok _ => .error (.other "GUI request must be a CBOR map")
  match codec.request procId payload with
  | some request => pure request
  | none => .error .codec

inductive Route where
  | Idle (info : Info)
  | Info (info : Info)
  | Code (model : ShowPairingCodeReq)
  | Confirm (model : ConfirmPairingReq)

inductive Effect where
  | Show
  | Hide
  | Title (title : String)
  | Notify (generation : ℕ)

inductive Answer where
  | confirmed (accepted : Bool)
  | done
  | failed (e : Fault)
  deriving DecidableEq

/-- `sent` are the answers so far with their connections, and `shown` the confirmations with their
generations. -/
structure Controller where
  info : Info
  route : Route := .Idle info
  generation : ℕ := 0
  pending : Option ℕ := none
  disposed : Bool := false
  sent : List (ℕ × Answer) := []
  shown : List (ℕ × ℕ) := []

namespace Controller

def answer (c : Controller) (connection : ℕ) (a : Answer) : Controller :=
  { c with sent := c.sent ++ [(connection, a)] }

def settle (c : Controller) (accepted : Bool) : Controller :=
  match c.pending with
  | some connection => { c with pending := none }.answer connection (.confirmed accepted)
  | none => c

def title : Route → String
  | .Code _ => "Pairing code"
  | .Confirm _ => "Confirm pairing"
  | _ => "Daemon info"

/-- `route`, which is followed by the effect `Title (title route)`. -/
def goTo (c : Controller) (route : Route) : Controller :=
  { c with route := route, generation := c.generation + 1 }

def showInfo (c : Controller) (info : Info) : Controller × List Effect :=
  if c.disposed then (c, [])
  else ((c.settle false).goTo (.Info info), [.Title (title (.Info info)), .Show])

def close (c : Controller) : Controller × List Effect :=
  if c.disposed then (c, [])
  else
    match c.route with
    | .Confirm _ =>
      ((c.settle false).goTo (.Idle c.info), [.Title (title (.Idle c.info)), .Hide])
    | _ => (c, [.Hide])

def resolve (c : Controller) (accepted : Bool) (generation : ℕ) : Controller :=
  if c.disposed = false ∧ c.pending.isSome ∧ generation = c.generation then c.settle accepted else c

def disconnected (c : Controller) (connection : ℕ) : Controller × List Effect :=
  if c.pending = some connection then c.close else (c, [])

def notificationResult (c : Controller) (generation : ℕ) (shown : Bool) : List Effect :=
  if shown = false ∧ c.disposed = false ∧ c.pending.isSome ∧ generation = c.generation then [.Show]
  else []

def dispose (c : Controller) : Controller := { c with disposed := true }.settle false

def confirm (c : Controller) (connection : ℕ) (model : ConfirmPairingReq) : Controller :=
  let c := { c.settle false with pending := some connection }.goTo (.Confirm model)
  { c with shown := c.shown ++ [(connection, c.generation)] }

def decoded (c : Controller) (procId : UInt64) (payload : Str) : Except Fault RpcRequest :=
  if c.disposed then .error (.other "pairing utility disposed") else validate codec procId payload

def request (c : Controller) (procId : UInt64) (payload : Str) (connection : ℕ) :
    Controller × List Effect :=
  match c.decoded codec procId payload with
  | .error e => (c.answer connection (.failed e), [])
  | .ok (.ConfirmPairing model) =>
    (c.confirm connection model,
      [.Title (title (.Confirm model)), .Notify (c.generation + 1)])
  | .ok (.ShowPairingCode model) =>
    (((c.settle false).goTo (.Code model)).answer connection .done, [.Title (title (.Code model))])
  | .ok (.ShowDaemonInfo model) =>
    let shown := c.showInfo ⟨if model.configPath = "" then c.info.configPath else model.configPath,
      if model.daemonUrl = "" then c.info.daemonUrl else model.daemonUrl⟩
    (shown.1.answer connection .done, shown.2)
  | .ok .ActivateGui => (c.answer connection .done, [.Show])
  | .ok .PairingCompleted =>
    match c.route with
    | .Code _ => ((c.goTo (.Idle c.info)).answer connection .done,
        [.Title (title (.Idle c.info)), .Hide])
    | _ => (c.answer connection .done, [])

end Controller

inductive Event where
  | request (procId : UInt64) (payload : Str) (connection : ℕ)
  | disconnected (connection : ℕ)

/-- `bytes` is what was read; `ended` says that the end of the stream was seen and told. -/
inductive Connection where
  | closed
  | reading (bytes : Str)
  | waiting (bytes : Str) (procId streamId : UInt64) (connection : ℕ) (ended : Bool)
  | responded (bytes : Str) (streamId : UInt64) (connection : ℕ) (answer : Answer)

/-- `received` are the connections whose requests were taken from the channel. -/
structure World where
  controller : Controller
  channel : List Event := []
  connections : ℕ → Connection := fun _ => .closed
  next : ℕ := 1
  received : List ℕ := []
  effects : List Effect := []

inductive Step where
  | accept (k : ℕ)
  | read (k : ℕ) (chunk : Str)
  | fail (k : ℕ)
  | hangUp (k : ℕ)
  | respond (k : ℕ) (answer : Answer)
  | tick
  | click (accepted : Bool) (generation : ℕ)
  | closeWindow
  | showInfo
  | activate
  | notification (generation : ℕ) (shown : Bool)
  | dispose

namespace World

def set (w : World) (k : ℕ) (connection : Connection) : World :=
  { w with connections := fun other => if other = k then connection else w.connections other }

def act (w : World) (o : Controller × List Effect) : World :=
  { w with controller := o.1, effects := w.effects ++ o.2 }

/-- A turn of `read_request`. -/
def read (w : World) (k : ℕ) (bytes : Str) : World :=
  match decodePrefix codec bytes with
  | .ok none => w.set k (if bytes.length < maxSize then .reading bytes else .closed)
  | .ok (some (.RequestUnary procId streamId payload)) =>
    { w with
      channel := w.channel ++ [Event.request procId (payload.getD []) w.next]
      next := w.next + 1 }.set k (.waiting bytes procId streamId w.next false)
  | .ok (some .other) | .error _ => w.set k .closed

def receive (w : World) : Event → World
  | .request procId payload connection =>
    { w with received := w.received ++ [connection] }.act
      (w.controller.request codec procId payload connection)
  | .disconnected connection => w.act (w.controller.disconnected connection)

def step (w : World) : Step → World
  | .accept k =>
    match w.connections k with
    | .closed => w.read codec k []
    | _ => w
  | .read k chunk =>
    match w.connections k with
    | .reading bytes => if chunk = [] then w.set k .closed else w.read codec k (bytes ++ chunk)
    | _ => w
  | .fail k =>
    match w.connections k with
    | .reading _ | .waiting .. => w.set k .closed
    | _ => w
  | .hangUp k =>
    match w.connections k with
    | .waiting bytes procId streamId connection false =>
      if procId = 2 then
        { w with channel := w.channel ++ [Event.disconnected connection] }.set k
          (.waiting bytes procId streamId connection true)
      else w
    | _ => w
  | .respond k answer =>
    match w.connections k with
    | .waiting bytes _ streamId connection _ =>
      if (connection, answer) ∈ w.controller.sent then
        w.set k (.responded bytes streamId connection answer)
      else w
    | _ => w
  | .tick =>
    match w.channel with
    | [] => w
    | event :: rest => { w with channel := rest }.receive codec event
  | .click accepted generation => w.act (w.controller.resolve accepted generation, [])
  | .closeWindow => w.act w.controller.close
  | .showInfo => w.act (w.controller.showInfo w.controller.info)
  | .activate => w.act (w.controller, [.Show])
  | .notification generation shown =>
    w.act (w.controller, w.controller.notificationResult generation shown)
  | .dispose => w.act (w.controller.dispose, [])

def run (info : Info) (steps : List Step) : World :=
  steps.foldl (step codec) { controller := { info := info } }

end World

structure Controller.Kept (c : Controller) (received : List ℕ) : Prop where
  once : (c.sent.map Prod.fst).Nodup
  known (x : ℕ) : x ∈ c.sent.map Prod.fst → x ∈ received
  pending (x : ℕ) : c.pending = some x → x ∈ received ∧ x ∉ c.sent.map Prod.fst ∧
    (∃ model, c.route = .Confirm model) ∧ (x, c.generation) ∈ c.shown
  answered (x : ℕ) : x ∈ received → x ∈ c.sent.map Prod.fst ∨ c.pending = some x
  disposed : c.disposed = true → c.pending = none
  shown (x g : ℕ) : (x, g) ∈ c.shown → g ≤ c.generation
  unique (x y g : ℕ) : (x, g) ∈ c.shown → (y, g) ∈ c.shown → x = y

def Controller.Declines (c t : Controller) : Prop :=
  c.sent ⊆ t.sent ∧ ∀ x, (x, .confirmed true) ∈ t.sent → (x, .confirmed true) ∈ c.sent

def Controller.Rejects (c t : Controller) : Prop :=
  ∀ x, c.pending = some x → (x, .confirmed false) ∈ t.sent

namespace Controller
variable {c : Controller} {received : List ℕ}

theorem Declines.refl (c : Controller) : c.Declines c := ⟨fun _ hx => hx, fun _ hx => hx⟩

theorem Declines.trans {t u : Controller} (h : c.Declines t) (h' : t.Declines u) : c.Declines u :=
  ⟨List.Subset.trans h.1 h'.1, fun x hx => h.2 x (h'.2 x hx)⟩

theorem answer_declines (c : Controller) (x : ℕ) (a : Answer) (ha : a ≠ .confirmed true) :
    c.Declines (c.answer x a) := by
  refine ⟨List.subset_append_left _ _, fun y hy => ?_⟩
  rcases List.mem_append.mp hy with hy | hy
  · exact hy
  · rw [List.mem_singleton] at hy
    cases hy
    exact absurd rfl ha

theorem settle_declines (c : Controller) : c.Declines (c.settle false) := by
  unfold settle
  split
  · exact answer_declines { c with pending := none } _ _ (by decide)
  · exact .refl c

theorem settle_rejects (c : Controller) : c.Rejects (c.settle false) := by
  intro x hx
  unfold settle
  rw [hx]
  exact List.mem_append_right _ (List.mem_singleton_self _)

theorem settle_fields (c : Controller) (accepted : Bool) : (c.settle accepted).pending = none ∧
    (c.settle accepted).route = c.route ∧ (c.settle accepted).generation = c.generation ∧
    (c.settle accepted).disposed = c.disposed ∧ (c.settle accepted).shown = c.shown := by
  unfold settle
  split
  · exact ⟨rfl, rfl, rfl, rfl, rfl⟩
  · next hnone => exact ⟨hnone, rfl, rfl, rfl, rfl⟩

theorem Kept.settle (h : c.Kept received) (accepted : Bool) : (c.settle accepted).Kept received := by
  obtain ⟨once, known, pending, answered, disposed, shown, unique⟩ := h
  unfold Controller.settle
  split
  · constructor <;> grind [answer]
  · constructor <;> assumption

theorem Kept.goTo (h : c.Kept received) (hnone : c.pending = none) (route : Route) :
    (c.goTo route).Kept received := by
  obtain ⟨once, known, pending, answered, disposed, shown, unique⟩ := h
  constructor <;> grind [Controller.goTo]

theorem Kept.answer (h : c.Kept received) (x : ℕ) (hx : x ∉ received) (a : Answer) :
    (c.answer x a).Kept (received ++ [x]) := by
  obtain ⟨once, known, pending, answered, disposed, shown, unique⟩ := h
  constructor <;> grind [Controller.answer]

theorem Kept.confirm (h : c.Kept received) (x : ℕ) (hx : x ∉ received)
    (hdisposed : c.disposed = false) (model : ConfirmPairingReq) :
    (c.confirm x model).Kept (received ++ [x]) := by
  obtain ⟨hnone, -, hgeneration, hd, hshown⟩ := settle_fields c false
  obtain ⟨once, known, pending, answered, disposed, shown, unique⟩ := h.settle false
  constructor <;> grind [Controller.confirm, Controller.goTo]

theorem Kept.showInfo (h : c.Kept received) (info : Info) :
    (c.showInfo info).1.Kept received ∧ c.Declines (c.showInfo info).1 ∧
      c.Rejects (c.showInfo info).1 := by
  have hkept := (h.settle false).goTo (settle_fields c false).1 (.Info info)
  have hdeclines := settle_declines c
  have hrejects := settle_rejects c
  have hnone := h.disposed
  grind [Controller.showInfo, Controller.goTo, Declines, Rejects]

theorem Kept.close (h : c.Kept received) :
    c.close.1.Kept received ∧ c.Declines c.close.1 ∧ c.Rejects c.close.1 := by
  have hkept := (h.settle false).goTo (settle_fields c false).1 (.Idle c.info)
  have hdeclines := settle_declines c
  have hrejects := settle_rejects c
  have hnone := h.disposed
  have hroute := h.pending
  grind [Controller.close, Controller.goTo, Declines, Rejects]

theorem dispose_eq (c : Controller) : c.dispose = { c.settle false with disposed := true } := by
  unfold dispose settle
  cases hpending : c.pending with
  | none | some x => simp only [hpending, answer]

theorem Kept.dispose (h : c.Kept received) :
    c.dispose.Kept received ∧ c.Declines c.dispose ∧ c.Rejects c.dispose := by
  obtain ⟨once, known, pending, answered, disposed, shown, unique⟩ := h.settle false
  have hdeclines := settle_declines c
  have hrejects := settle_rejects c
  rw [dispose_eq]
  refine ⟨⟨once, known, pending, answered, fun _ => (settle_fields c false).1, shown, unique⟩, ?_⟩
  exact ⟨hdeclines, hrejects⟩

theorem Kept.disconnected (h : c.Kept received) (x : ℕ) :
    (c.disconnected x).1.Kept received ∧ c.Declines (c.disconnected x).1 ∧
      (c.pending = some x → c.Rejects (c.disconnected x).1) := by
  have hclose := h.close
  grind [Controller.disconnected, Declines.refl]

theorem Kept.resolve (h : c.Kept received) (accepted : Bool) (generation : ℕ) :
    (c.resolve accepted generation).Kept received ∧ c.sent ⊆ (c.resolve accepted generation).sent := by
  have hsettle := h.settle accepted
  grind [Controller.resolve, Controller.settle, Controller.answer]

theorem Kept.request (h : c.Kept received) (procId : UInt64) (payload : Str) (x : ℕ)
    (hx : x ∉ received) : (c.request codec procId payload x).1.Kept (received ++ [x]) ∧
      c.Declines (c.request codec procId payload x).1 := by
  have hdeclines := settle_declines c
  have hanswer : ∀ t : Controller, ∀ a ≠ .confirmed true, t.Declines (t.answer x a) :=
    fun t a ha => answer_declines t x a ha
  unfold Controller.request
  split
  · exact ⟨h.answer x hx _, hanswer _ _ nofun⟩
  · next model hdecoded =>
    have hdisposed : c.disposed = false := by grind [decoded]
    exact ⟨h.confirm x hx hdisposed model, hdeclines⟩
  · exact ⟨((h.settle false).goTo (settle_fields c false).1 _).answer x hx _,
      hdeclines.trans (hanswer _ _ nofun)⟩
  · exact ⟨(h.showInfo _).1.answer x hx _, (h.showInfo _).2.1.trans (hanswer _ _ nofun)⟩
  · exact ⟨h.answer x hx _, hanswer _ _ nofun⟩
  · split
    · next model hroute =>
      have hpending := h.pending
      have hnone : c.pending = none := by
        cases hc : c.pending with
        | none => rfl
        | some y => grind
      exact ⟨(h.goTo hnone _).answer x hx _, hanswer (c.goTo _) _ nofun⟩
    · exact ⟨h.answer x hx _, hanswer _ _ nofun⟩

end Controller

section
variable {place : UInt64 → Value → Entries → Entries}

theorem streams_readBe (n : ℕ) : Streams .UnexpectedEnd (readBe n) :=
  (streams_take n).bind fun _ => streams_pure _

theorem streams_wide (width shorter : ℕ) : Streams .UnexpectedEnd (decodeWide width shorter) :=
  (streams_readBe width).bind fun _ => (streams_ensure _ _).bind fun _ => streams_pure _

theorem streams_argument (additional : ℕ) : Streams .UnexpectedEnd (decodeArgument additional) := by
  refine streams_ite _ (streams_pure _) ?_
  split
  · exact streams_wide 1 23
  · exact streams_wide 2 0xff
  · exact streams_wide 4 0xffff
  · exact streams_wide 8 0xffffffff
  · exact streams_fail _

theorem streams_length (additional : ℕ) : Streams .UnexpectedEnd (decodeLength additional) :=
  (streams_argument additional).bind fun len => (streams_need len.toNat).bind fun _ =>
    streams_pure _

theorem streams_entries {decode : Decoder Value} (h : Streams .UnexpectedEnd decode) (len : ℕ)
    (map : Entries) : Streams .UnexpectedEnd (decodeEntries place decode len map) := by
  induction len generalizing map with
  | zero => exact streams_pure _
  | succ len ih =>
    refine h.bind fun key => (streams_require _ _).bind fun key => h.bind fun value => ?_
    exact (streams_ensure _ _).bind fun _ => ih _

theorem streams_simple (additional : ℕ) : Streams .UnexpectedEnd (decodeSimple additional) := by
  unfold decodeSimple
  split
  · exact streams_pure _
  · exact streams_pure _
  · exact streams_pure _
  · exact (streams_readBe 8).bind fun _ => streams_pure _
  · exact streams_fail _

theorem streams_major {decode : Decoder Value} (h : Streams .UnexpectedEnd decode)
    (major additional : ℕ) : Streams .UnexpectedEnd (decodeMajor place decode major additional) := by
  have hlength := streams_length additional
  unfold decodeMajor
  split
  · exact (streams_argument additional).bind fun _ => streams_pure _
  · exact (streams_argument additional).bind fun _ => (streams_ensure _ _).bind fun _ =>
      streams_pure _
  · exact hlength.bind fun len => (streams_take len).bind fun _ => streams_pure _
  · refine hlength.bind fun len => (streams_take len).bind fun bytes => ?_
    exact (streams_require _ _).bind fun _ => streams_pure _
  · exact hlength.bind fun len => (h.times len).bind fun _ => streams_pure _
  · exact hlength.bind fun len => (streams_entries h len []).bind fun _ => streams_pure _
  · exact streams_simple additional
  · exact streams_fail _

theorem streams_valueAt (levels : ℕ) :
    Streams .UnexpectedEnd (decodeValueAt place levels) := by
  induction levels with
  | zero => exact streams_fail _
  | succ levels ih => exact (streams_readBe 1).bind fun _ => streams_major ih _ _

end

theorem streams_message : Streams (.cbor .UnexpectedEnd) (message codec) := by
  have hvalue : Streams _ (decodeValueAt insertEntry 65) := streams_valueAt 65
  have hitem := hvalue.mapError Fault.cbor _ rfl
  exact hitem.bind fun kind => hitem.bind fun fields => streams_require _ _

def Requested (bytes : Str) (streamId : UInt64) : Prop :=
  ∀ more, ∃ procId payload rest,
    message codec (bytes ++ more) = .ok (.RequestUnary procId streamId payload, rest)

theorem requested_of_prefix (bytes : Str) (procId streamId : UInt64) (payload : Option Str)
    (h : decodePrefix codec bytes = .ok (some (.RequestUnary procId streamId payload))) :
    Requested codec bytes streamId := by
  intro more
  unfold decodePrefix at h
  split at h
  · cases h
  split at h
  · next m rest hread =>
    cases h
    exact ⟨procId, payload, rest ++ more, (streams_message codec).value _ _ _ more hread⟩
  · split at h
    · cases h
    · cases h

def Event.requested : Event → Option ℕ
  | .request _ _ connection => some connection
  | .disconnected _ => none

def Connection.id : Connection → Option ℕ
  | .waiting _ _ _ connection _ | .responded _ _ connection _ => some connection
  | _ => none

def Connection.Own : Connection → Prop
  | .waiting bytes _ streamId _ _ | .responded bytes streamId _ _ => Requested codec bytes streamId
  | _ => True

structure World.Inv (w : World) : Prop where
  controller : w.controller.Kept w.received
  fresh : (w.received ++ w.channel.filterMap Event.requested).Nodup
  below : ∀ x ∈ w.received ++ w.channel.filterMap Event.requested, x < w.next
  own (k : ℕ) : (w.connections k).Own codec
  told (k : ℕ) (bytes : Str) (streamId : UInt64) (x : ℕ) (answer : Answer) :
    w.connections k = .responded bytes streamId x answer → (x, answer) ∈ w.controller.sent
  ids (k x : ℕ) : (w.connections k).id = some x → x < w.next
  distinct (k l x : ℕ) : (w.connections k).id = some x → (w.connections l).id = some x → k = l

namespace World
variable {codec} {w : World}

theorem Inv.set (h : w.Inv codec) (k : ℕ) (connection : Connection) (hown : connection.Own codec)
    (htold : ∀ bytes streamId x answer, connection = .responded bytes streamId x answer →
      (x, answer) ∈ w.controller.sent)
    (hid : ∀ x, connection.id = some x → (w.connections k).id = some x) :
    (w.set k connection).Inv codec := by
  obtain ⟨controller, fresh, below, own, told, ids, distinct⟩ := h
  constructor <;> grind [World.set]

theorem Inv.read (h : w.Inv codec) (k : ℕ) (bytes : Str) : (w.read codec k bytes).Inv codec := by
  have hclosed := h.set k .closed trivial nofun nofun
  unfold World.read
  split
  · split
    · exact h.set k _ trivial nofun nofun
    · exact hclosed
  · next procId streamId payload hdecode =>
    have hown := requested_of_prefix codec bytes procId streamId payload hdecode
    obtain ⟨controller, fresh, below, own, told, ids, distinct⟩ := h
    constructor <;> grind [World.set, Event.requested, Connection.id, Connection.Own]
  · exact hclosed
  · exact hclosed

theorem Inv.act (h : w.Inv codec) (o : Controller × List Effect) (hkept : o.1.Kept w.received)
    (hsent : w.controller.sent ⊆ o.1.sent) : (w.act o).Inv codec :=
  ⟨hkept, h.fresh, h.below, h.own, fun k _ _ _ _ hk => hsent (h.told k _ _ _ _ hk), h.ids,
    h.distinct⟩

theorem Inv.tick (h : w.Inv codec) : (w.step codec .tick).Inv codec := by
  dsimp only [World.step]
  split
  · exact h
  · next event rest hchannel =>
    obtain ⟨controller, fresh, below, own, told, ids, distinct⟩ := h
    rw [hchannel] at fresh below
    cases event with
    | request procId payload x =>
      have hsplit : w.received ++ (Event.request procId payload x :: rest).filterMap
          Event.requested = w.received ++ [x] ++ rest.filterMap Event.requested := by
        simp [Event.requested]
      rw [hsplit] at fresh below
      obtain ⟨hkept, hsent, -⟩ := controller.request codec procId payload x (by grind)
      exact ⟨hkept, fresh, below, own, fun k _ _ _ _ hk => hsent (told k _ _ _ _ hk), ids, distinct⟩
    | disconnected x =>
      have hrest : { w with channel := rest }.Inv codec := by
        constructor <;> grind [Event.requested]
      obtain ⟨hkept, ⟨hsent, -⟩, -⟩ := controller.disconnected x
      exact hrest.act _ hkept hsent

theorem Inv.step (h : w.Inv codec) (s : Step) : (w.step codec s).Inv codec := by
  have hc := h.controller
  have hclosed := fun k => h.set k .closed trivial nofun nofun
  cases s with
  | accept k =>
    have hread := h.read k []
    grind [World.step]
  | read k chunk =>
    have hread := h.read k
    grind [World.step]
  | fail k => grind [World.step]
  | hangUp k =>
    obtain ⟨controller, fresh, below, own, told, ids, distinct⟩ := h
    dsimp only [World.step]
    split
    · split
      · constructor <;> grind [World.set, Event.requested, Connection.id, Connection.Own]
      · constructor <;> assumption
    · constructor <;> assumption
  | respond k answer =>
    have hown := h.own k
    dsimp only [World.step]
    split
    · split
      · refine h.set k _ ?_ ?_ ?_ <;> grind [Connection.Own, Connection.id]
      · exact h
    · exact h
  | tick => exact h.tick
  | click accepted generation =>
    obtain ⟨hkept, hsent⟩ := hc.resolve accepted generation
    exact h.act _ hkept hsent
  | closeWindow => exact h.act _ hc.close.1 hc.close.2.1.1
  | showInfo => exact h.act _ (hc.showInfo _).1 (hc.showInfo _).2.1.1
  | activate | notification => exact h.act _ hc (List.Subset.refl _)
  | dispose => exact h.act _ hc.dispose.1 hc.dispose.2.1.1

theorem inv_run (codec : Codec) (info : Info) (steps : List Step) :
    (run codec info steps).Inv codec := by
  induction steps using List.reverseRecOn with
  | nil =>
    exact ⟨⟨List.nodup_nil, nofun, nofun, nofun, nofun, nofun, nofun⟩, List.nodup_nil, nofun,
      fun _ => trivial, nofun, nofun, nofun⟩
  | append_singleton steps s ih =>
    unfold run at ih ⊢
    rw [List.foldl_append]
    exact ih.step s

theorem read_controller (w : World) (k : ℕ) (bytes : Str) :
    (w.read codec k bytes).controller = w.controller := by
  grind [World.read, World.set]

theorem Inv.declines (h : w.Inv codec) (s : Step) (hs : ∀ g, s ≠ .click true g) :
    w.controller.Declines (w.step codec s).controller := by
  have hc := h.controller
  have hrefl := Controller.Declines.refl w.controller
  cases s with
  | accept k | read k chunk | fail k | hangUp k | respond k =>
    grind [World.step, read_controller, World.set]
  | tick =>
    dsimp only [World.step]
    split
    · exact hrefl
    · next event rest hchannel =>
      have hfresh := h.fresh
      cases event with
      | request procId payload x =>
        exact (hc.request codec procId payload x (by grind [Event.requested])).2
      | disconnected x => exact (hc.disconnected x).2.1
  | click accepted generation =>
    have hsettle := Controller.settle_declines w.controller
    cases accepted with
    | true => exact absurd rfl (hs generation)
    | false => grind [World.step, World.act, Controller.resolve]
  | closeWindow => exact hc.close.2.1
  | showInfo => exact (hc.showInfo _).2.1
  | activate | notification => exact hrefl
  | dispose => exact hc.dispose.2.1

theorem Inv.accepted (h : w.Inv codec) (s : Step) (x : ℕ)
    (hnew : (x, .confirmed true) ∈ (w.step codec s).controller.sent)
    (hold : (x, .confirmed true) ∉ w.controller.sent) :
    ∃ g, s = .click true g ∧ w.controller.pending = some x ∧ (x, g) ∈ w.controller.shown ∧
      ∀ y, (y, g) ∈ w.controller.shown → y = x := by
  by_cases hclick : ∃ g, s = .click true g
  · obtain ⟨g, rfl⟩ := hclick
    have hpending := h.controller.pending
    have hunique := h.controller.unique
    dsimp only [World.step, World.act, Controller.resolve] at hnew
    split at hnew
    · next hguard =>
      grind [Controller.settle, Controller.answer]
    · exact absurd hnew hold
  · exact absurd ((h.declines s fun g hg => hclick ⟨g, hg⟩).2 x hnew) hold

def Ends (codec : Codec) (w : World) : Step → Prop
  | .closeWindow | .showInfo | .dispose => True
  | .tick =>
    (∃ procId payload x rest request, w.channel = .request procId payload x :: rest ∧
      w.controller.decoded codec procId payload = .ok request ∧ request.replaces = true) ∨
    ∃ x rest, w.channel = .disconnected x :: rest ∧ w.controller.pending = some x
  | _ => False

theorem Inv.rejected (h : w.Inv codec) (s : Step) (hs : Ends codec w s) :
    w.controller.Rejects (w.step codec s).controller := by
  have hc := h.controller
  cases s with
  | tick =>
    rcases hs with ⟨procId, payload, x, rest, request, hchannel, hdecoded, hreplaces⟩ |
      ⟨x, rest, hchannel, hpending⟩
    · have hsettle := Controller.settle_rejects w.controller
      have hinfo := fun info => (hc.showInfo info).2.2
      dsimp only [World.step]
      rw [hchannel]
      dsimp only [World.receive, World.act, Controller.request]
      rw [hdecoded]
      cases request with
      | ActivateGui | PairingCompleted => cases hreplaces
      | ConfirmPairing model => exact hsettle
      | ShowPairingCode model => exact fun y hy => List.mem_append_left _ (hsettle y hy)
      | ShowDaemonInfo model => exact fun y hy => List.mem_append_left _ (hinfo _ y hy)
    · have hrejects := (hc.disconnected x).2.2 hpending
      grind [World.step, World.receive, World.act]
  | closeWindow => exact hc.close.2.2
  | showInfo => exact (hc.showInfo _).2.2
  | dispose => exact hc.dispose.2.2
  | accept | read | fail | hangUp | respond | click | activate | notification => cases hs

def Idle (w : World) : Step → Prop
  | .click _ generation | .notification generation _ =>
    w.controller.pending = none ∨ generation ≠ w.controller.generation
  | .tick => ∃ x rest, w.channel = .disconnected x :: rest ∧ w.controller.pending ≠ some x
  | _ => False

theorem idle_unchanged (w : World) (s : Step) (hs : w.Idle s) :
    (w.step codec s).controller = w.controller ∧ (w.step codec s).effects = w.effects := by
  cases s with
  | click accepted g => grind [World.step, World.act, Controller.resolve, Idle]
  | notification g shown => grind [World.step, World.act, Controller.notificationResult, Idle]
  | tick => grind [World.step, World.receive, World.act, Controller.disconnected, Idle]
  | accept | read | fail | hangUp | respond | closeWindow | showInfo | activate | dispose => cases hs

theorem malformed_unchanged (w : World) (procId : UInt64) (payload : Str) (x : ℕ)
    (rest : List Event) (e : Fault) (hchannel : w.channel = .request procId payload x :: rest)
    (he : w.controller.decoded codec procId payload = .error e) :
    (w.step codec .tick).controller = w.controller.answer x (.failed e) ∧
      (w.step codec .tick).effects = w.effects := by
  grind [World.step, World.receive, World.act, Controller.request]

theorem Inv.answered_once (h : w.Inv codec) : (w.controller.sent.map Prod.fst).Nodup ∧
    (∀ x ∈ w.controller.sent.map Prod.fst, x ∈ w.received) ∧
    (w.controller.disposed = true → ∀ x ∈ w.received, x ∈ w.controller.sent.map Prod.fst) := by
  obtain ⟨once, known, pending, answered, disposed, shown, unique⟩ := h.controller
  exact ⟨once, known, by grind⟩

theorem confirmations (codec : Codec) (info : Info) (steps : List Step) :
    let w := run codec info steps
    ((w.controller.sent.map Prod.fst).Nodup ∧
      (∀ x ∈ w.controller.sent.map Prod.fst, x ∈ w.received) ∧
      (w.controller.disposed = true → ∀ x ∈ w.received, x ∈ w.controller.sent.map Prod.fst)) ∧
    (∀ s x, (x, .confirmed true) ∈ (w.step codec s).controller.sent →
      (x, .confirmed true) ∉ w.controller.sent →
        ∃ g, s = .click true g ∧ w.controller.pending = some x ∧ (x, g) ∈ w.controller.shown ∧
          ∀ y, (y, g) ∈ w.controller.shown → y = x) ∧
    (∀ s, Ends codec w s → w.controller.Rejects (w.step codec s).controller) ∧
    (∀ s, w.Idle s →
      (w.step codec s).controller = w.controller ∧ (w.step codec s).effects = w.effects) ∧
    (∀ procId payload x rest e, w.channel = .request procId payload x :: rest →
      w.controller.decoded codec procId payload = .error e →
        (w.step codec .tick).controller = w.controller.answer x (.failed e) ∧
          (w.step codec .tick).effects = w.effects) ∧
    ∀ k bytes streamId x answer, w.connections k = .responded bytes streamId x answer →
      (x, answer) ∈ w.controller.sent ∧ Requested codec bytes streamId ∧
        ∀ l, (w.connections l).id = some x → l = k := by
  intro w
  have h := inv_run codec info steps
  refine ⟨h.answered_once, h.accepted, h.rejected, idle_unchanged w, malformed_unchanged w, ?_⟩
  intro k bytes streamId x answer hk
  have hown := h.own k
  rw [hk] at hown
  exact ⟨h.told k _ _ _ _ hk, hown, fun l hl => h.distinct l k x hl (congrArg Connection.id hk)⟩

def sampleCodec : Codec where
  message _ _ := some (.RequestUnary 6 1 none)
  request _ _ := some .PairingCompleted
  parseUrl _ := none

def sampleBytes : Str := [0x00, 0xa2, 0x01, 0x06, 0x18, 0x64, 0x01]

def queuedRun : List Step := [.accept 0, .read 0 sampleBytes, .dispose]

theorem queued_unanswered : ¬ ∀ (codec : Codec) (info : Info) (steps : List Step),
    (run codec info steps).controller.disposed = true →
      ∀ k x, ((run codec info steps).connections k).id = some x →
        x ∈ (run codec info steps).controller.sent.map Prod.fst := by
  intro h
  have hempty : decodePrefix sampleCodec [] = .ok none := by rfl
  have hread : decodePrefix sampleCodec sampleBytes = .ok (some (.RequestUnary 6 1 none)) := by rfl
  have hne : sampleBytes ≠ [] := nofun
  have hanswered := h sampleCodec ⟨"", ""⟩ queuedRun
  simp [queuedRun, run, step, read, hread, hempty, hne, World.set, act, maxSize,
    Controller.dispose, Controller.settle, Connection.id] at hanswered
  exact hanswered 0 1 rfl

end World

end Rieul.Server.Confirmation
