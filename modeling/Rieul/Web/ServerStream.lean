import Rieul.Web.CborDecode

/-!
# The events of a server (web/src/protocol/client.ts, wire.ts, cbor.ts)

Each read is decoded as far as it goes, with what is left of the reads before it, and only then are
its messages handled.
-/

namespace Rieul.Web.ServerStream
open Bytes Reader

theorem streams_fixed (len : ℕ) : Streams .ended (readFixedUint len) :=
  (streams_take len).bind fun _ => streams_pure _

variable (additional : ℕ)

theorem streams_arg : Streams .ended (readArg additional) := by
  refine streams_ite _ (streams_pure _) ?_
  split
  · exact streams_fixed 1
  · exact streams_fixed 2
  · exact streams_fixed 4
  · refine (streams_fixed 4).bind fun high => (streams_fixed 4).bind fun low => ?_
    exact (streams_ensure _ _).bind fun _ => (streams_ensure _ _).bind fun _ => streams_pure _
  · exact streams_fail _

theorem streams_length : Streams .ended (readLength additional) :=
  (streams_arg additional).bind fun len => (streams_need len).bind fun _ => streams_pure _

theorem streams_map {decode : CborReader CborValue} (h : Streams .ended decode) (len : ℕ)
    (map : List (ℤ × CborValue)) : Streams .ended (decodeMap decode len map) := by
  induction len generalizing map with
  | zero => exact streams_pure _
  | succ len ih =>
    refine h.bind fun key => (streams_require _ _).bind fun key => ?_
    exact (streams_ensure _ _).bind fun _ => h.bind fun item => ih (map ++ [(key, item)])

theorem streams_simple : Streams .ended (decodeSimple additional) := by
  unfold decodeSimple
  split
  · exact streams_pure _
  · exact streams_pure _
  · exact streams_pure _
  · exact (streams_fixed 8).bind fun _ => (streams_ensure _ _).bind fun _ => streams_pure _
  · exact streams_fail _

theorem streams_major {decode : CborReader CborValue} (h : Streams .ended decode)
    (major additional : ℕ) : Streams .ended (decodeMajor decode major additional) := by
  have hlength := streams_length additional
  unfold decodeMajor
  split
  · exact (streams_arg additional).bind fun _ => streams_pure _
  · refine Streams.bind ((streams_arg additional).bind fun _ => ?_) fun _ => streams_pure _
    exact (streams_ensure _ _).bind fun _ => streams_pure _
  · exact hlength.bind fun len => (streams_take len).bind fun _ => streams_pure _
  · refine hlength.bind fun len => (streams_take len).bind fun bytes => ?_
    exact (streams_require _ _).bind fun _ => streams_pure _
  · exact hlength.bind fun len => (h.times len).bind fun _ => streams_pure _
  · exact hlength.bind fun len => (streams_map h len []).bind fun _ => streams_pure _
  · exact streams_simple additional
  · exact streams_fail _

theorem streams_decodeAt (levels : ℕ) : Streams .ended (decodeAt levels) := by
  induction levels with
  | zero => exact streams_fail _
  | succ levels ih => exact (streams_fixed 1).bind fun _ => streams_major ih _ _

theorem consumes_item : Consumes (decodeAt 65) := by
  intro s v r h
  obtain ⟨initial, s', hinitial, hrest⟩ := (bind_eq_ok _ _ s r v).1 h
  obtain ⟨bytes, s'', htake, hpure⟩ := (bind_eq_ok _ _ s s' initial).1 hinitial
  obtain ⟨hlength, rfl⟩ := (take_eq_ok s s'' Thrown.ended 1 bytes).1 htake
  obtain ⟨-, rfl⟩ := (pure_eq_ok s'' s' _).1 hpure
  have hle := ((streams_major (streams_decodeAt 64) _ _).rest _ _ _ hrest).length_le
  rw [List.length_append]
  omega

/-- What is thrown; `χ` is what the codec of a procedure throws. -/
inductive Failure (χ : Type) where
  | cbor (e : Thrown)
  | error (message : String)
  | rpc (code message : String)
  | thrown (e : χ)
  deriving DecidableEq

variable {χ ρ : Type}

def expectMap : CborValue → Except String (List (ℤ × CborValue))
  | .map fields => .ok fields
  | _ => .error "expected CBOR map"

def integer : CborValue → Except String ℤ
  | .number n => if IsSafeInteger n then .ok n else .error "expected CBOR integer"
  | _ => .error "expected CBOR integer"

def textValue : CborValue → Except String String
  | .string t => .ok t
  | _ => .error "expected CBOR text"

def bytesValue : CborValue → Except String Str
  | .bytes b => .ok b
  | _ => .error "expected CBOR bytes"

/-- One of the codes `ids` of an enumeration. -/
def enumValue (name : String) (ids : List ℤ) (value : CborValue) : Except String ℤ := do
  let id ← integer value
  if id ∈ ids then pure id else .error s!"unknown {name} variant {id}"

def decodeRpcErrorKindValue : CborValue → Except String ℤ := enumValue "RpcErrorKind" [1, 2]

def decodeRpcErrorCodeValue : CborValue → Except String ℤ :=
  enumValue "RpcErrorCode" [1, 2, 3, 4, 6, 7, 8, 9]

def optionalField {α : Type} (fields : List (ℤ × CborValue)) (key : ℤ)
    (decode : CborValue → Except String α) : Except String (Option α) :=
  match fields.lookup key with
  | none => .ok none
  | some value => (decode value).map some

def fieldOrDefault {α : Type} (fields : List (ℤ × CborValue)) (key : ℤ)
    (decode : CborValue → Except String α) (fallback : α) : Except String α :=
  match fields.lookup key with
  | none => .ok fallback
  | some value => decode value

structure ReqResMessage where
  kind : ℤ
  payload : Option Str
  error : Option Str
  errorKind : Option ℤ

/-- `fromGeneratedReqResMessage` after the generated `decodeReqResMessageValue`. -/
def decodeGeneratedReqResMessage (kind fields : CborValue) : Except String ReqResMessage := do
  let variantId ← integer kind
  let fields ← expectMap fields
  let plain payload : ReqResMessage := ⟨variantId, payload, none, none⟩
  if variantId = 0 ∨ variantId = 1 then
    let _ ← fieldOrDefault fields 1 integer 0
    pure (plain (← optionalField fields 2 bytesValue))
  else if variantId = 2 ∨ variantId = 6 then
    pure (plain (some (← fieldOrDefault fields 2 bytesValue [])))
  else if variantId = 3 ∨ variantId = 5 then
    pure (plain (← optionalField fields 2 bytesValue))
  else if variantId = 4 ∨ variantId = 7 then
    let error ← fieldOrDefault fields 3 bytesValue []
    let errorKind ← fieldOrDefault fields 4 decodeRpcErrorKindValue 1
    pure ⟨variantId, none, some error, some errorKind⟩
  else if variantId = 8 then
    let _ ← fieldOrDefault fields 1 textValue ""
    pure (plain (some (← fieldOrDefault fields 2 bytesValue [])))
  else if variantId = 9 then pure (plain none)
  else if variantId = 10 then
    let _ ← fieldOrDefault fields 1 (enumValue "SessionAuthErrorCode" [1, 2, 3, 4]) 1
    let _ ← fieldOrDefault fields 2 textValue ""
    pure (plain none)
  else .error s!"unknown ReqResMessage variant {variantId}"

def pairs {α : Type} : List α → List (α × α)
  | a :: b :: rest => (a, b) :: pairs rest
  | _ => []

/-- The bytes behind `n` items. -/
def skip : ℕ → Str → Str
  | 0, bytes => bytes
  | n + 1, bytes =>
    match decodeAt 65 bytes with
    | .ok (_, rest) => skip n rest
    | .error _ => bytes

/-- `decodeCborSequencePrefix`. -/
def items (bytes : Str) : Drained UInt8 Thrown CborValue :=
  drain Thrown.ended (decodeAt 65) consumes_item bytes

def convert : List (CborValue × CborValue) → Except String (List ReqResMessage)
  | [] => .ok []
  | (kind, fields) :: rest => do
    let message ← decodeGeneratedReqResMessage kind fields
    pure (message :: (← convert rest))

/-- The messages of `bytes`, and the bytes behind them. -/
def decodeReqResMessageSequencePrefix (bytes : Str) :
    Except (Failure χ) (List ReqResMessage × Str) :=
  match (items bytes).rest with
  | .error e => .error (.cbor e)
  | .ok _ =>
    match convert (pairs (items bytes).values) with
    | .error message => .error (.error message)
    | .ok messages => .ok (messages, skip (2 * ((items bytes).values.length / 2)) bytes)

/-- The generated decoders of a procedure: that of an error gives what `errorCode` and
`errorMessage` make of it. -/
structure Proc (χ ρ : Type) where
  decodeResponse : CborValue → Except χ ρ
  decodeError : CborValue → Except χ (String × String)

def rpcErrorCode (code : ℤ) : String :=
  if code = 1 then "badMessage"
  else if code = 2 then "unauthorized"
  else if code = 3 then "missingPayload"
  else if code = 4 then "notImplemented"
  else if code = 6 then "permissionDenied"
  else if code = 7 then "notFound"
  else if code = 8 then "operationFailed"
  else "malformedPayload"

def systemErrorPayload (value : CborValue) : Except String (String × String) := do
  let fields ← expectMap value
  let code ← fieldOrDefault fields 1 decodeRpcErrorCodeValue 1
  let message ← fieldOrDefault fields 2 textValue ""
  pure (rpcErrorCode code, message)

/-- What `throwRpcError` throws. -/
def Proc.rpcError (proc : Proc χ ρ) (response : ReqResMessage) : Failure χ :=
  match response.error, response.errorKind with
  | some error, some kind =>
    let thrown : Except (Failure χ) (String × String) := do
      let value ← (decodeCbor error).mapError .cbor
      if kind = 2 then (proc.decodeError value).mapError .thrown
      else (systemErrorPayload value).mapError .error
    match thrown with
    | .ok (code, message) => .rpc code message
    | .error e => e
  | _, _ => .rpc "rpc_error" "RPC error response"

variable (proc : Proc χ ρ)

def Proc.handle (m : ReqResMessage) : Except (Failure χ) ρ :=
  if m.kind = 7 then .error (proc.rpcError m)
  else if m.kind ≠ 5 ∧ m.kind ≠ 6 then .error (.error "expected stream response message")
  else
    match m.payload with
    | none => .error (.error "missing stream response payload")
    | some payload => do
      let value ← (decodeCbor payload).mapError .cbor
      (proc.decodeResponse value).mapError .thrown

def Proc.loop : List ReqResMessage → List ρ × Option (Failure χ)
  | [] => ([], none)
  | m :: rest =>
    match proc.handle m with
    | .error e => ([], some e)
    | .ok value => (value :: (loop rest).1, (loop rest).2)

def streamServerEvents (buffered : Str) : List Str → List ρ × Option (Failure χ)
  | [] =>
    ([], if buffered = [] then none else some (.error "incomplete stream response message"))
  | value :: reads =>
    match decodeReqResMessageSequencePrefix (buffered ++ value) with
    | .error e => ([], some e)
    | .ok (messages, rest) =>
      match proc.loop messages with
      | (values, some e) => (values, some e)
      | (values, none) =>
        let later := streamServerEvents rest reads
        (values ++ later.1, later.2)

def reader : Reader UInt8 (Failure χ) ReqResMessage := do
  let kind ← Reader.mapError .cbor (decodeAt 65)
  let fields ← Reader.mapError .cbor (decodeAt 65)
  match decodeGeneratedReqResMessage kind fields with
  | .ok m => pure m
  | .error message => Reader.fail (.error message)

theorem streams_reader : Streams (Failure.cbor (χ := χ) .ended) reader := by
  have hitem := (streams_decodeAt 65).mapError (Failure.cbor (χ := χ)) _ rfl
  refine hitem.bind fun kind => hitem.bind fun fields => ?_
  split
  · exact streams_pure _
  · exact streams_fail _

section
variable {bytes r₁ r₂ : Str} {kind fields : CborValue}
  (hkind : decodeAt 65 bytes = .ok (kind, r₁)) (hfields : decodeAt 65 r₁ = .ok (fields, r₂))
include hkind hfields

theorem reader_run : reader (χ := χ) bytes =
    match decodeGeneratedReqResMessage kind fields with
    | .error message => .error (.error message)
    | .ok m => .ok (m, r₂) := by
  unfold reader
  rw [bind_run _ _ bytes r₁ kind ((mapError_eq_ok _ _ _ _).mpr hkind),
    bind_run _ _ r₁ r₂ fields ((mapError_eq_ok _ _ _ _).mpr hfields)]
  cases decodeGeneratedReqResMessage kind fields with
  | ok m | error e => rfl

theorem items_message : items bytes = (items r₂).prepend [kind, fields] := by
  unfold items
  rw [drain_ok _ hkind, drain_ok _ hfields]
  exact Drained.prepend_prepend _ _ _

theorem prefix_message : decodeReqResMessageSequencePrefix (χ := χ) bytes =
    match (items r₂).rest with
    | .error e => .error (.cbor e)
    | .ok _ =>
      match decodeGeneratedReqResMessage kind fields with
      | .error message => .error (.error message)
      | .ok m =>
        (decodeReqResMessageSequencePrefix r₂).map fun later => (m :: later.1, later.2) := by
  have hskip (n : ℕ) : skip (2 * ((n + 1 + 1) / 2)) bytes = skip (2 * (n / 2)) r₂ := by
    rw [show 2 * ((n + 1 + 1) / 2) = 2 * (n / 2) + 1 + 1 by omega, skip, hkind]
    dsimp only
    rw [skip, hfields]
  unfold decodeReqResMessageSequencePrefix
  rw [items_message hkind hfields]
  unfold Drained.prepend
  dsimp only [List.cons_append, List.nil_append, List.length_cons]
  rw [hskip]
  cases (items r₂).rest with
  | error e => rfl
  | ok left =>
    dsimp only [pairs, convert]
    cases decodeGeneratedReqResMessage kind fields with
    | error message => rfl
    | ok m =>
      cases convert (pairs (items r₂).values) with
      | ok ms | error message => rfl

end

theorem front (bytes : Str) :
    (∃ kind r₁ fields r₂, decodeAt 65 bytes = .ok (kind, r₁) ∧
      decodeAt 65 r₁ = .ok (fields, r₂)) ∨
    ∃ e, reader (χ := χ) bytes = .error (.cbor e) ∧
      decodeReqResMessageSequencePrefix (χ := χ) bytes =
        if e = .ended then .ok ([], bytes) else .error (.cbor e) := by
  cases hkind : decodeAt 65 bytes with
  | error e =>
    refine .inr ⟨e, bind_run_error _ _ _ _ ((mapError_eq_error _ _ _).mpr ⟨e, hkind, rfl⟩), ?_⟩
    unfold decodeReqResMessageSequencePrefix items
    by_cases he : e = .ended
    · rw [he] at hkind
      rw [drain_eof _ hkind, if_pos he]
      simp only [pairs, convert, List.length_nil, Nat.zero_div, Nat.mul_zero, skip]
    · rw [drain_error _ hkind he, if_neg he]
  | ok o =>
    obtain ⟨kind, r₁⟩ := o
    cases hfields : decodeAt 65 r₁ with
    | ok o => exact .inl ⟨kind, r₁, o.1, o.2, rfl, hfields⟩
    | error e =>
      refine .inr ⟨e, ?_, ?_⟩
      · unfold reader
        rw [bind_run _ _ bytes r₁ kind ((mapError_eq_ok _ _ _ _).mpr hkind)]
        exact bind_run_error _ _ _ _ ((mapError_eq_error _ _ _).mpr ⟨e, hfields, rfl⟩)
      · unfold decodeReqResMessageSequencePrefix items
        rw [drain_ok _ hkind]
        by_cases he : e = .ended
        · rw [he] at hfields
          rw [drain_eof _ hfields, if_pos he]
          simp only [Drained.prepend, pairs, convert, List.append_nil, List.length_singleton,
            Nat.reduceDiv, Nat.mul_zero, skip]
        · rw [drain_error _ hfields he, if_neg he]
          rfl

theorem consumes_reader : Consumes (reader (χ := χ)) := by
  intro bytes m rest h
  rcases front (χ := χ) bytes with ⟨kind, r₁, fields, r₂, hkind, hfields⟩ | ⟨e, he, -⟩
  · rw [reader_run hkind hfields] at h
    split at h
    · cases h
    cases h
    exact Nat.lt_trans (consumes_item r₁ fields rest hfields) (consumes_item bytes kind r₁ hkind)
  · rw [he] at h
    cases h

theorem front_of_fault (bytes : Str) (e : Failure χ)
    (h : decodeReqResMessageSequencePrefix bytes = .error e) :
    reader bytes ≠ .error (Failure.cbor (χ := χ) .ended) := by
  intro hended
  rcases front (χ := χ) bytes with ⟨kind, r₁, fields, r₂, hkind, hfields⟩ | ⟨e', he, hdecode⟩
  · rw [reader_run hkind hfields] at hended
    split at hended
    · cases hended
    · cases hended
  · rw [hdecode] at h
    rw [he] at hended
    cases hended
    cases h

variable [DecidableEq χ]

/-- The messages of `bytes`, each converted before the next is read. -/
def received (bytes : Str) : Drained UInt8 (Failure χ) ReqResMessage :=
  drain (.cbor .ended) reader consumes_reader bytes

variable (bytes later : Str)

theorem received_append : received (χ := χ) (bytes ++ later) =
    feed (.cbor .ended) reader consumes_reader (received bytes) later :=
  drain_append consumes_reader streams_reader bytes later

theorem received_of_prefix (bytes : Str) (messages : List ReqResMessage) (rest : Str)
    (h : decodeReqResMessageSequencePrefix (χ := χ) bytes = .ok (messages, rest)) :
    received (χ := χ) bytes = ⟨messages, .ok rest⟩ := by
  induction hn : bytes.length using Nat.strong_induction_on generalizing bytes messages with
  | _ n ih =>
    rcases front (χ := χ) bytes with ⟨kind, r₁, fields, r₂, hkind, hfields⟩ | ⟨e, he, hdecode⟩
    · have hlt := Nat.lt_trans (consumes_item r₁ fields r₂ hfields)
        (consumes_item bytes kind r₁ hkind)
      rw [prefix_message hkind hfields] at h
      have hrun := reader_run (χ := χ) hkind hfields
      split at h
      · cases h
      · cases hmessage : decodeGeneratedReqResMessage kind fields with
        | error e =>
          rw [hmessage] at h
          cases h
        | ok m =>
          rw [hmessage] at h hrun
          obtain ⟨⟨later, rest'⟩, hlater, heq⟩ :=
            (Fallible.map_eq_ok _ (decodeReqResMessageSequencePrefix (χ := χ) r₂) _).mp h
          cases heq
          unfold received
          rw [drain_ok consumes_reader hrun]
          exact congrArg (Drained.prepend [m]) (ih r₂.length (hn ▸ hlt) r₂ later hlater rfl)
    · rw [hdecode] at h
      split at h
      · next hended =>
        cases h
        rw [hended] at he
        exact drain_eof consumes_reader he
      · cases h

/-- What a stream of `bytes` is to yield and to throw, however it was cut. -/
def served (bytes : Str) : List ρ × Option (Failure χ) :=
  let d := received (χ := χ) bytes
  match proc.loop d.values with
  | (values, some e) => (values, some e)
  | (values, none) =>
    (values, match d.rest with
      | .error e => some e
      | .ok rest =>
        if rest = [] then none else some (.error "incomplete stream response message"))

/-- What `bytes` leave behind their complete messages, unless the stream ends in them. -/
def pending (bytes : Str) : Option Str :=
  let d := received (χ := χ) bytes
  if (proc.loop d.values).2 = none then d.rest.toOption else none

/-- What is thrown at the first message of `bytes`. -/
def firstFault (bytes : Str) : Option (Failure χ) :=
  match reader bytes with
  | .error e => some e
  | .ok (m, _) =>
    match proc.handle m with
    | .error e => some e
    | .ok _ => none

/-- What the decoding of a read throws is thrown at the first message behind those that the bytes
before it complete: none is complete between. -/
def Clear (buffered : Str) (reads : List Str) : Prop :=
  ∀ before piece after, reads = before ++ piece :: after →
    ∀ buffer, pending proc (buffered ++ before.flatten) = some buffer →
      ∀ e, decodeReqResMessageSequencePrefix (buffer ++ piece) = .error e →
        firstFault proc (buffer ++ piece) = some e

omit [DecidableEq χ] in
theorem loop_stop (messages later : List ReqResMessage) (values : List ρ) (e : Failure χ)
    (h : proc.loop messages = (values, some e)) :
    proc.loop (messages ++ later) = (values, some e) := by
  induction messages generalizing values with
  | nil => cases h
  | cons m rest ih =>
    rw [List.cons_append]
    rw [Proc.loop] at h ⊢
    cases hm : proc.handle m with
    | error e' =>
      rw [hm] at h
      exact h
    | ok value =>
      rw [hm] at h
      obtain ⟨hvalues, he⟩ := Prod.mk.inj h
      rw [ih _ (Prod.ext rfl he), ← hvalues]

omit [DecidableEq χ] in
theorem loop_goes (messages later : List ReqResMessage) (values : List ρ)
    (h : proc.loop messages = (values, none)) :
    proc.loop (messages ++ later) = (values ++ (proc.loop later).1, (proc.loop later).2) := by
  induction messages generalizing values with
  | nil =>
    cases h
    rfl
  | cons m rest ih =>
    rw [List.cons_append]
    rw [Proc.loop] at h ⊢
    cases hm : proc.handle m with
    | error e =>
      rw [hm] at h
      cases h
    | ok value =>
      rw [hm] at h
      obtain ⟨hvalues, he⟩ := Prod.mk.inj h
      rw [ih _ (Prod.ext rfl he), ← hvalues]
      rfl

/-- The stream ends in the messages of `bytes`. -/
theorem ends_here (values : List ρ) (e : Failure χ)
    (h : proc.loop (received (χ := χ) bytes).values = (values, some e)) :
    served proc (bytes ++ later) = (values, some e) ∧ pending proc (bytes ++ later) = none := by
  have hloop : proc.loop (received (χ := χ) (bytes ++ later)).values = (values, some e) := by
    rw [received_append]
    unfold feed
    split
    · exact loop_stop proc _ _ values e h
    · exact h
  constructor
  · unfold served
    dsimp only
    rw [hloop]
  · unfold pending
    dsimp only
    rw [hloop]
    exact if_neg nofun

/-- The stream goes on behind the messages of `bytes`. -/
theorem goes_on (messages : List ReqResMessage) (rest : Str) (values : List ρ)
    (hreceived : received (χ := χ) bytes = ⟨messages, .ok rest⟩)
    (h : proc.loop messages = (values, none)) :
    served proc (bytes ++ later) =
      (values ++ (served proc (rest ++ later)).1, (served proc (rest ++ later)).2) ∧
    pending proc (bytes ++ later) = pending proc (rest ++ later) := by
  have hsplit : received (χ := χ) (bytes ++ later) = (received (rest ++ later)).prepend messages := by
    rw [received_append, hreceived]
    rfl
  have hloop := loop_goes proc messages (received (χ := χ) (rest ++ later)).values values h
  unfold served pending
  rw [hsplit]
  dsimp only [Drained.prepend]
  rw [hloop]
  constructor
  · rcases proc.loop (received (χ := χ) (rest ++ later)).values with ⟨values', e | _⟩
    · rfl
    · rfl
  · rfl

theorem fault_first (e : Failure χ)
    (h : reader bytes ≠ .error (Failure.cbor (χ := χ) .ended)) :
    (served proc (bytes ++ later) = ([], some e) ↔ firstFault proc bytes = some e) ∧
    (firstFault proc bytes = some e → pending proc (bytes ++ later) = none) := by
  unfold served pending firstFault received
  cases hread : reader (χ := χ) bytes with
  | error e' =>
    have hne : e' ≠ .cbor .ended := fun he => h (he ▸ hread)
    rw [drain_error _ (streams_reader.error bytes e' later hread hne) hne]
    constructor
    · rw [Prod.mk.injEq]
      exact and_iff_right rfl
    · exact fun _ => rfl
  | ok o =>
    obtain ⟨m, rest⟩ := o
    rw [drain_ok _ (streams_reader.value bytes m rest later hread)]
    dsimp only [Drained.prepend]
    generalize drain (Failure.cbor (χ := χ) .ended) reader consumes_reader (rest ++ later) = d
    have hloop := Proc.loop.eq_2 proc m d.values
    cases hm : proc.handle m with
    | error e' =>
      rw [hm] at hloop
      rw [List.cons_append, List.nil_append, hloop]
      rw [Prod.mk.injEq]
      exact ⟨and_iff_right rfl, fun _ => if_neg nofun⟩
    | ok value =>
      rw [hm] at hloop
      rw [List.cons_append, List.nil_append, hloop]
      refine ⟨iff_of_false ?_ nofun, nofun⟩
      split
      · next heq =>
        rw [← (Prod.mk.inj heq).1]
        exact nofun
      · next heq =>
        rw [← (Prod.mk.inj heq).1]
        exact nofun

theorem clear_cons (buffered piece : Str) (reads : List Str) :
    Clear proc buffered (piece :: reads) ↔
      (∀ buffer, pending proc buffered = some buffer →
        ∀ e, decodeReqResMessageSequencePrefix (buffer ++ piece) = .error e →
          firstFault proc (buffer ++ piece) = some e) ∧
      Clear proc (buffered ++ piece) reads := by
  constructor
  · intro h
    constructor
    · intro buffer hbuffer
      exact h [] piece reads rfl buffer (by rw [List.flatten_nil, List.append_nil]; exact hbuffer)
    · intro before piece' after hreads buffer hbuffer
      refine h (piece :: before) piece' after (by rw [hreads]; rfl) buffer ?_
      rw [List.flatten_cons, ← List.append_assoc]
      exact hbuffer
  · rintro ⟨hfirst, hrest⟩ before piece' after hreads buffer hbuffer
    cases before with
    | nil =>
      cases hreads
      rw [List.flatten_nil, List.append_nil] at hbuffer
      exact hfirst buffer hbuffer
    | cons piece₀ before =>
      cases hreads
      rw [List.flatten_cons, ← List.append_assoc] at hbuffer
      exact hrest before piece' after rfl buffer hbuffer

theorem clear_of_ended (bytes : Str) (reads : List Str)
    (h : ∀ later, pending proc (bytes ++ later) = none) : Clear proc bytes reads := by
  intro before piece after _ buffer hbuffer
  rw [h] at hbuffer
  cases hbuffer

theorem served_from (buffered : Str) (reads : List Str)
    (h : reader buffered = .error (Failure.cbor (χ := χ) .ended)) :
    streamServerEvents proc buffered reads = served proc (buffered ++ reads.flatten) ↔
      Clear proc buffered reads := by
  induction reads generalizing buffered with
  | nil =>
    have hserved : served proc (buffered ++ []) = streamServerEvents proc buffered [] := by
      rw [List.append_nil]
      unfold served received
      rw [drain_eof consumes_reader h]
      rfl
    refine iff_of_true hserved.symm fun before piece after hreads => ?_
    cases before with
    | nil | cons => cases hreads
  | cons piece reads ih =>
    have hpending : pending proc buffered = some buffered := by
      unfold pending received
      rw [drain_eof consumes_reader h]
      rfl
    rw [clear_cons, hpending, List.flatten_cons, ← List.append_assoc, streamServerEvents]
    cases hdecode : decodeReqResMessageSequencePrefix (χ := χ) (buffered ++ piece) with
    | error e =>
      have hfault := fun later => fault_first proc (buffered ++ piece) later e
        (front_of_fault _ e hdecode)
      rw [eq_comm, (hfault reads.flatten).1]
      constructor
      · intro hfirst
        refine ⟨?_, clear_of_ended proc _ _ fun later => (hfault later).2 hfirst⟩
        intro buffer hbuffer e' he'
        cases hbuffer
        rw [hdecode] at he'
        cases he'
        exact hfirst
      · exact fun hclear => hclear.1 buffered rfl e hdecode
    | ok decoded =>
      obtain ⟨messages, rest⟩ := decoded
      have hreceived := received_of_prefix _ messages rest hdecode
      have hhere : ∀ buffer, some buffered = some buffer →
          ∀ e, decodeReqResMessageSequencePrefix (buffer ++ piece) = .error e →
            firstFault proc (buffer ++ piece) = some e := by
        intro buffer hbuffer e he
        cases hbuffer
        rw [hdecode] at he
        cases he
      rw [and_iff_right hhere]
      dsimp only
      rcases hloop : proc.loop messages with ⟨values, _ | e⟩
      · have hgoes := fun later => goes_on proc _ later messages rest values hreceived hloop
        have hclear : Clear proc (buffered ++ piece) reads ↔ Clear proc rest reads := by
          unfold Clear
          simp only [(hgoes _).2]
        have hrest : reader rest = .error (Failure.cbor (χ := χ) .ended) :=
          drain_rest consumes_reader (buffered ++ piece) rest (congrArg Drained.rest hreceived)
        rw [(hgoes _).1, hclear, ← ih rest hrest, Prod.mk.injEq, List.append_cancel_left_eq,
          ← Prod.mk.injEq]
      · have hends := fun later => ends_here proc (buffered ++ piece) later values e
          (by rw [hreceived]; exact hloop)
        rw [(hends _).1]
        exact iff_of_true rfl (clear_of_ended proc _ _ fun later => (hends later).2)

/-- The events of a stream do not depend on how it is cut exactly where no read holds a complete
message before bytes that are not decoded. -/
theorem events_are_those_served (reads : List Str) :
    streamServerEvents proc [] reads = served proc reads.flatten ↔ Clear proc [] reads :=
  served_from proc [] reads rfl

def counter : Proc Unit ℤ where
  decodeResponse
    | .number n => .ok n
    | _ => .error ()
  decodeError _ := .error ()

def chunk : Str := [0x06, 0xa1, 0x02, 0x41, 0x07]

theorem chunk_kind (later : Str) :
    decodeAt 65 (chunk ++ later) = .ok (.number 6, [0xa1, 0x02, 0x41, 0x07] ++ later) :=
  (streams_decodeAt 65).value [0x06] (.number 6) [] _ rfl

theorem chunk_fields (later : Str) :
    decodeAt 65 ([0xa1, 0x02, 0x41, 0x07] ++ later) = .ok (.map [(2, .bytes [0x07])], later) :=
  (streams_decodeAt 65).value [0xa1, 0x02, 0x41, 0x07] _ [] _ (by rfl)

theorem fault_item : decodeAt 65 [0xff] = .error .unsupported := by rfl

theorem items_fault : items [0xff] = ⟨[], .error .unsupported⟩ := by
  have hne : Thrown.unsupported ≠ .ended := by decide
  exact drain_error consumes_item fault_item hne

theorem fault_in_the_read : streamServerEvents counter [] [chunk ++ [0xff]] =
    ([], some (.cbor .unsupported)) := by
  rw [streamServerEvents, List.nil_append, prefix_message (chunk_kind _) (chunk_fields _),
    items_fault]

theorem fault_in_the_next : streamServerEvents counter [] [chunk, [0xff]] =
    ([7], some (.cbor .unsupported)) := by
  have hended : decodeAt 65 [] = .error Thrown.ended := rfl
  have hempty : items [] = ⟨[], .ok []⟩ := drain_eof consumes_item hended
  have hchunk : decodeReqResMessageSequencePrefix (χ := Unit) chunk =
      .ok ([⟨6, some [0x07], none, none⟩], []) := by
    rw [← List.append_nil chunk, prefix_message (chunk_kind _) (chunk_fields _), hempty]
    unfold decodeReqResMessageSequencePrefix
    rw [hempty]
    rfl
  have hfault : decodeReqResMessageSequencePrefix (χ := Unit) [0xff] =
      .error (.cbor .unsupported) := by
    unfold decodeReqResMessageSequencePrefix
    rw [items_fault]
  have hloop : counter.loop [⟨6, some [0x07], none, none⟩] = ([7], none) := by rfl
  rw [streamServerEvents, List.nil_append, hchunk]
  dsimp only
  rw [hloop]
  rw [streamServerEvents, List.nil_append, hfault]
  rfl

theorem cut_shows : ¬ ∀ reads reads' : List Str, reads.flatten = reads'.flatten →
    streamServerEvents counter [] reads = streamServerEvents counter [] reads' := by
  intro h
  have hsame := h [chunk ++ [0xff]] [chunk, [0xff]] rfl
  rw [fault_in_the_read, fault_in_the_next] at hsame
  cases hsame

end Rieul.Web.ServerStream
