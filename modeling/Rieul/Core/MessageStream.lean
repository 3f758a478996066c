import Rieul.Core.CborCanonical

/-!
# Reading messages off a stream (daemon/core/src/cbor.rs, wire.rs, daemon/host/src/server.rs)

`reads` are the non-empty reads that a stream still gives; behind them it is finished.
-/

namespace Rieul.MessageStream
open Bytes Reader Cbor

section
variable {place : UInt64 → Value → Entries → Entries} (additional : ℕ)

theorem streams_readBe (n : ℕ) : Streams .UnexpectedEnd (readBe n) :=
  (streams_take n).bind fun _ => streams_pure _

theorem streams_argument : Streams .UnexpectedEnd (decodeArgument additional) := by
  have hwide (width shorter : ℕ) : Streams .UnexpectedEnd (decodeWide width shorter) :=
    (streams_readBe width).bind fun _ => (streams_ensure _ _).bind fun _ => streams_pure _
  apply streams_ite _ (streams_pure _)
  split
  · exact hwide 1 23
  · exact hwide 2 0xff
  · exact hwide 4 0xffff
  · exact hwide 8 0xffffffff
  · exact streams_fail _

theorem streams_length : Streams .UnexpectedEnd (decodeLength additional) :=
  (streams_argument additional).bind fun len => (streams_need len.toNat).bind fun _ => streams_pure _

theorem streams_entries {decode : Decoder Value} (h : Streams .UnexpectedEnd decode) (len : ℕ)
    (map : Entries) : Streams .UnexpectedEnd (decodeEntries place decode len map) := by
  induction len generalizing map with
  | zero => exact streams_pure _
  | succ len ih =>
    apply h.bind fun key => (streams_require _ _).bind fun key => h.bind fun value => ?_
    exact (streams_ensure _ _).bind fun _ => ih (place key value map)

theorem streams_major {decode : Decoder Value} (h : Streams .UnexpectedEnd decode) (major : ℕ) :
    Streams .UnexpectedEnd (decodeMajor place decode major additional) := by
  have hlength := streams_length additional
  unfold decodeMajor
  split
  · exact (streams_argument additional).bind fun _ => streams_pure _
  · apply (streams_argument additional).bind
    exact fun _ => (streams_ensure _ _).bind fun _ => streams_pure _
  · exact hlength.bind fun len => (streams_take len).bind fun _ => streams_pure _
  · apply hlength.bind fun len => (streams_take len).bind ?_
    exact fun _ => (streams_require _ _).bind fun _ => streams_pure _
  · exact hlength.bind fun len => (h.times len).bind fun _ => streams_pure _
  · exact hlength.bind fun len => (streams_entries h len []).bind fun _ => streams_pure _
  · unfold decodeSimple
    split
    · exact streams_pure _
    · exact streams_pure _
    · exact streams_pure _
    · exact (streams_readBe 8).bind fun _ => streams_pure _
    · exact streams_fail _
  · exact streams_fail _

theorem streams_decodeValueAt (levels : ℕ) :
    Streams .UnexpectedEnd (decodeValueAt place levels) := by
  induction levels with
  | zero => exact streams_fail _
  | succ levels ih => exact (streams_readBe 1).bind fun _ => streams_major _ ih _

theorem consumes_decodeValue : Consumes decodeValue := by
  intro s v r h
  obtain ⟨initial, s', hinitial, hrest⟩ := (bind_eq_ok _ _ s r v).1 h
  obtain ⟨b, hb, -, hs⟩ := (readBe_eq_ok 1 initial s s').1 hinitial
  have hle := ((streams_major _ (streams_decodeValueAt 64) _).rest _ _ _ hrest).length_le
  rw [hs, List.length_append]
  omega

end

inductive WireError (χ : Type) where
  | cbor (e : CborError)
  | codec (e : χ)
  | emptySequence
  | incompleteMessagePair
  | sequenceTooLarge
  deriving DecidableEq

def maxMessageSequenceSize : ℕ := 64 * 1024 * 1024

/-- `Value::decode_prefix`, with the bytes behind those consumed. -/
def decodeValuePrefix (bytes : Str) : Except CborError (Option (Value × Str)) :=
  match decodeValue bytes with
  | .ok decoded => .ok (some decoded)
  | .error e => if e = .UnexpectedEnd then .ok none else .error e

-- `codec` is the generated `from_flattened_parts` of the messages.
variable {χ μ : Type} (codec : Value → Value → Except χ μ)

/-- `ReqResMessage::decode_prefix`. -/
def decodePrefix (bytes : Str) : Except (WireError χ) (Option (μ × Str)) :=
  if maxMessageSequenceSize < bytes.length then .error .sequenceTooLarge
  else
    match decodeValuePrefix bytes with
    | .error e => .error (.cbor e)
    | .ok none => .ok none
    | .ok (some (kind, rest)) =>
      match decodeValuePrefix rest with
      | .error e => .error (.cbor e)
      | .ok none => .ok none
      | .ok (some (fields, rest)) =>
        match codec kind fields with
        | .error e => .error (.codec e)
        | .ok message => .ok (some (message, rest))

structure ReqResMessageReader where
  buffer : Str
  bytesRead : ℕ
  maxBuffer : ℕ
  maxTotal : ℕ

def ReqResMessageReader.new : ReqResMessageReader :=
  ⟨[], 0, maxMessageSequenceSize, maxMessageSequenceSize⟩

inductive Failure (χ : Type) where
  | wire (e : WireError χ)
  /-- "reqres message sequence ended with an incomplete message" -/
  | incomplete
  | limit (text : String)

namespace ReqResMessageReader
variable (r : ReqResMessageReader)

def desktopLimits : Except String ReqResMessageReader :=
  let r := { r with maxBuffer := 16 * 1024 + 128, maxTotal := 8 * 1024 * 1024 }
  if r.maxBuffer < r.buffer.length ∨ r.maxTotal < r.bytesRead then
    .error "desktop input limit exceeded"
  else .ok r

/-- The rest of `read_more` after a read that gave `chunk`. -/
def readMore (chunk : Str) : Except String ReqResMessageReader :=
  let r := { r with bytesRead := r.bytesRead + chunk.length }
  if r.maxTotal < r.bytesRead ∨ r.maxBuffer < r.buffer.length + chunk.length then
    .error "reqres message sequence exceeds implementation limit"
  else
    let r := { r with buffer := r.buffer ++ chunk }
    if [1, 0xa2, 1, 0x18, 72] <+: r.buffer then r.desktopLimits else .ok r

def next (r : ReqResMessageReader) (reads : List Str) :
    Except (Failure χ) (Option (μ × ReqResMessageReader × List Str)) :=
  match decodePrefix codec r.buffer with
  | .error e => .error (.wire e)
  | .ok (some (message, rest)) => .ok (some (message, { r with buffer := rest }, reads))
  | .ok none =>
    -- A read gets no more bytes than the buffer has room for.
    if r.maxBuffer - r.buffer.length = 0 then
      .error (.limit "reqres frame exceeds implementation limit")
    else
      match reads with
      | [] => if r.buffer = [] then .ok none else .error .incomplete
      | chunk :: reads =>
        match r.readMore chunk with
        | .error text => .error (.limit text)
        | .ok r => next r reads

end ReqResMessageReader

/-- What has been handed out, and where the reader then is. Its user may ask for the limits of a
desktop stream at any time. -/
inductive Gave : List Str → List μ → ReqResMessageReader → List Str → Prop
  | new (reads : List Str) : Gave reads [] .new reads
  | next {reads ms r left m r' left'} : Gave reads ms r left →
      r.next codec left = .ok (some (m, r', left')) → Gave reads (ms ++ [m]) r' left'
  | limits {reads ms r left r'} : Gave reads ms r left → r.desktopLimits = .ok r' →
      Gave reads ms r' left

def message : Reader UInt8 (WireError χ) μ := do
  let kind ← Reader.mapError .cbor decodeValue
  let fields ← Reader.mapError .cbor decodeValue
  match codec kind fields with
  | .ok m => pure m
  | .error e => Reader.fail (.codec e)

theorem streams_message : Streams (.cbor .UnexpectedEnd) (message codec) := by
  have hvalue := (@streams_decodeValueAt insertEntry 65).mapError
    (WireError.cbor (χ := χ)) _ rfl
  apply hvalue.bind fun kind => hvalue.bind fun fields => ?_
  split
  · exact streams_pure _
  · exact streams_fail _

variable {codec}

theorem consumes_message : Consumes (message codec) := by
  intro bytes m rest h
  obtain ⟨kind, r₁, hkind, h⟩ := (bind_eq_ok _ _ _ _ _).mp h
  obtain ⟨fields, r₂, hfields, h⟩ := (bind_eq_ok _ _ _ _ _).mp h
  have hkind := consumes_decodeValue _ _ _ ((mapError_eq_ok _ _ _ _).mp hkind)
  have hfields := consumes_decodeValue _ _ _ ((mapError_eq_ok _ _ _ _).mp hfields)
  cases hm : codec kind fields <;> rw [hm] at h <;> cases h
  exact hfields.trans hkind

theorem decodePrefix_spec (bytes : Str) (h : bytes.length ≤ maxMessageSequenceSize) :
    match decodePrefix codec bytes with
    | .ok none => message codec bytes = .error (.cbor .UnexpectedEnd)
    | .ok (some (m, rest)) => message codec bytes = .ok (m, rest)
    | .error e => message codec bytes = .error e ∧ e ≠ .cbor .UnexpectedEnd := by
  unfold decodePrefix decodeValuePrefix
  rw [if_neg (Nat.not_lt.mpr h)]
  cases hkind : decodeValue bytes with
  | error e =>
    have hm : message codec bytes = .error (.cbor e) :=
      bind_run_error _ _ _ _ ((mapError_eq_error _ _ _).mpr ⟨e, hkind, rfl⟩)
    by_cases he : e = .UnexpectedEnd <;> simpa [he] using hm
  | ok o =>
    obtain ⟨kind, r₁⟩ := o
    dsimp only
    cases hfields : decodeValue r₁ with
    | error e =>
      have hm : message codec bytes = .error (.cbor e) := by
        unfold message
        rw [bind_run _ _ bytes r₁ kind ((mapError_eq_ok _ _ _ _).mpr hkind)]
        exact bind_run_error _ _ _ _ ((mapError_eq_error _ _ _).mpr ⟨e, hfields, rfl⟩)
      by_cases he : e = .UnexpectedEnd <;> simpa [he] using hm
    | ok o =>
      obtain ⟨fields, r₂⟩ := o
      unfold message
      rw [bind_run _ _ bytes r₁ kind ((mapError_eq_ok _ _ _ _).mpr hkind),
        bind_run _ _ r₁ r₂ fields ((mapError_eq_ok _ _ _ _).mpr hfields)]
      dsimp only
      cases codec kind fields with
      | error e => exact ⟨rfl, nofun⟩
      | ok m => rfl

variable [DecidableEq χ]

variable (codec) in
/-- The messages of `bytes`, and where they end. -/
def received (bytes : Str) : Drained UInt8 (WireError χ) μ :=
  drain (.cbor .UnexpectedEnd) (message codec) consumes_message bytes

open ReqResMessageReader

variable {r r' : ReqResMessageReader}

def ReqResMessageReader.Bounded (r : ReqResMessageReader) : Prop :=
  r.buffer.length ≤ r.maxBuffer ∧ r.maxBuffer ≤ maxMessageSequenceSize

theorem desktopLimits_spec (h : r.desktopLimits = .ok r') : r'.buffer = r.buffer ∧ r'.Bounded := by
  unfold desktopLimits at h
  dsimp only at h
  split at h
  · cases h
  · next hle =>
    cases h
    rw [not_or, Nat.not_lt] at hle
    exact ⟨rfl, hle.1, by simp [maxMessageSequenceSize]⟩

theorem readMore_spec {chunk : Str} (hr : r.Bounded) (h : r.readMore chunk = .ok r') :
    r'.buffer = r.buffer ++ chunk ∧ r'.Bounded := by
  unfold readMore at h
  dsimp only at h
  split at h
  · cases h
  · next hle =>
    split at h
    · exact desktopLimits_spec h
    · cases h
      refine ⟨rfl, ?_, hr.2⟩
      simp only [List.length_append]
      omega

variable (codec) in
/-- What an answer of `next` behind the messages `ms` says about the bytes of the stream. -/
def Answers (bytes : Str) (ms : List μ) :
    Except (Failure χ) (Option (μ × ReqResMessageReader × List Str)) → Prop
  | .ok none => received codec bytes = ⟨ms, .ok []⟩
  | .ok (some (m, r, left)) => r.Bounded ∧ received codec bytes =
      (received codec (r.buffer ++ left.flatten)).prepend (ms ++ [m])
  | .error (.wire e) => received codec bytes = ⟨ms, .error e⟩
  | .error .incomplete => ∃ rest, rest ≠ [] ∧ received codec bytes = ⟨ms, .ok rest⟩
  | .error (.limit _) => ms <+: (received codec bytes).values

theorem next_spec {bytes : Str} {ms : List μ} (left : List Str) (r : ReqResMessageReader)
    (hr : r.Bounded) (hbytes : received codec bytes =
      (received codec (r.buffer ++ left.flatten)).prepend ms) :
    Answers codec bytes ms (r.next codec left) := by
  have hspec := @decodePrefix_spec χ μ codec r.buffer (hr.1.trans hr.2)
  have hstreams := streams_message codec
  have hms : ms <+: (received codec bytes).values := ⟨_, (congrArg Drained.values hbytes).symm⟩
  unfold received at hbytes
  unfold next
  rcases hp : decodePrefix codec r.buffer with e | _ | ⟨m, rest⟩
  · rw [hp] at hspec
    rw [drain_error _ (hstreams.error _ _ _ hspec.1 hspec.2) hspec.2] at hbytes
    exact hbytes.trans (by simp [Drained.prepend])
  · rw [hp] at hspec
    dsimp only
    split
    · exact hms
    cases left with
    | nil =>
      rw [List.flatten_nil, List.append_nil, drain_eof _ hspec] at hbytes
      have hended : received codec bytes = ⟨ms, .ok r.buffer⟩ :=
        hbytes.trans (by simp [Drained.prepend])
      by_cases hempty : r.buffer = []
      · rw [if_pos hempty]
        exact hended.trans (by rw [hempty])
      · rw [if_neg hempty]
        exact ⟨r.buffer, hempty, hended⟩
    | cons chunk left =>
      dsimp only
      cases hmore : r.readMore chunk with
      | error text => exact hms
      | ok r' =>
        obtain ⟨hbuffer, hr'⟩ := readMore_spec hr hmore
        rw [List.flatten_cons, ← List.append_assoc, ← hbuffer] at hbytes
        exact next_spec left r' hr' hbytes
  · rw [hp] at hspec
    rw [drain_ok _ (hstreams.value _ _ _ _ hspec), Drained.prepend_prepend] at hbytes
    exact ⟨⟨(hstreams.rest _ _ _ hspec).length_le.trans hr.1, hr.2⟩, hbytes⟩

theorem gave_spec {reads left ms} (h : Gave codec reads ms r left) :
    r.Bounded ∧ received codec reads.flatten =
      (received codec (r.buffer ++ left.flatten)).prepend ms := by
  induction h with
  | new => exact ⟨⟨Nat.zero_le _, le_rfl⟩, rfl⟩
  | next _ hnext ih =>
    have hanswer := next_spec _ _ ih.1 ih.2
    rw [hnext] at hanswer
    exact hanswer
  | limits _ hlimits ih =>
    obtain ⟨hbuffer, hr⟩ := desktopLimits_spec hlimits
    exact ⟨hr, hbuffer ▸ ih.2⟩

/-- However a stream is read, its messages are handed out in order, each once. -/
theorem messages_of_the_stream {reads left ms} (h : Gave codec reads ms r left) :
    r.Bounded ∧ Answers codec reads.flatten ms (r.next codec left) := by
  obtain ⟨hr, hbytes⟩ := gave_spec h
  exact ⟨hr, next_spec left r hr hbytes⟩

def keep (kind _fields : Value) : Except Unit Value := .ok kind

theorem messages_of_the_stream_sample : ∃ r : ReqResMessageReader, r.Bounded ∧
    Answers keep [[6], [0xa0]].flatten [.u64 6] (r.next keep []) :=
  ⟨_, messages_of_the_stream (.next (.new _) rfl)⟩

end Rieul.MessageStream
