import Rieul.Core.MessageStream

/-!
# Sequences of messages (daemon/core/src/cbor.rs, wire.rs, socket_wire.rs)

The two kinds of messages differ in their generated codec alone.
-/

namespace Rieul.MessageStream
open Bytes Reader Cbor

/-- `Value::decode_sequence`. -/
def decodeValues (bytes : Str) : Except CborError (List Value) :=
  if bytes = [] then .ok []
  else
    match _h : decodeValue bytes with
    | .error e => .error e
    | .ok (value, rest) => (decodeValues rest).map (value :: ·)
termination_by bytes.length
decreasing_by exact consumes_decodeValue _ _ _ _h

variable {χ μ : Type} (codec : Value → Value → Except χ μ)

/-- The loop of `decode_sequence`. -/
def decodePairs : List Value → Except (WireError χ) (List μ)
  | [] => .ok []
  | [_] => .error .incompleteMessagePair
  | kind :: fields :: values =>
    match codec kind fields with
    | .error e => .error (.codec e)
    | .ok message => (decodePairs values).map (message :: ·)

/-- `ReqResMessage::decode_sequence`. -/
def decodeSequence (bytes : Str) : Except (WireError χ) (List μ) :=
  if maxMessageSequenceSize < bytes.length then .error .sequenceTooLarge
  else
    match decodeValues bytes with
    | .error e => .error (.cbor e)
    | .ok values =>
      if values = [] then .error .emptySequence
      else if values.length % 2 ≠ 0 then .error .incompleteMessagePair
      else decodePairs codec values

section
variable {codec}

theorem decodePrefix_bounded {bytes : Str} {o : Option (μ × Str)}
    (h : decodePrefix codec bytes = .ok o) : bytes.length ≤ maxMessageSequenceSize := by
  by_contra hlong
  rw [decodePrefix, if_pos (Nat.not_le.mp hlong)] at h
  cases h

theorem decodePrefix_shorter {bytes rest : Str} {m : μ}
    (h : decodePrefix codec bytes = .ok (some (m, rest))) : rest.length < bytes.length := by
  have hspec := @decodePrefix_spec χ μ codec bytes (decodePrefix_bounded h)
  rw [h] at hspec
  exact consumes_message _ _ _ hspec

end

theorem message_run {bytes r₁ r₂ : Str} {kind fields : Value}
    (hkind : decodeValue bytes = .ok (kind, r₁)) (hfields : decodeValue r₁ = .ok (fields, r₂)) :
    message codec bytes = match codec kind fields with
      | .ok m => .ok (m, r₂)
      | .error c => .error (.codec c) := by
  unfold message
  rw [bind_run _ _ bytes r₁ kind ((mapError_eq_ok _ _ _ _).mpr hkind),
    bind_run _ _ r₁ r₂ fields ((mapError_eq_ok _ _ _ _).mpr hfields)]
  cases codec kind fields <;> rfl

/-- The messages that `decode_prefix` gives until it needs more bytes. -/
def taken (buffer : Str) : Drained UInt8 (WireError χ) μ :=
  match _h : decodePrefix codec buffer with
  | .error e => ⟨[], .error e⟩
  | .ok none => ⟨[], .ok buffer⟩
  | .ok (some (message, rest)) => (taken rest).prepend [message]
termination_by buffer.length
decreasing_by exact decodePrefix_shorter _h

/-- What a reader has handed out, and its buffer, after one more piece. -/
def fed (d : Drained UInt8 (WireError χ) μ) (piece : Str) : Drained UInt8 (WireError χ) μ :=
  match d.rest with
  | .error _ => d
  | .ok buffer => (taken codec (buffer ++ piece)).prepend d.values

/-- The bytes are pairs of CBOR values. -/
def Paired (bytes : Str) : Prop := ∃ values, decodeValues bytes = .ok values ∧ values.length % 2 = 0

def Fits (v : Value) : Prop := v.depth ≤ 64 ∧ v.Sized ∧ v.Distinct

variable [DecidableEq χ]

/-- An answer, but for the request for more bytes, does not depend on the bytes behind it; a whole
value or message is none without its last byte; and the messages depend on the bytes alone, not on
the pieces they come in. -/
structure ChunkFree : Prop where
  value : ∀ bytes t, decodeValuePrefix bytes ≠ .ok none →
    decodeValuePrefix (bytes ++ t) = extended t (decodeValuePrefix bytes)
  message : ∀ bytes t, (bytes ++ t).length ≤ maxMessageSequenceSize →
    decodePrefix codec bytes ≠ .ok none →
      decodePrefix codec (bytes ++ t) = extended t (decodePrefix codec bytes)
  encoded_value : ∀ v, Fits v → decodeValuePrefix v.encode = .ok (some (v.normal, []))
  encoded : ∀ kind fields m, Fits kind → Fits fields → codec kind.normal fields.normal = .ok m →
    (kind.encode ++ fields.encode).length ≤ maxMessageSequenceSize →
      decodePrefix codec (kind.encode ++ fields.encode) = .ok (some (m, []))
  proper_value : ∀ bytes t v, decodeValuePrefix (bytes ++ t) = .ok (some (v, [])) → t ≠ [] →
    decodeValuePrefix bytes = .ok none
  proper : ∀ bytes t m, decodePrefix codec (bytes ++ t) = .ok (some (m, [])) → t ≠ [] →
    decodePrefix codec bytes = .ok none
  pieces : ∀ pieces : List Str, pieces.flatten.length ≤ maxMessageSequenceSize →
    pieces.foldl (fed codec) ⟨[], .ok []⟩ = taken codec pieces.flatten
  sequence : ∀ bytes ms, bytes.length ≤ maxMessageSequenceSize →
    (decodeSequence codec bytes = .ok ms ↔ ms ≠ [] ∧ taken codec bytes = ⟨ms, .ok []⟩)
  failure : ∀ bytes ms e, bytes.length ≤ maxMessageSequenceSize →
    taken codec bytes = ⟨ms, .error e⟩ →
      decodeSequence codec bytes = .error e ∨ (∃ c, e = .codec c) ∧ ¬ Paired bytes

section
variable {codec} {bytes : Str}

variable (bytes) in
theorem decodeValuePrefix_sofar : decodeValuePrefix bytes = sofar .UnexpectedEnd decodeValue bytes := by
  unfold decodeValuePrefix sofar
  cases decodeValue bytes <;> rfl

theorem decodePrefix_sofar (h : bytes.length ≤ maxMessageSequenceSize) :
    decodePrefix codec bytes = sofar (.cbor .UnexpectedEnd) (message codec) bytes := by
  have hspec := @decodePrefix_spec χ μ codec bytes h
  unfold sofar
  rcases hp : decodePrefix codec bytes with e | _ | o
  · rw [hp] at hspec
    rw [hspec.1]
    exact (if_neg hspec.2).symm
  · rw [hp] at hspec
    rw [show message codec bytes = _ from hspec]
    exact (if_pos rfl).symm
  · rw [hp] at hspec
    rw [show message codec bytes = _ from hspec]

theorem taken_received (h : bytes.length ≤ maxMessageSequenceSize) :
    taken codec bytes = received codec bytes := by
  induction hn : bytes.length using Nat.strong_induction_on generalizing bytes with
  | _ n ih =>
    have hspec := @decodePrefix_spec χ μ codec bytes h
    rw [taken]
    split
    · next e hp =>
      rw [hp] at hspec
      exact (drain_error _ hspec.1 hspec.2).symm
    · next hp =>
      rw [hp] at hspec
      exact (drain_eof _ hspec).symm
    · next m rest hp =>
      have hlt := decodePrefix_shorter hp
      rw [hp] at hspec
      rw [ih _ (hn ▸ hlt) (hlt.le.trans h) rfl]
      exact (drain_ok _ hspec).symm

theorem fed_pieces (pieces : List Str) (h : pieces.flatten.length ≤ maxMessageSequenceSize) :
    pieces.foldl (fed codec) ⟨[], .ok []⟩ = received codec pieces.flatten := by
  induction pieces using List.reverseRecOn with
  | nil => exact (drain_eof (@consumes_message χ μ codec) rfl).symm
  | append_singleton pieces piece ih =>
    rw [List.flatten_append, List.flatten_singleton, List.length_append] at h
    have hbefore := ih (by omega)
    rw [List.foldl_append, hbefore, List.flatten_append, List.flatten_singleton]
    unfold received
    rw [drain_append _ (streams_message codec)]
    show fed codec _ piece = _
    unfold fed feed
    split
    · next hrest => rw [hrest]
    · next buffer hrest =>
      have hle := (drain_suffix _ (streams_message codec) _ _ hrest).length_le
      rw [hrest]
      dsimp only
      rw [taken_received (by rw [List.length_append]; omega)]
      rfl

theorem decodeValues_ok {value : Value} {rest : Str} (h : decodeValue bytes = .ok (value, rest)) :
    decodeValues bytes = (decodeValues rest).map (value :: ·) := by
  have hne : bytes ≠ [] := by
    rintro rfl
    cases h
  rw [decodeValues, if_neg hne]
  split
  · next h' => cases h.symm.trans h'
  · next h' =>
    cases h.symm.trans h'
    rfl

theorem decodeValues_error {e : CborError} (h : decodeValue bytes = .error e) (hne : bytes ≠ []) :
    decodeValues bytes = .error e := by
  rw [decodeValues, if_neg hne]
  split
  · next h' =>
    cases h.symm.trans h'
    rfl
  · next h' => cases h.symm.trans h'

variable (codec) in
/-- What the messages of `bytes` say about its values. -/
def Sequenced (bytes : Str) : Drained UInt8 (WireError χ) μ → Prop
  | ⟨ms, .ok []⟩ => ∃ values, decodeValues bytes = .ok values ∧ values.length % 2 = 0 ∧
      decodePairs codec values = .ok ms ∧ (values = [] ↔ ms = [])
  | ⟨_, .ok (_ :: _)⟩ => ¬ Paired bytes
  | ⟨_, .error (.cbor e)⟩ => decodeValues bytes = .error e
  | ⟨_, .error e⟩ => (∃ c, e = .codec c) ∧ ∀ values, decodeValues bytes = .ok values →
      values.length % 2 = 0 → values ≠ [] ∧ decodePairs codec values = .error e

theorem exists_tail {kind fields : Value} {r : Str} {values : List Value}
    (hvalues : decodeValues bytes = (decodeValues r).map (kind :: fields :: ·))
    (h : decodeValues bytes = .ok values) :
    ∃ tail, decodeValues r = .ok tail ∧ values = kind :: fields :: tail ∧
      values.length % 2 = tail.length % 2 := by
  rw [hvalues] at h
  cases hr : decodeValues r with
  | error e =>
    rw [hr] at h
    cases h
  | ok tail =>
    rw [hr] at h
    cases h
    exact ⟨tail, rfl, rfl, Nat.add_mod_right tail.length 2⟩

omit [DecidableEq χ] in
theorem Sequenced.cons {kind fields : Value} {m : μ} {r : Str}
    (hvalues : decodeValues bytes = (decodeValues r).map (kind :: fields :: ·))
    (hm : codec kind fields = .ok m) {d : Drained UInt8 (WireError χ) μ}
    (h : Sequenced codec r d) : Sequenced codec bytes (d.prepend [m]) := by
  obtain ⟨ms, e | rest⟩ := d
  · cases e with
    | cbor e =>
      show decodeValues bytes = .error e
      rw [hvalues, show decodeValues r = .error e from h]
      rfl
    | codec c =>
      refine ⟨⟨c, rfl⟩, fun values hv hlen => ?_⟩
      obtain ⟨tail, htail, rfl, heven⟩ := exists_tail hvalues hv
      refine ⟨List.cons_ne_nil _ _, ?_⟩
      rw [decodePairs, hm, (h.2 tail htail (heven ▸ hlen)).2]
      rfl
    | emptySequence => exact absurd h.1 nofun
    | incompleteMessagePair => exact absurd h.1 nofun
    | sequenceTooLarge => exact absurd h.1 nofun
  · cases rest with
    | nil =>
      obtain ⟨tail, htail, hlen, hpairs, -⟩ := h
      refine ⟨kind :: fields :: tail, by rw [hvalues, htail]; rfl,
        (Nat.add_mod_right tail.length 2).trans hlen, ?_, by simp⟩
      rw [decodePairs, hm, hpairs]
      rfl
    | cons b rest =>
      rintro ⟨values, hv, hlen⟩
      obtain ⟨tail, htail, -, heven⟩ := exists_tail hvalues hv
      exact h ⟨tail, htail, heven ▸ hlen⟩

variable (codec) in
theorem sequenced (bytes : Str) : Sequenced codec bytes (received codec bytes) := by
  induction hn : bytes.length using Nat.strong_induction_on generalizing bytes with
  | _ n ih =>
    cases hkind : decodeValue bytes with
    | error e =>
      have hm : message codec bytes = .error (.cbor e) :=
        bind_run_error _ _ _ _ ((mapError_eq_error _ _ _).mpr ⟨e, hkind, rfl⟩)
      by_cases he : e = .UnexpectedEnd
      · subst he
        rw [received, drain_eof _ hm]
        cases bytes with
        | nil => exact ⟨[], by rw [decodeValues, if_pos rfl], rfl, rfl, iff_of_true rfl rfl⟩
        | cons b bytes =>
          rintro ⟨values, hvalues, -⟩
          cases (decodeValues_error hkind (List.cons_ne_nil b bytes)).symm.trans hvalues
      · rw [received, drain_error _ hm (by simpa using he)]
        apply decodeValues_error hkind
        rintro rfl
        cases hkind
        exact he rfl
    | ok o =>
      obtain ⟨kind, r₁⟩ := o
      have hshort := consumes_decodeValue _ _ _ hkind
      have hvalues := decodeValues_ok hkind
      cases hfields : decodeValue r₁ with
      | error e =>
        have hm : message codec bytes = .error (.cbor e) := by
          unfold message
          rw [bind_run _ _ bytes r₁ kind ((mapError_eq_ok _ _ _ _).mpr hkind)]
          exact bind_run_error _ _ _ _ ((mapError_eq_error _ _ _).mpr ⟨e, hfields, rfl⟩)
        by_cases he : e = .UnexpectedEnd
        · subst he
          rw [received, drain_eof _ hm]
          cases bytes with
          | nil => cases hkind
          | cons b bytes =>
            rintro ⟨values, hv, hlen⟩
            rw [hvalues] at hv
            -- behind the kind is nothing, or what is cut off
            by_cases hend : r₁ = []
            · rw [hend, decodeValues, if_pos rfl] at hv
              cases hv
              cases hlen
            · rw [decodeValues_error hfields hend] at hv
              cases hv
        · rw [received, drain_error _ hm (by simpa using he)]
          have hend : r₁ ≠ [] := by
            rintro rfl
            cases hfields
            exact he rfl
          show decodeValues bytes = .error e
          rw [hvalues, decodeValues_error hfields hend]
          rfl
      | ok o =>
        obtain ⟨fields, r₂⟩ := o
        have hshorter := consumes_decodeValue _ _ _ hfields
        have hboth : decodeValues bytes = (decodeValues r₂).map (kind :: fields :: ·) := by
          rw [hvalues, decodeValues_ok hfields]
          cases decodeValues r₂ <;> rfl
        have hmessage := message_run codec hkind hfields
        cases hc : codec kind fields with
        | error c =>
          rw [hc] at hmessage
          rw [received, drain_error _ hmessage (by simp)]
          refine ⟨⟨c, rfl⟩, fun values hv _ => ?_⟩
          obtain ⟨tail, -, rfl, -⟩ := exists_tail hboth hv
          exact ⟨List.cons_ne_nil _ _, by rw [decodePairs, hc]⟩
        | ok m =>
          rw [hc] at hmessage
          rw [received, drain_ok _ hmessage]
          exact (ih _ (by omega) r₂ rfl).cons hboth hc

theorem decodeSequence_eq_ok (h : bytes.length ≤ maxMessageSequenceSize) (ms : List μ) :
    decodeSequence codec bytes = .ok ms ↔ ms ≠ [] ∧ received codec bytes = ⟨ms, .ok []⟩ := by
  have hs := sequenced codec bytes
  unfold decodeSequence
  rw [if_neg (Nat.not_lt.mpr h)]
  constructor
  · intro hms
    cases hv : decodeValues bytes with
    | error e =>
      rw [hv] at hms
      cases hms
    | ok values =>
      rw [hv] at hms
      dsimp only at hms
      split at hms
      · cases hms
      split at hms
      · cases hms
      · next hne hodd =>
        have hlen : values.length % 2 = 0 := not_not.mp hodd
        rcases hd : received codec bytes with ⟨ms', (e | c | _ | _ | _) | _ | _⟩ <;> rw [hd] at hs
        · cases hv.symm.trans hs
        · cases hms.symm.trans (hs.2 values hv hlen).2
        · exact absurd hs.1 nofun
        · exact absurd hs.1 nofun
        · exact absurd hs.1 nofun
        · obtain ⟨values', hv', -, hpairs, hempty⟩ := hs
          cases hv.symm.trans hv'
          cases hms.symm.trans hpairs
          exact ⟨fun h => hne (hempty.mpr h), rfl⟩
        · exact absurd ⟨values, hv, hlen⟩ hs
  · rintro ⟨hne, hd⟩
    rw [hd] at hs
    obtain ⟨values, hv, hlen, hpairs, hempty⟩ := hs
    rw [hv]
    dsimp only
    rw [if_neg (fun h => hne (hempty.mp h)), if_neg (not_not.mpr hlen), hpairs]

theorem decodeSequence_failure (h : bytes.length ≤ maxMessageSequenceSize) {ms : List μ}
    {e : WireError χ} (hd : received codec bytes = ⟨ms, .error e⟩) :
    decodeSequence codec bytes = .error e ∨ (∃ c, e = .codec c) ∧ ¬ Paired bytes := by
  have hs := sequenced codec bytes
  rw [hd] at hs
  by_cases hcodec : ∃ c, e = .codec c
  · by_cases hpaired : Paired bytes
    · obtain ⟨c, rfl⟩ := hcodec
      obtain ⟨values, hv, hlen⟩ := hpaired
      obtain ⟨hne, hpairs⟩ := hs.2 values hv hlen
      left
      unfold decodeSequence
      rw [if_neg (Nat.not_lt.mpr h), hv]
      dsimp only
      rw [if_neg hne, if_neg (not_not.mpr hlen), hpairs]
    · exact .inr ⟨hcodec, hpaired⟩
  · left
    cases e with
    | cbor e =>
      unfold decodeSequence
      rw [if_neg (Nat.not_lt.mpr h), show decodeValues bytes = .error e from hs]
    | codec c => exact absurd ⟨c, rfl⟩ hcodec
    | emptySequence => exact absurd hs.1 nofun
    | incompleteMessagePair => exact absurd hs.1 nofun
    | sequenceTooLarge => exact absurd hs.1 nofun

omit [DecidableEq χ] in
theorem message_encoded {kind fields : Value} {m : μ} (hkind : Fits kind) (hfields : Fits fields)
    (hm : codec kind.normal fields.normal = .ok m) (r : Str) :
    message codec (kind.encode ++ fields.encode ++ r) = .ok (m, r) := by
  have hrun (v : Value) (r : Str) (hv : Fits v) :
      Reader.mapError (WireError.cbor (χ := χ)) decodeValue (v.encode ++ r) = .ok (v.normal, r) :=
    (mapError_eq_ok _ _ _ _).mpr
      (decode_encode 65 keeps_insertEntry v r (Nat.lt_succ_of_le hv.1) hv.2.1 hv.2.2)
  unfold message
  rw [List.append_assoc, bind_run _ _ _ _ _ (hrun _ _ hkind), bind_run _ _ _ _ _ (hrun _ _ hfields),
    hm]
  rfl

end

theorem chunkFree : ChunkFree codec where
  value bytes t h := by
    simp only [decodeValuePrefix_sofar] at h ⊢
    exact (@streams_decodeValueAt insertEntry 65).sofar_append bytes t h
  message bytes t hlen h := by
    have hle : bytes.length ≤ maxMessageSequenceSize := by
      rw [List.length_append] at hlen
      omega
    rw [decodePrefix_sofar hle] at h ⊢
    rw [decodePrefix_sofar hlen]
    exact (streams_message codec).sofar_append bytes t h
  encoded_value v hv := by
    have h := decode_encode 65 keeps_insertEntry v [] (Nat.lt_succ_of_le hv.1) hv.2.1 hv.2.2
    rw [List.append_nil] at h
    unfold decodeValuePrefix decodeValue
    rw [h]
    rfl
  encoded kind fields m hkind hfields hm hlen := by
    have h := message_encoded hkind hfields hm []
    rw [List.append_nil] at h
    rw [decodePrefix_sofar hlen, sofar, h]
  proper_value bytes t v h ht := by
    rw [decodeValuePrefix_sofar] at h ⊢
    exact (@streams_decodeValueAt insertEntry 65).sofar_front bytes t v h ht
  proper bytes t m h ht := by
    have hlen := decodePrefix_bounded h
    rw [decodePrefix_sofar hlen] at h
    rw [List.length_append] at hlen
    rw [decodePrefix_sofar (by omega)]
    exact (streams_message codec).sofar_front bytes t m h ht
  pieces pieces h := (fed_pieces pieces h).trans (taken_received h).symm
  sequence bytes ms h := by
    rw [taken_received h]
    exact decodeSequence_eq_ok h ms
  failure bytes ms e h hd := decodeSequence_failure h ((taken_received h).symm.trans hd)

def refuse (_kind _fields : Value) : Except Unit Value := .error ()

/-- Behind a whole message the limit is reached; `decode_sequence` decodes the values behind a
message before it finds that the codec refuses it; and it refuses no messages at all. -/
theorem sequence_strays :
    (∃ bytes t, decodePrefix keep bytes = .ok (some (.u64 6, [])) ∧
      decodePrefix keep (bytes ++ t) = .error .sequenceTooLarge) ∧
    (∃ bytes, taken refuse bytes = ⟨[], .error (.codec ())⟩ ∧
      decodeSequence refuse bytes = .error (.cbor .UnsupportedType)) ∧
    taken keep [] = ⟨[], .ok []⟩ ∧ decodeSequence keep [] = .error .emptySequence := by
  refine ⟨⟨[6, 0xa0], List.replicate maxMessageSequenceSize 0, rfl, ?_⟩, ⟨[6, 0xa0, 0xff], ?_, ?_⟩,
    ?_, ?_⟩
  · rw [decodePrefix, if_pos]
    rw [List.length_append, List.length_replicate]
    exact Nat.lt_add_of_pos_left (Nat.succ_pos 1)
  · rw [taken_received (by decide)]
    exact drain_error _ rfl nofun
  · have hlast : decodeValues [0xff] = .error .UnsupportedType :=
      decodeValues_error rfl (List.cons_ne_nil _ _)
    have hfields : decodeValues [0xa0, 0xff] = .error .UnsupportedType := by
      rw [@decodeValues_ok [0xa0, 0xff] (.map []) [0xff] rfl, hlast]
      rfl
    rw [decodeSequence, if_neg (by decide), @decodeValues_ok [6, 0xa0, 0xff] (.u64 6) [0xa0, 0xff] rfl,
      hfields]
    rfl
  · rw [taken_received (by decide)]
    exact drain_eof _ rfl
  · rw [decodeSequence, if_neg (by decide), decodeValues, if_pos rfl]
    rfl

variable {codec}

variable (codec) in
/-- A message whose parts are encoded, and which the codec makes of what is decoded of them. -/
structure Sent where
  kind : Value
  fields : Value
  message : μ
  kind_fits : Fits kind
  fields_fit : Fits fields
  parts : codec kind.normal fields.normal = .ok message

/-- `ReqResMessage::encode`. -/
def Sent.encode (s : Sent codec) : Str := s.kind.encode ++ s.fields.encode

/-- `ReqResMessage::encode_sequence`. -/
def encodeSequence (sent : List (Sent codec)) : Str := sent.flatMap Sent.encode

theorem received_of_sent (sent : List (Sent codec)) :
    received codec (encodeSequence sent) = ⟨sent.map Sent.message, .ok []⟩ := by
  induction sent with
  | nil => exact drain_eof _ rfl
  | cons s sent ih =>
    exact (drain_ok _ (message_encoded s.kind_fits s.fields_fit s.parts _)).trans
      (congrArg (Drained.prepend [s.message]) ih)

/-- Sent messages arrive, at once or piece by piece. -/
theorem sequence_round_trip (sent : List (Sent codec)) (pieces : List Str)
    (hpieces : pieces.flatten = encodeSequence sent) (hsent : sent ≠ [])
    (hlen : (encodeSequence sent).length ≤ maxMessageSequenceSize) :
    decodeSequence codec (encodeSequence sent) = .ok (sent.map Sent.message) ∧
      pieces.foldl (fed codec) ⟨[], .ok []⟩ = ⟨sent.map Sent.message, .ok []⟩ := by
  have hreceived := received_of_sent sent
  refine ⟨(decodeSequence_eq_ok hlen _).mpr ⟨by simpa using hsent, hreceived⟩, ?_⟩
  rw [fed_pieces pieces (hpieces ▸ hlen), hpieces, hreceived]

theorem fits_u64 (n : UInt64) : Fits (.u64 n) := ⟨Nat.zero_le _, trivial, trivial⟩

def sampleFields : Value := .map [(1, .array [.bool true, .null]), (2, .bytes [7, 7])]

theorem sampleFields_fit : Fits sampleFields := by
  refine ⟨by decide, ?_, ?_⟩
  · simp [sampleFields, Value.Sized, SizedEntries, SizedItems]
  · simp [sampleFields, Value.Distinct, Value.Keyed, KeyedEntries, KeyedItems]

def sampleSent : List (Sent keep) :=
  [⟨.u64 6, .u64 9, .u64 6, fits_u64 6, fits_u64 9, rfl⟩,
    ⟨.u64 2, sampleFields, .u64 2, fits_u64 2, sampleFields_fit, rfl⟩]

theorem sequence_round_trip_sample :
    decodeSequence keep (encodeSequence sampleSent) = .ok [.u64 6, .u64 2] ∧
      [[6], [9, 2], [0xa2, 1, 0x82, 0xf5], [0xf6, 2, 0x42, 7, 7]].foldl (fed keep) ⟨[], .ok []⟩ =
        ⟨[.u64 6, .u64 2], .ok []⟩ :=
  sequence_round_trip sampleSent _ (by decide) (by decide) (by decide)

end Rieul.MessageStream
