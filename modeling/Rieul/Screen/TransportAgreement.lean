import Rieul.Screen.Transport
import Rieul.Web.Codec

/-!
# Both sides accept the same objects of a group

The validator accepts a bounded run of consecutive objects and then nothing.
-/

namespace Rieul.Screen.Transport
open Bytes Fallible Rieul.Cbor Rieul.Web

def accepted : List (Except Error DesktopMediaObject) → List DesktopMediaObject
  | .ok o :: results => o :: accepted results
  | _ => []

theorem feed_failed (g : Group) (hg : g.failed = true) (bodies : List Str) :
    g.feed bodies = bodies.map fun _ => .error .Discontinuity := by
  induction bodies with
  | nil => rfl
  | cons body bodies ih =>
    have haccept : g.accept body = (g, .error .Discontinuity) := by
      simp only [Group.accept, hg, if_true]
    rw [Group.feed, haccept, ih, List.map_cons]

structure Accepts (g : Group) (body : Str) (o : DesktopMediaObject) (g' : Group) : Prop where
  decoded : DesktopMediaObject.decode body = .ok o
  continues : g.Continues o
  size : body.length ≤ maxObject
  bytes : g.bytes + body.length ≤ maxGroupBytes
  count : g.nextObject < maxGroupObjects
  after : g' = { g with
    nextObject := g.nextObject + 1
    bytes := g.bytes + body.length
    timestamp := some o.timestampMicros }

theorem continues_bytes (g : Group) (n : ℕ) (o : DesktopMediaObject) :
    Group.Continues { g with bytes := n } o ↔ g.Continues o := Iff.rfl

theorem accept_cases (g : Group) (hg : g.failed = false) (body : Str) :
    (∃ o g', g.accept body = (g', .ok o) ∧ Accepts g body o g') ∨
      (∃ e g', g.accept body = (g', .error e) ∧ g'.failed = true ∧
        ∀ o g', ¬ Accepts g body o g') := by
  have hmax : maxGroupBytes < 2 ^ 64 := by decide
  unfold Group.accept
  rw [if_neg (by rw [hg]; decide)]
  unfold Group.check
  by_cases hbytes : g.bytes + body.length < 2 ^ 64
  · rw [if_pos hbytes]
    by_cases hlimit : body.length > maxObject ∨ g.bytes + body.length > maxGroupBytes ∨
        g.nextObject ≥ maxGroupObjects
    · refine .inr ⟨.Limit, { g with bytes := g.bytes + body.length, failed := true }, ?_, rfl, ?_⟩
      · simp only [if_pos hlimit]
      · intro o g' h
        have hsize := h.size
        have hsum := h.bytes
        have hcount := h.count
        omega
    · cases hdecode : DesktopMediaObject.decode body with
      | error e =>
        refine .inr ⟨.Malformed, { g with bytes := g.bytes + body.length, failed := true }, ?_, rfl, ?_⟩
        · simp only [if_neg hlimit]
        · intro o g' h
          cases hdecode.symm.trans h.decoded
      | ok o =>
        by_cases hcont : g.Continues o
        · refine .inl ⟨o, _, ?_, hdecode, hcont, by omega, by omega, by omega, rfl⟩
          simp only [if_neg hlimit, continues_bytes, if_pos hcont]
        · refine .inr ⟨.Discontinuity, { g with bytes := g.bytes + body.length, failed := true }, ?_,
            rfl, ?_⟩
          · simp only [if_neg hlimit, continues_bytes, if_neg hcont]
          · intro o' g' h
            cases hdecode.symm.trans h.decoded
            exact hcont h.continues
  · refine .inr ⟨.Limit, { g with failed := true }, ?_, rfl, ?_⟩
    · simp only [if_neg hbytes]
    · intro o g' h
      have hsum := h.bytes
      omega

structure Placed (g : Group) (n : ℕ) (o : DesktopMediaObject) : Prop where
  id : o.objectId.toNat = n
  keyframe : o.keyframe = decide (n = 0)
  attach : o.attachId = g.attach
  track : o.trackId = g.track
  layout : o.layoutEpoch = g.layout
  codec : o.codecEpoch = g.codec
  group : o.groupId = g.group
  data : o.data ≠ []

theorem Group.Continues.placed {g : Group} {o : DesktopMediaObject} (h : g.Continues o) :
    Placed g g.nextObject o ∧ ∀ t ∈ g.timestamp, t ≤ o.timestampMicros := by
  simp only [Group.Continues, not_or, not_not, not_exists, not_and] at h
  obtain ⟨hattach, htrack, hlayout, hcodec, hgroup, hid, hkey, htime, hdata⟩ := h
  refine ⟨⟨hid, ?_, hattach, htrack, hlayout, hcodec, hgroup, hdata⟩, ?_⟩
  · rw [← hkey, ← hid]
    refine decide_eq_decide.mpr ?_
    rw [← UInt64.toNat_inj]
    rfl
  · exact fun t ht => UInt64.not_lt.mp (htime t ht)

/-- What is accepted of a group that has already `g.nextObject` objects. -/
structure Run (g : Group) (bodies : List Str) (objects : List DesktopMediaObject) : Prop where
  placed : ∀ i o, objects[i]? = some o → Placed g (g.nextObject + i) o
  monotone : objects.Pairwise fun o o' => o.timestampMicros ≤ o'.timestampMicros
  later : ∀ o ∈ objects, ∀ t ∈ g.timestamp, t ≤ o.timestampMicros
  bytes : objects ≠ [] →
    g.bytes + ((bodies.take objects.length).map List.length).sum ≤ maxGroupBytes
  count : objects ≠ [] → g.nextObject + objects.length ≤ maxGroupObjects

theorem feed_run (g : Group) (hg : g.failed = false) (bodies : List Str) :
    ∃ errors : List Error, g.feed bodies =
      (accepted (g.feed bodies)).map .ok ++ errors.map .error ∧
      Run g bodies (accepted (g.feed bodies)) := by
  induction bodies generalizing g with
  | nil =>
    refine ⟨[], rfl, ?_, List.Pairwise.nil, ?_, fun h => absurd rfl h, fun h => absurd rfl h⟩
    · intro i o h
      cases h
    · intro o ho
      cases ho
  | cons body bodies ih =>
    rw [Group.feed]
    obtain ⟨o, g', haccept, ha⟩ | ⟨e, g', haccept, hfailed, _⟩ := accept_cases g hg body
    · rw [haccept]
      have hafter := ha.after
      obtain ⟨errors, hsplit, hrun⟩ := ih g' (by rw [hafter]; exact hg)
      dsimp only
      generalize g'.feed bodies = results at *
      subst hafter
      obtain ⟨hplaced, htime⟩ := ha.continues.placed
      refine ⟨errors, ?_, ?_, ?_, ?_, ?_, ?_⟩
      · rw [accepted, List.map_cons, List.cons_append, ← hsplit]
      · intro i x hx
        cases i with
        | zero =>
          cases hx
          exact hplaced
        | succ i =>
          have hp := hrun.placed i x hx
          rw [Nat.add_assoc, Nat.add_comm 1 i] at hp
          exact ⟨hp.id, hp.keyframe, hp.attach, hp.track, hp.layout, hp.codec, hp.group, hp.data⟩
      · exact List.Pairwise.cons (fun x hx => hrun.later x hx _ rfl) hrun.monotone
      · intro x hx t ht
        rcases List.mem_cons.mp hx with rfl | hx
        · exact htime t ht
        · exact UInt64.le_trans (htime t ht) (hrun.later x hx _ rfl)
      · intro _
        have hfirst := ha.bytes
        simp only [accepted, List.length_cons, List.take_succ_cons, List.map_cons, List.sum_cons]
        by_cases hnil : accepted results = []
        · simp only [hnil, List.length_nil, List.take_zero, List.map_nil, List.sum_nil]
          omega
        · have hrest := hrun.bytes hnil
          dsimp only at hrest
          omega
      · intro _
        have hfirst := ha.count
        simp only [accepted, List.length_cons]
        by_cases hnil : accepted results = []
        · simp only [hnil, List.length_nil]
          omega
        · have hrest := hrun.count hnil
          dsimp only at hrest
          omega
    · rw [haccept]
      refine ⟨e :: bodies.map fun _ => .Discontinuity, ?_, ?_, List.Pairwise.nil, ?_,
        fun h => absurd rfl h, fun h => absurd rfl h⟩
      · dsimp only
        rw [feed_failed g' hfailed]
        simp [accepted]
      · intro i o h
        cases h
      · intro o ho
        cases ho

def Source.content (s : Source) : Str := s.chunk ++ s.chunks.flatten

theorem fill_some (chunks : List Str) (written chunk : Str) (n : ℕ)
    (h : n ≤ (chunk ++ chunks.flatten).length) : ∃ s, fill written chunk n chunks =
      some (written ++ (chunk ++ chunks.flatten).take n, s) ∧
      s.content = (chunk ++ chunks.flatten).drop n := by
  induction chunks generalizing written chunk n with
  | nil =>
    rw [List.flatten_nil, List.append_nil] at h ⊢
    exact ⟨⟨chunk.drop n, []⟩, if_pos h, List.append_nil _⟩
  | cons next chunks ih =>
    unfold fill
    by_cases hle : n ≤ chunk.length
    · refine ⟨⟨chunk.drop n, next :: chunks⟩, ?_, ?_⟩
      · rw [if_pos hle, List.take_append_of_le_length hle]
      · rw [Source.content, List.drop_append_of_le_length hle]
    · rw [List.flatten_cons] at h ⊢
      rw [List.length_append] at h
      obtain ⟨s, hs, hcontent⟩ := ih (written ++ chunk) next (n - chunk.length) (by omega)
      have htake : (chunk ++ (next ++ chunks.flatten)).take n =
          chunk ++ (next ++ chunks.flatten).take (n - chunk.length) := by
        have hall : chunk.take n = chunk := List.take_of_length_le (by omega)
        rw [List.take_append, hall]
      have hdrop : (chunk ++ (next ++ chunks.flatten)).drop n =
          (next ++ chunks.flatten).drop (n - chunk.length) := by
        have hnil : chunk.drop n = [] := List.drop_eq_nil_of_le (by omega)
        rw [List.drop_append, hnil, List.nil_append]
      refine ⟨s, ?_, ?_⟩
      · rw [if_neg hle, hs, htake, List.append_assoc]
      · rw [hcontent, hdrop]

theorem fill_none (chunks : List Str) (written chunk : Str) (n : ℕ)
    (h : (chunk ++ chunks.flatten).length < n) : fill written chunk n chunks = none := by
  induction chunks generalizing written chunk n with
  | nil =>
    rw [List.flatten_nil, List.append_nil] at h
    exact if_neg (by omega)
  | cons next chunks ih =>
    unfold fill
    rw [List.flatten_cons, List.length_append] at h
    rw [if_neg (by omega)]
    exact ih _ _ _ (by omega)

theorem read_some (s : Source) (n : ℕ) (allowEof : Bool) (h : n ≤ s.content.length) :
    ∃ t, s.read n allowEof = .ok (some (s.content.take n, t)) ∧ t.content = s.content.drop n := by
  obtain ⟨t, ht, hcontent⟩ := fill_some s.chunks [] s.chunk n h
  refine ⟨t, ?_, hcontent⟩
  rw [Source.read, ht]
  rfl

theorem read_ended (s : Source) (n : ℕ) (hn : 0 < n) (h : s.content = []) :
    s.read n true = .ok none := by
  rw [Source.content, List.append_eq_nil_iff, List.flatten_eq_nil_iff] at h
  have hnone := fill_none s.chunks [] s.chunk n (by
    rw [h.1, List.flatten_eq_nil_iff.mpr h.2]
    exact hn)
  rw [Source.read, hnone]
  exact if_pos ⟨rfl, h⟩

def DesktopMediaObject.view (o : DesktopMediaObject) : MediaObject :=
  ⟨o.attachId, o.trackId.toNat, o.layoutEpoch.toNat, o.codecEpoch.toNat, o.groupId.toNat,
    o.objectId.toNat, o.timestampMicros.toNat, o.keyframe, o.data⟩

/-- No field of type `u53` is negative. -/
structure MediaObject.Natural (p : MediaObject) : Prop where
  trackId : 0 ≤ p.trackId
  layoutEpoch : 0 ≤ p.layoutEpoch
  codecEpoch : 0 ≤ p.codecEpoch
  groupId : 0 ≤ p.groupId
  objectId : 0 ≤ p.objectId
  timestampMicros : 0 ≤ p.timestampMicros

def Profiled (body : Str) : Prop :=
  (∃ v : Value, Shared v ∧ v.depth ≤ 64 ∧ NoMark v ∧ body = v.encode) ∨
    (∃ e, Cbor.decode body = .error e) ∧ ∃ e, decodeCbor body = .error e

theorem webEntries_lookup (es : Entries) (id : UInt64) :
    (webEntries es).lookup (id.toNat : ℤ) = (es.lookup id).map web := by
  induction es with
  | nil => rfl
  | cons e es ih =>
    obtain ⟨k, v⟩ := e
    rw [webEntries, List.lookup_cons, List.lookup_cons]
    by_cases hk : id = k
    · subst hk
      simp
    · have hk' : ((id.toNat : ℤ) == (k.toNat : ℤ)) = false := by
        rw [beq_eq_false_iff_ne, ne_eq, Int.natCast_inj, UInt64.toNat_inj]
        exact hk
      rw [hk', beq_eq_false_iff_ne.mpr hk]
      exact ih

theorem field_text (value : Option Value) (t : String) :
    mediaField (value.map web) Codegen.TypeScript.textValue "" = .ok t ↔
      fieldOrDefault value Codegen.Rust.expectText "" = .ok t := by
  cases value with
  | none => exact ⟨fun h => by cases h; rfl, fun h => by cases h; rfl⟩
  | some v =>
    cases v <;> simp [mediaField, fieldOrDefault, web, Codegen.TypeScript.textValue,
      Codegen.Rust.expectText, emitted]

theorem field_bool (value : Option Value) (b : Bool) :
    mediaField (value.map web) Codegen.TypeScript.boolValue false = .ok b ↔
      fieldOrDefault value Codegen.Rust.expectBool false = .ok b := by
  cases value with
  | none => exact ⟨fun h => by cases h; rfl, fun h => by cases h; rfl⟩
  | some v =>
    cases v <;> simp [mediaField, fieldOrDefault, web, Codegen.TypeScript.boolValue,
      Codegen.Rust.expectBool, emitted]

theorem field_bytes (value : Option Value) (b : Str) :
    mediaField (value.map web) Codegen.TypeScript.bytesValue [] = .ok b ↔
      fieldOrDefault value Codegen.Rust.expectBytes [] = .ok b := by
  cases value with
  | none => exact ⟨fun h => by cases h; rfl, fun h => by cases h; rfl⟩
  | some v =>
    cases v <;> simp [mediaField, fieldOrDefault, web, Codegen.TypeScript.bytesValue,
      Codegen.Rust.expectBytes, emitted]

theorem integer_natural (n : UInt64) (h : n.toNat ≤ Web.maxSafe) :
    Codegen.TypeScript.integer (.number n.toNat) = .ok (n.toNat : ℤ) := by
  have hsafe : IsSafeInteger (n.toNat : ℤ) := by
    have hmax : Web.maxSafe = 9007199254740991 := rfl
    unfold IsSafeInteger maxSafeInteger
    omega
  simp only [Codegen.TypeScript.integer, ensure_of _ _ hsafe, ok_bind]

theorem field_number (value : Option Value) (hv : ∀ v ∈ value, Shared v) (m : ℤ) :
    mediaField (value.map web) Codegen.TypeScript.integer 0 = .ok m ∧ 0 ≤ m ↔
      ∃ n, fieldOrDefault value Codegen.Rust.expectU64 0 = .ok n ∧ m = n.toNat := by
  cases value with
  | none =>
    constructor
    · intro h
      obtain ⟨h, _⟩ := h
      cases h
      exact ⟨0, rfl, rfl⟩
    · intro h
      obtain ⟨n, h, rfl⟩ := h
      cases h
      exact ⟨rfl, le_rfl⟩
  | some v =>
    have hshared := hv v rfl
    cases v with
    | u64 n =>
      simp only [Option.map_some, mediaField, web, integer_natural n hshared, emitted,
        fieldOrDefault, Codegen.Rust.expectU64, Except.ok.injEq, exists_eq_left']
      constructor
      · exact fun h => h.1.symm
      · intro h
        exact ⟨h.symm, by omega⟩
    | i64 n =>
      have hneg : n.toInt < 0 := hshared.2
      simp only [Option.map_some, mediaField, web, fieldOrDefault, Codegen.Rust.expectU64,
        if_neg (not_le.mpr hneg), Codegen.TypeScript.integer]
      constructor
      · intro h
        obtain ⟨h, hm⟩ := h
        by_cases hsafe : IsSafeInteger n.toInt
        · rw [ensure_of _ _ hsafe, ok_bind, emitted, Except.ok.injEq] at h
          omega
        · rw [ensure, if_neg hsafe] at h
          cases h
      · intro h
        obtain ⟨_, h, _⟩ := h
        cases h
    | _ =>
      constructor
      · intro h
        cases h.1
      · intro h
        obtain ⟨_, h, _⟩ := h
        cases h

theorem decodeValue_view (v : Value) (hv : Shared v) (p : MediaObject) :
    decodeDesktopMediaObjectValue (web v) = .ok p ∧ p.Natural ↔
      ∃ o, DesktopMediaObject.decodeValue v = .ok o ∧ p = o.view := by
  cases v with
  | map es =>
    have hall : ∀ id, ∀ v ∈ es.lookup id, Shared v := by
      intro id v hlookup
      obtain ⟨before, after, rfl, _⟩ := List.lookup_eq_some_iff.mp hlookup
      exact ((sharedEntries_iff _).mp hv.2.2 (id, v) (by simp)).2
    have h1 := webEntries_lookup es 1
    have h2 := webEntries_lookup es 2
    have h3 := webEntries_lookup es 3
    have h4 := webEntries_lookup es 4
    have h5 := webEntries_lookup es 5
    have h6 := webEntries_lookup es 6
    have h7 := webEntries_lookup es 7
    have h8 := webEntries_lookup es 8
    have h9 := webEntries_lookup es 9
    simp only [UInt64.reduceToNat, Nat.cast_ofNat, Nat.cast_one] at h1 h2 h3 h4 h5 h6 h7 h8 h9
    simp only [web, decodeDesktopMediaObjectValue, DesktopMediaObject.decodeValue, expectMap, ok_bind,
      bind_eq_ok, pure_eq_ok, h1, h2, h3, h4, h5, h6, h7, h8, h9, field_text, field_bool, field_bytes]
    constructor
    · intro h
      obtain ⟨⟨attachId, ha, t, ht, l, hl, c, hc, g, hg, i, hi, m, hm, k, hk, d, hd, rfl⟩, hn⟩ := h
      obtain ⟨t', ht', rfl⟩ := (field_number _ (hall 2) t).mp ⟨ht, hn.trackId⟩
      obtain ⟨l', hl', rfl⟩ := (field_number _ (hall 3) l).mp ⟨hl, hn.layoutEpoch⟩
      obtain ⟨c', hc', rfl⟩ := (field_number _ (hall 4) c).mp ⟨hc, hn.codecEpoch⟩
      obtain ⟨g', hg', rfl⟩ := (field_number _ (hall 5) g).mp ⟨hg, hn.groupId⟩
      obtain ⟨i', hi', rfl⟩ := (field_number _ (hall 6) i).mp ⟨hi, hn.objectId⟩
      obtain ⟨m', hm', rfl⟩ := (field_number _ (hall 7) m).mp ⟨hm, hn.timestampMicros⟩
      exact ⟨_, ⟨attachId, ha, t', ht', l', hl', c', hc', g', hg', i', hi', m', hm', k, hk, d, hd, rfl⟩,
        rfl⟩
    · intro h
      obtain ⟨o, ⟨attachId, ha, t, ht, l, hl, c, hc, g, hg, i, hi, m, hm, k, hk, d, hd, rfl⟩, rfl⟩ := h
      obtain ⟨ht, ht'⟩ := (field_number _ (hall 2) t.toNat).mpr ⟨t, ht, rfl⟩
      obtain ⟨hl, hl'⟩ := (field_number _ (hall 3) l.toNat).mpr ⟨l, hl, rfl⟩
      obtain ⟨hc, hc'⟩ := (field_number _ (hall 4) c.toNat).mpr ⟨c, hc, rfl⟩
      obtain ⟨hg, hg'⟩ := (field_number _ (hall 5) g.toNat).mpr ⟨g, hg, rfl⟩
      obtain ⟨hi, hi'⟩ := (field_number _ (hall 6) i.toNat).mpr ⟨i, hi, rfl⟩
      obtain ⟨hm, hm'⟩ := (field_number _ (hall 7) m.toNat).mpr ⟨m, hm, rfl⟩
      exact ⟨⟨attachId, ha, _, ht, _, hl, _, hc, _, hg, _, hi, _, hm, k, hk, d, hd, rfl⟩,
        ht', hl', hc', hg', hi', hm'⟩
  | _ =>
    constructor
    · intro h
      cases h.1
    · intro h
      obtain ⟨_, h, _⟩ := h
      cases h

theorem readObject_view (body : Str) (hb : Profiled body) (p : MediaObject) :
    readObject body = .ok p ∧ p.Natural ↔
      ∃ o, DesktopMediaObject.decode body = .ok o ∧ p = o.view := by
  rcases hb with ⟨v, hshared, hdepth, hmark, rfl⟩ | ⟨⟨e, hdecode⟩, ⟨e', hread⟩⟩
  · obtain ⟨hsized, hdistinct⟩ := shared_sized v hshared
    have hdecode := codec_canonical.1 v hdepth hsized hdistinct
    rw [shared_normal v hshared] at hdecode
    have hread := decodeCbor_encode v hdepth hshared
    rw [(stripped_eq_iff v).mpr hmark] at hread
    simp only [readObject, hread, DesktopMediaObject.decode, hdecode]
    exact decodeValue_view v hshared p
  · simp only [readObject, hread, DesktopMediaObject.decode, hdecode]
    constructor
    · intro h
      cases h.1
    · intro h
      obtain ⟨_, h, _⟩ := h
      cases h

def Group.epoch (g : Group) : DesktopTrackEpoch :=
  ⟨g.attach, g.track.toNat, g.layout.toNat, g.codec.toNat⟩

structure Related (g : Group) (r : Reading) : Prop where
  count : r.count = g.nextObject
  total : r.total = g.bytes
  timestamp : r.timestamp = (g.timestamp.map UInt64.toNat).getD 0

def Expects (expected : MediaObject → Option DesktopTrackEpoch) (g : Group) (r : Reading)
    (o : MediaObject) : Prop :=
  r.resolved.or (expected o) = some g.epoch ∧ r.group.getD o.groupId = g.group.toNat

section
variable (expected : MediaObject → Option DesktopTrackEpoch) (g : Group) (r : Reading)
  (hr : Related g r)
include expected g r hr

theorem continues_iff (o : DesktopMediaObject) (he : Expects expected g r o.view) :
    g.Continues o ↔ ¬ r.Discontinuous g.epoch o.view := by
  have hgroup : (∃ x ∈ r.group, o.view.groupId ≠ x) ↔ o.groupId ≠ g.group := by
    have hknown := he.2
    rw [ne_eq, ← UInt64.toNat_inj]
    cases hg : r.group with
    | none =>
      rw [hg, Option.getD_none] at hknown
      simp only [DesktopMediaObject.view] at hknown
      constructor
      · intro h
        obtain ⟨x, hx, _⟩ := h
        cases hx
      · intro h
        omega
    | some x =>
      rw [hg, Option.getD_some] at hknown
      subst hknown
      simp only [DesktopMediaObject.view, Option.mem_def, Option.some.injEq, exists_eq_left', ne_eq,
        Int.natCast_inj]
  have htime : (o.view.timestampMicros < r.timestamp) ↔ ∃ t ∈ g.timestamp, o.timestampMicros < t := by
    rw [hr.timestamp]
    cases g.timestamp with
    | none => simp [DesktopMediaObject.view]
    | some t => simp [DesktopMediaObject.view, UInt64.lt_iff_toNat_lt]
  have hkey : (decide (o.objectId = 0) ≠ o.keyframe) ↔ o.keyframe ≠ decide (o.objectId.toNat = 0) := by
    have hzero : decide (o.objectId = 0) = decide (o.objectId.toNat = 0) := by
      refine decide_eq_decide.mpr ?_
      rw [← UInt64.toNat_inj]
      rfl
    rw [hzero]
    exact ne_comm
  unfold Group.Continues Reading.Discontinuous
  rw [hgroup, htime, hkey, hr.count]
  simp only [DesktopMediaObject.view, Group.epoch, ne_eq, Int.natCast_inj, UInt64.toNat_inj]
  simp only [not_or, not_not]
  constructor
  · intro h
    obtain ⟨ha, ht, hl, hc, hg, hid, hk, hm, hd⟩ := h
    rw [hid] at hk
    exact ⟨ha, ht, hl, hc, hid, hk, hg, hm, hd⟩
  · intro h
    obtain ⟨ha, ht, hl, hc, hid, hk, hg, hm, hd⟩ := h
    rw [← hid] at hk
    exact ⟨ha, ht, hl, hc, hg, hid, hk, hm, hd⟩

theorem natural_of_continuous (p : MediaObject) (he : Expects expected g r p)
    (h : ¬ r.Discontinuous g.epoch p) : p.Natural := by
  simp only [Reading.Discontinuous, not_or, not_not, not_lt, not_exists, not_and] at h
  obtain ⟨_, htrack, hlayout, hcodec, hid, _, hgroup, htime, _⟩ := h
  have hknown := he.2
  have htimes := hr.timestamp
  refine ⟨?_, ?_, ?_, ?_, ?_, ?_⟩
  · rw [htrack]
    exact Int.natCast_nonneg _
  · rw [hlayout]
    exact Int.natCast_nonneg _
  · rw [hcodec]
    exact Int.natCast_nonneg _
  · cases hg : r.group with
    | none =>
      rw [hg, Option.getD_none] at hknown
      omega
    | some x =>
      rw [hg, Option.getD_some] at hknown
      have hx := hgroup x hg
      omega
  · omega
  · omega

theorem next_agrees (body rest : Str) (hcontent : r.source.content = frame body ++ rest)
    (hlength : body.length < 2 ^ 32) (hbody : Profiled body)
    (he : ∀ p, readObject body = .ok p → Expects expected g r p) :
    (∀ o g', Accepts g body o g' → ∃ r', r.next expected = .ok (some (o.view, r')) ∧ Related g' r' ∧
      r'.source.content = rest ∧ r'.resolved = some g.epoch ∧ r'.group = some (g.group.toNat : ℤ)) ∧
    ((∀ o g', ¬ Accepts g body o g') → ∀ p r', r.next expected ≠ .ok (some (p, r'))) := by
  have hlen : beNat (beBytes 4 body.length) = body.length := beNat_beBytes 4 _ hlength
  obtain ⟨s1, hread1, hs1⟩ := read_some r.source 4 true (by
    rw [hcontent, frame]
    simp only [List.length_append, beBytes_length]
    omega)
  have hfour : (beBytes 4 body.length).length = 4 := beBytes_length 4 _
  rw [hcontent, frame, List.append_assoc, List.take_left' hfour] at hread1
  rw [hcontent, frame, List.append_assoc, List.drop_left' hfour] at hs1
  obtain ⟨s2, hread2, hs2⟩ := read_some s1 body.length false (by
    rw [hs1, List.length_append]
    omega)
  rw [hs1, List.take_left] at hread2
  rw [hs1, List.drop_left] at hs2
  have hnext : r.next expected = (do
      ensure (¬ (body.length = 0 ∨ body.length > maxObject ∨ r.total + body.length > maxGroupBytes ∨
        r.count ≥ 240)) (.error "Screen media limit exceeded")
      let object ← readObject body
      let resolved ← require (.error "Unknown screen media track") (r.resolved.or (expected object))
      ensure (¬ r.Discontinuous resolved object) (.error "Screen group discontinuity")
      pure (some (object, {
        source := s2
        total := r.total + body.length
        count := r.count + 1
        group := some object.groupId
        timestamp := object.timestampMicros
        resolved := some resolved }))) := by
    simp only [Reading.next, hread1, ok_bind, hlen, hread2, require_some]
  have hlimits := hr.total
  have hcounts := hr.count
  constructor
  · intro o g' ha
    have hsize := ha.size
    have hbytes := ha.bytes
    have hcount := ha.count
    obtain ⟨hview, _⟩ := (readObject_view body hbody o.view).mpr ⟨o, ha.decoded, rfl⟩
    have hexpects := he o.view hview
    have hcont := (continues_iff expected g r hr o hexpects).mp ha.continues
    have hpos : body.length ≠ 0 := by
      intro h0
      obtain rfl := List.length_eq_zero_iff.mp h0
      cases ha.decoded
    have hafter := ha.after
    subst hafter
    refine ⟨⟨s2, r.total + body.length, r.count + 1, some o.view.groupId, o.view.timestampMicros,
      some g.epoch⟩, ?_, ⟨?_, ?_, rfl⟩, hs2, rfl, ?_⟩
    · rw [hnext, ensure_of _ _ (by rw [maxGroupObjects] at hcount; omega), ok_bind, hview, ok_bind,
        hexpects.1, require_some, ok_bind, ensure_of _ _ hcont, ok_bind]
      rfl
    · rw [hcounts]
    · rw [hlimits]
    · exact congrArg (fun n : UInt64 => some (n.toNat : ℤ)) ha.continues.placed.1.group
  · intro hno p r' hp
    rw [hnext] at hp
    simp only [bind_eq_ok, exists_unit_iff, ensure_eq_ok, require_eq_ok, pure_eq_ok] at hp
    obtain ⟨hlimit, object, hobject, resolved, hresolved, hcont, hp⟩ := hp
    have hexpects := he object hobject
    rw [hexpects.1, Option.some.injEq] at hresolved
    subst hresolved
    have hnatural := natural_of_continuous expected g r hr object hexpects hcont
    obtain ⟨o, hdecode, rfl⟩ := (readObject_view body hbody object).mp ⟨hobject, hnatural⟩
    refine hno o _ ⟨hdecode, (continues_iff expected g r hr o hexpects).mpr hcont, ?_, ?_, ?_, rfl⟩
    · omega
    · omega
    · rw [maxGroupObjects]
      omega

end

theorem run_agrees (expected : MediaObject → Option DesktopTrackEpoch) (bodies : List Str)
    (hbodies : ∀ body ∈ bodies, body.length < 2 ^ 32 ∧ Profiled body) (passes : ℕ) (g : Group)
    (r : Reading) (hg : g.failed = false) (hr : Related g r)
    (hcontent : r.source.content = bodies.flatMap frame)
    (he : ∀ body ∈ bodies.head?, ∀ p, readObject body = .ok p → Expects expected g r p)
    (hpasses : maxGroupObjects < g.nextObject + passes) :
    r.run expected passes = (accepted (g.feed bodies)).map DesktopMediaObject.view := by
  induction bodies generalizing passes g r with
  | nil =>
    have hended : r.source.read 4 true = .ok none := read_ended _ _ (by decide) hcontent
    cases passes with
    | zero => rfl
    | succ passes =>
      have hnext : ∀ p r', r.next expected ≠ .ok (some (p, r')) := by
        intro p r' h
        simp only [Reading.next, hended, ok_bind, bind_eq_ok, exists_unit_iff, pure_eq_ok] at h
        cases h.2
      rw [Reading.run]
      split
      · rename_i object r' h
        exact absurd h (hnext object r')
      · rfl
      · rfl
  | cons body bodies ih =>
    obtain ⟨hbody, hrest⟩ := List.forall_mem_cons.mp hbodies
    obtain ⟨htakes, hstops⟩ := next_agrees expected g r hr body (bodies.flatMap frame) hcontent
      hbody.1 hbody.2 (he body rfl)
    rw [Group.feed]
    obtain ⟨o, g', haccept, ha⟩ | ⟨e, g', haccept, _, hno⟩ := accept_cases g hg body
    · have hcount := ha.count
      have hafter := ha.after
      cases passes with
      | zero => omega
      | succ passes =>
        obtain ⟨r', hnext, hr', hsource, hresolved, hgroup⟩ := htakes o g' ha
        rw [haccept, accepted, List.map_cons, Reading.run, hnext]
        dsimp only
        rw [ih hrest passes g' r' (by rw [hafter]; exact hg) hr' hsource ?_ ?_]
        · intro next _ p _
          subst hafter
          exact ⟨by rw [hresolved]; rfl, by rw [hgroup]; rfl⟩
        · subst hafter
          dsimp only
          omega
    · rw [haccept]
      change _ = List.map DesktopMediaObject.view []
      cases passes with
      | zero => rfl
      | succ passes =>
        rw [Reading.run]
        split
        · rename_i object r' h
          exact absurd h (hstops hno object r')
        · rfl
        · rfl

/-- The validator accepts at most 240 objects of at most 16 MiB, numbered from 0, the first alone a
key frame, in one epoch and in the order of time, and nothing after an error. The browser delivers
the same objects, in whatever chunks it is given the bytes. -/
theorem desktop_groups (attach : String) (track layout codec group : UInt64) (bodies : List Str) :
    (∃ errors : List Error, (Group.new attach track layout codec group).feed bodies =
      (accepted ((Group.new attach track layout codec group).feed bodies)).map .ok ++
        errors.map .error ∧
      Run (Group.new attach track layout codec group) bodies
        (accepted ((Group.new attach track layout codec group).feed bodies))) ∧
    ∀ (chunks : List Str) (expected : MediaObject → Option DesktopTrackEpoch)
      (resolved : Option DesktopTrackEpoch), chunks.flatten = bodies.flatMap frame →
      (∀ body ∈ bodies, body.length < 2 ^ 32 ∧ Profiled body) →
      (∀ body ∈ bodies.head?, ∀ p, readObject body = .ok p → p.groupId = group.toNat ∧
        resolved.or (expected p) = some (Group.new attach track layout codec group).epoch) →
      readDesktopGroup chunks expected resolved =
        (accepted ((Group.new attach track layout codec group).feed bodies)).map
          DesktopMediaObject.view := by
  refine ⟨feed_run _ rfl bodies, ?_⟩
  intro chunks expected resolved hchunks hbodies hfirst
  refine run_agrees expected bodies hbodies _ _ _ rfl ⟨rfl, rfl, rfl⟩ hchunks ?_ ?_
  · intro body hb p hp
    obtain ⟨hgroup, hresolved⟩ := hfirst body hb p hp
    exact ⟨hresolved, hgroup⟩
  · exact Nat.lt_add_left 0 (Nat.lt_succ_self _)

def sampleObject (number : UInt64) : Value :=
  .map [(1, .text "a"), (2, .u64 1), (3, .u64 1), (4, .u64 1), (5, .u64 2), (6, .u64 number),
    (7, .u64 100), (8, .bool (number = 0)), (9, .bytes [1, 2, 3])]

theorem sampleObject_profiled (number : UInt64) (h : number.toNat ≤ Web.maxSafe) :
    Profiled (sampleObject number).encode := by
  have hdepth : (1 : ℕ) ≤ 64 := by decide
  refine .inl ⟨sampleObject number, ?_, hdepth, ?_, rfl⟩
  · simp [sampleObject, Shared, SharedEntries, Web.maxSafe]
    exact ⟨by decide, h⟩
  · simp [sampleObject, NoMark, NoMarkEntries]

def sampleBodies : List Str := [0, 1, 2].map fun number => (sampleObject number).encode

def sampleBytes : Str := sampleBodies.flatMap frame

/-- Three objects, with chunks that end in a head and in a body. -/
theorem desktop_groups_sample :
    readDesktopGroup [sampleBytes.take 2, (sampleBytes.drop 2).take 40, sampleBytes.drop 42]
      (fun _ => none) (some ⟨"a", 1, 1, 1⟩) =
      [⟨"a", 1, 1, 1, 2, 0, 100, true, [1, 2, 3]⟩, ⟨"a", 1, 1, 1, 2, 1, 100, false, [1, 2, 3]⟩,
        ⟨"a", 1, 1, 1, 2, 2, 100, false, [1, 2, 3]⟩] := by
  have hrun := (desktop_groups "a" 1 1 1 2 sampleBodies).2
    [sampleBytes.take 2, (sampleBytes.drop 2).take 40, sampleBytes.drop 42]
    (fun _ => none) (some ⟨"a", 1, 1, 1⟩) (by decide +kernel) (by
      intro body hb
      have hshort : ∀ body ∈ sampleBodies, body.length < 2 ^ 32 := by decide +kernel
      obtain ⟨number, hn, rfl⟩ := List.mem_map.mp hb
      have hsafe : ∀ number ∈ ([0, 1, 2] : List UInt64), number.toNat ≤ Web.maxSafe := by
        simp [Web.maxSafe]
      exact ⟨hshort _ hb, sampleObject_profiled number (hsafe number hn)⟩) (by
      intro body hb p hp
      cases hb
      have hread : readObject (sampleObject 0).encode =
          .ok ⟨"a", 1, 1, 1, 2, 0, 100, true, [1, 2, 3]⟩ :=
        eq_ok_of_toOption (by decide +kernel)
      cases hread.symm.trans hp
      exact ⟨rfl, rfl⟩)
  rw [hrun]
  decide +kernel

def loose : Str :=
  [0xa9, 1, 0x61, 0x61, 2, 0x18, 1, 3, 1, 4, 1, 5, 2, 6, 0, 7, 0x18, 0x64, 8, 0xf5, 9, 0x43, 1, 2, 3]

theorem loose_object_delivered :
    accepted ((Group.new "a" 1 1 1 2).feed [loose]) = [] ∧
      readDesktopGroup [frame loose] (fun _ => none) (some (Group.new "a" 1 1 1 2).epoch) =
        [⟨"a", 1, 1, 1, 2, 0, 100, true, [1, 2, 3]⟩] := by
  decide +kernel

end Rieul.Screen.Transport
