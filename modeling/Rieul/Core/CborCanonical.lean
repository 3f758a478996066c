import Rieul.Core.CborDecode
import Mathlib.Tactic.IntervalCases

/-!
# Canonical encodings

The decoder undoes the encoder, and what it accepts are the encodings of values: the shortest
forms, with definite lengths and distinct keys.
-/

namespace Rieul.Cbor
open Bytes Reader

mutual
/-- Lengths fit a `usize`. -/
def Value.Sized : Value → Prop
  | .bytes b => b.length < 2 ^ 64
  | .text t => (textBytes t).length < 2 ^ 64
  | .array items => items.length < 2 ^ 64 ∧ SizedItems items
  | .map entries => entries.length < 2 ^ 64 ∧ SizedEntries entries
  | _ => True

def SizedItems : List Value → Prop
  | [] => True
  | v :: vs => v.Sized ∧ SizedItems vs

def SizedEntries : Entries → Prop
  | [] => True
  | (_, v) :: es => v.Sized ∧ SizedEntries es
end

mutual
/-- The keys of every map satisfy `P`. -/
def Value.Keyed (P : List UInt64 → Prop) : Value → Prop
  | .array items => KeyedItems P items
  | .map entries => P (entries.map Prod.fst) ∧ KeyedEntries P entries
  | _ => True

def KeyedItems (P : List UInt64 → Prop) : List Value → Prop
  | [] => True
  | v :: vs => v.Keyed P ∧ KeyedItems P vs

def KeyedEntries (P : List UInt64 → Prop) : Entries → Prop
  | [] => True
  | (_, v) :: es => v.Keyed P ∧ KeyedEntries P es
end

def Value.Distinct : Value → Prop := Value.Keyed List.Nodup

def Value.Ascending : Value → Prop := Value.Keyed (List.Pairwise (· < ·))

mutual
/-- The value with non-negative integers unsigned and the entries of every map kept by `place`. -/
def Value.placed (place : UInt64 → Value → Entries → Entries) : Value → Value
  | .i64 n => if 0 ≤ n.toInt then .u64 (UInt64.ofNat n.toInt.toNat) else .i64 n
  | .array items => .array (placedItems place items)
  | .map entries => .map (placedEntries place entries [])
  | v => v

def placedItems (place : UInt64 → Value → Entries → Entries) : List Value → List Value
  | [] => []
  | v :: vs => v.placed place :: placedItems place vs

def placedEntries (place : UInt64 → Value → Entries → Entries) : Entries → Entries → Entries
  | [], map => map
  | (k, v) :: es, map => placedEntries place es (place k (v.placed place) map)
end

def Value.normal : Value → Value := Value.placed insertEntry

def listing (bytes : Str) : Except CborError Value :=
  complete (decodeValueAt (fun key value map => map ++ [(key, value)]) 65) bytes

variable (vs : List Value)

theorem sizedItems_iff : SizedItems vs ↔ ∀ v ∈ vs, v.Sized := by
  induction vs with
  | nil => exact ⟨fun _ v hv => absurd hv List.not_mem_nil, fun _ => True.intro⟩
  | cons v vs ih => rw [SizedItems, ih, List.forall_mem_cons]

variable (es : Entries)

theorem sizedEntries_iff : SizedEntries es ↔ ∀ e ∈ es, e.2.Sized := by
  induction es with
  | nil => exact ⟨fun _ e he => absurd he List.not_mem_nil, fun _ => True.intro⟩
  | cons e es ih => rw [SizedEntries, ih, List.forall_mem_cons]

theorem keyedItems_iff (P : List UInt64 → Prop) (vs : List Value) :
    KeyedItems P vs ↔ ∀ v ∈ vs, v.Keyed P := by
  induction vs with
  | nil => exact ⟨fun _ v hv => absurd hv List.not_mem_nil, fun _ => True.intro⟩
  | cons v vs ih => rw [KeyedItems, ih, List.forall_mem_cons]

theorem keyedEntries_iff (P : List UInt64 → Prop) (es : Entries) :
    KeyedEntries P es ↔ ∀ e ∈ es, e.2.Keyed P := by
  induction es with
  | nil => exact ⟨fun _ e he => absurd he List.not_mem_nil, fun _ => True.intro⟩
  | cons e es ih => rw [KeyedEntries, ih, List.forall_mem_cons]

theorem depthItems_lt_iff (n : ℕ) :
    depthItems vs < n + 1 ↔ ∀ v ∈ vs, v.depth < n := by
  induction vs with
  | nil => exact ⟨fun _ v hv => absurd hv List.not_mem_nil, fun _ => Nat.succ_pos n⟩
  | cons v vs ih =>
    rw [depthItems, List.forall_mem_cons, ← ih]
    omega

theorem depthEntries_lt_iff (n : ℕ) :
    depthEntries es < n + 1 ↔ ∀ e ∈ es, e.2.depth < n := by
  induction es with
  | nil => exact ⟨fun _ e he => absurd he List.not_mem_nil, fun _ => Nat.succ_pos n⟩
  | cons e es ih =>
    rw [depthEntries, List.forall_mem_cons, ← ih]
    omega

theorem encode_pos (v : Value) : 0 < v.encode.length := by
  cases v with
  | null => exact Nat.one_pos
  | bool b =>
    cases b with
    | false | true => exact Nat.one_pos
  | u64 n => exact (u64_length n).1
  | i64 n => exact (i64_length n).1
  | f64 bits => exact Nat.succ_pos _
  | bytes b => exact (Nat.succ_pos _).trans_le (bytes_length b).1
  | text t => exact (Nat.succ_pos _).trans_le (text_length t).1
  | array items => exact (Nat.succ_pos _).trans_le (array_length items).1
  | map entries => exact (Nat.succ_pos _).trans_le (map_length entries).1

theorem length_le_encodeItems : vs.length ≤ (encodeItems vs).length := by
  induction vs with
  | nil => exact le_rfl
  | cons v vs ih =>
    have hv := encode_pos v
    rw [items_cons_length, List.length_cons]
    omega

theorem length_le_encodeEntries : es.length ≤ (encodeEntries es).length := by
  induction es with
  | nil => exact le_rfl
  | cons e es ih =>
    have he := encode_pos e.2
    rw [encodeEntries, List.length_append, List.length_append, List.length_cons]
    omega

theorem readBe_run (k : ℕ) (b r : Str) (hb : b.length = k) : readBe k (b ++ r) = .ok (beNat b, r) := by
  subst hb
  unfold readBe
  rw [bind_run _ _ _ _ _ (take_run r _ b)]
  rfl

theorem readBe_eq_ok (k n : ℕ) (s r : Str) :
    readBe k s = .ok (n, r) ↔ ∃ b, b.length = k ∧ beNat b = n ∧ s = b ++ r := by
  constructor
  · intro h
    obtain ⟨b, u, htake, hpure⟩ := (bind_eq_ok _ _ _ _ _).mp h
    obtain ⟨hlen, rfl⟩ := (take_eq_ok _ _ _ _ _).mp htake
    obtain ⟨rfl, rfl⟩ := (pure_eq_ok _ _ _).mp hpure
    exact ⟨b, hlen, rfl, rfl⟩
  · rintro ⟨b, hlen, rfl, rfl⟩
    exact readBe_run k b r hlen

theorem decodeWide_run (width shorter n : ℕ) (r : Str) (hshort : shorter < n)
    (hlt : n < 256 ^ width) :
    decodeWide width shorter (beBytes width n ++ r) = .ok (UInt64.ofNat n, r) := by
  unfold decodeWide
  rw [bind_run _ _ _ _ _ (readBe_run width _ r (beBytes_length width n)), beNat_beBytes width n hlt,
    bind_run _ _ _ _ _ (ensure_run _ _ _ (by omega))]
  rfl

theorem decodeWide_eq_ok (width shorter : ℕ) (s r : Str) (n : UInt64) (hwidth : width ≤ 8)
    (h : decodeWide width shorter s = .ok (n, r)) :
    shorter < n.toNat ∧ n.toNat < 256 ^ width ∧ s = beBytes width n.toNat ++ r := by
  obtain ⟨value, u, hread, hrest⟩ := (bind_eq_ok _ _ _ _ _).mp h
  obtain ⟨_, u', hensure, hpure⟩ := (bind_eq_ok _ _ _ _ _).mp hrest
  obtain ⟨b, hlen, rfl, rfl⟩ := (readBe_eq_ok _ _ _ _).mp hread
  obtain ⟨hshort, rfl⟩ := (ensure_eq_ok _ _ _ _ _).mp hensure
  obtain ⟨rfl, rfl⟩ := (pure_eq_ok _ _ _).mp hpure
  have hlt := beNat_lt b
  have hpow : 256 ^ b.length ≤ 256 ^ 8 := Nat.pow_le_pow_right (by omega) (hlen ▸ hwidth)
  have hn : (UInt64.ofNat (beNat b)).toNat = beNat b := by
    rw [UInt64.toNat_ofNat', Nat.mod_eq_of_lt (by omega)]
  rw [hn, ← hlen, beBytes_beNat]
  exact ⟨by omega, hlt, rfl⟩

theorem decodeArgument_run (n : ℕ) (r : Str) (hlt : n < 2 ^ 64) :
    decodeArgument (additional n) (beBytes (argumentWidth n) n ++ r) = .ok (UInt64.ofNat n, r) := by
  unfold additional argumentWidth
  split_ifs with h1 h2 h3 h4
  · unfold decodeArgument
    rw [if_pos (by omega)]
    rfl
  · exact decodeWide_run 1 23 n r (by omega) (by omega)
  · exact decodeWide_run 2 0xff n r (by omega) (by omega)
  · exact decodeWide_run 4 0xffff n r (by omega) (by omega)
  · exact decodeWide_run 8 0xffffffff n r (by omega) (by omega)

theorem decodeArgument_eq_ok (a : ℕ) (s r : Str) (n : UInt64)
    (h : decodeArgument a s = .ok (n, r)) :
    a = additional n.toNat ∧ s = beBytes (argumentWidth n.toNat) n.toNat ++ r := by
  unfold decodeArgument at h
  split at h
  · obtain ⟨rfl, rfl⟩ := (pure_eq_ok _ _ _).mp h
    have hn : (UInt64.ofNat a).toNat = a := by
      rw [UInt64.toNat_ofNat', Nat.mod_eq_of_lt (by omega)]
    rw [hn, additional, argumentWidth, if_pos (by omega), if_pos (by omega)]
    exact ⟨rfl, rfl⟩
  · unfold additional argumentWidth
    split at h
    · obtain ⟨h1, h2, rfl⟩ := decodeWide_eq_ok 1 23 s r n (by omega) h
      rw [if_neg (by omega), if_pos (by omega), if_neg (by omega), if_pos (by omega)]
      exact ⟨rfl, rfl⟩
    · obtain ⟨h1, h2, rfl⟩ := decodeWide_eq_ok 2 0xff s r n (by omega) h
      rw [if_neg (by omega), if_neg (by omega), if_pos (by omega), if_neg (by omega),
        if_neg (by omega), if_pos (by omega)]
      exact ⟨rfl, rfl⟩
    · obtain ⟨h1, h2, rfl⟩ := decodeWide_eq_ok 4 0xffff s r n (by omega) h
      rw [if_neg (by omega), if_neg (by omega), if_neg (by omega), if_pos (by omega),
        if_neg (by omega), if_neg (by omega), if_neg (by omega), if_pos (by omega)]
      exact ⟨rfl, rfl⟩
    · obtain ⟨h1, h2, rfl⟩ := decodeWide_eq_ok 8 0xffffffff s r n (by omega) h
      rw [if_neg (by omega), if_neg (by omega), if_neg (by omega), if_neg (by omega),
        if_neg (by omega), if_neg (by omega), if_neg (by omega), if_neg (by omega)]
      exact ⟨rfl, rfl⟩
    · cases h

theorem decodeLength_run (n : ℕ) (r : Str) (hlt : n < 2 ^ 64) (hr : n ≤ r.length) :
    decodeLength (additional n) (beBytes (argumentWidth n) n ++ r) = .ok (n, r) := by
  have hn : (UInt64.ofNat n).toNat = n := by
    rw [UInt64.toNat_ofNat', Nat.mod_eq_of_lt hlt]
  unfold decodeLength
  rw [bind_run _ _ _ _ _ (decodeArgument_run n r hlt), hn,
    bind_run _ _ _ _ _ (need_run r _ n hr)]
  rfl

section
variable (place : UInt64 → Value → Entries → Entries) (levels : ℕ)

theorem decodeValueAt_run (major n : ℕ) (r : Str) (hmajor : major < 8) :
    decodeValueAt place (levels + 1) (encodeArgument major n ++ r) =
      decodeMajor place (decodeValueAt place levels) major (additional n)
        (beBytes (argumentWidth n) n ++ r) := by
  have hadd := additional_lt n
  have hbyte : beNat [UInt8.ofNat (32 * major + additional n)] = 32 * major + additional n := by
    show 256 * 0 + (UInt8.ofNat (32 * major + additional n)).toNat = _
    rw [UInt8.toNat_ofNat', Nat.mod_eq_of_lt (by omega)]
    omega
  rw [encodeArgument_eq, List.cons_append, ← List.singleton_append, decodeValueAt,
    bind_run _ _ _ _ _ (readBe_run 1 [_] _ rfl), hbyte]
  have hdiv : (32 * major + additional n) / 32 = major := by omega
  have hmod : (32 * major + additional n) % 32 = additional n := by omega
  rw [hdiv, hmod]

theorem decodeValueAt_lengthRun (major n : ℕ) (r : Str) (hmajor : major < 8) (hlt : n < 2 ^ 64) :
    decodeValueAt place (levels + 1) (encodeLength major n ++ r) =
      decodeMajor place (decodeValueAt place levels) major (additional n)
        (beBytes (argumentWidth n) n ++ r) := by
  have hn : (UInt64.ofNat n).toNat = n := by
    rw [UInt64.toNat_ofNat', Nat.mod_eq_of_lt hlt]
  rw [encodeLength, encodeTypeValue, hn]
  exact decodeValueAt_run place levels major n r hmajor

theorem decode_unsigned (n : UInt64) (r : Str) :
    decodeValueAt place (levels + 1) (encodeTypeValue 0 n ++ r) = .ok (.u64 n, r) := by
  rw [encodeTypeValue, decodeValueAt_run place levels 0 n.toNat r (by omega)]
  rw [decodeMajor, bind_run _ _ _ _ _ (decodeArgument_run n.toNat r n.toNat_lt), UInt64.ofNat_toNat]
  rfl

theorem decode_negative (n : Int64) (r : Str) (hn : n.toInt < 0) :
    decodeValueAt place (levels + 1)
      (encodeTypeValue 1 (UInt64.ofNat (-1 - n.toInt).toNat) ++ r) = .ok (.i64 n, r) := by
  have hle := n.le_toInt
  have hlt : (-1 - n.toInt).toNat < 2 ^ 63 := by omega
  have hnat : (UInt64.ofNat (-1 - n.toInt).toNat).toNat = (-1 - n.toInt).toNat := by
    rw [UInt64.toNat_ofNat', Nat.mod_eq_of_lt (by omega)]
  have hint : (-1 - ((-1 - n.toInt).toNat : ℤ)) = n.toInt := by omega
  rw [encodeTypeValue, hnat, decodeValueAt_run place levels 1 _ r (by omega)]
  rw [decodeMajor, bind_run _ _ _ _ _ (decodeArgument_run _ r (by omega)), hnat,
    bind_run _ _ _ _ _ (ensure_run _ _ _ hlt), hint, Int64.ofInt_toInt]
  rfl

theorem times_run (decode : Decoder Value) (vs : List Value) (r : Str)
    (h : ∀ v ∈ vs, ∀ r, decode (v.encode ++ r) = .ok (v.placed place, r)) :
    times decode vs.length (encodeItems vs ++ r) = .ok (placedItems place vs, r) := by
  induction vs with
  | nil => rfl
  | cons v vs ih =>
    rw [List.forall_mem_cons] at h
    rw [List.length_cons, times, encodeItems, List.append_assoc, bind_run _ _ _ _ _ (h.1 _),
      bind_run _ _ _ _ _ (ih h.2)]
    rfl

def Keeps (place : UInt64 → Value → Entries → Entries) : Prop :=
  ∀ k v map, (place k v map).Perm ((k, v) :: map)

theorem keeps_insertEntry : Keeps insertEntry := by
  intro k v map
  induction map with
  | nil => exact List.Perm.refl _
  | cons e es ih =>
    unfold insertEntry
    split
    · exact List.Perm.refl _
    · exact (ih.cons e).trans (List.Perm.swap (k, v) e es)

theorem keeps_append : Keeps fun key value map => map ++ [(key, value)] := by
  intro k v map
  exact List.perm_append_singleton (k, v) map

variable {place}

theorem Keeps.keys (hplace : Keeps place) (k : UInt64) (v : Value) (map : Entries) :
    ((place k v map).map Prod.fst).Perm (k :: map.map Prod.fst) :=
  (hplace k v map).map Prod.fst

theorem decodeEntries_run (hplace : Keeps place) (decode : Decoder Value) (es map : Entries)
    (r : Str) (hkey : ∀ e ∈ es, ∀ r, decode (encodeTypeValue 0 e.1 ++ r) = .ok (.u64 e.1, r))
    (h : ∀ e ∈ es, ∀ r, decode (e.2.encode ++ r) = .ok (e.2.placed place, r))
    (hnodup : (map.map Prod.fst ++ es.map Prod.fst).Nodup) :
    decodeEntries place decode es.length map (encodeEntries es ++ r) =
      .ok (placedEntries place es map, r) := by
  induction es generalizing map with
  | nil => rfl
  | cons e es ih =>
    obtain ⟨k, v⟩ := e
    rw [List.forall_mem_cons] at h hkey
    have hfresh : ¬ k ∈ map.map Prod.fst := by
      intro hmem
      exact (List.nodup_append.mp hnodup).2.2 k hmem k List.mem_cons_self rfl
    have hnext : ((place k (v.placed place) map).map Prod.fst ++ es.map Prod.fst).Nodup := by
      have hperm := (hplace.keys k (v.placed place) map).append_right (es.map Prod.fst)
      exact hperm.nodup_iff.mpr (List.perm_middle.nodup_iff.mp hnodup)
    rw [List.length_cons, decodeEntries, encodeEntries, List.append_assoc, List.append_assoc,
      bind_run _ _ _ _ _ (hkey.1 _)]
    show (require CborError.ExpectedUnsignedMapKey (some k) >>= _) _ = _
    rw [bind_run _ _ _ _ _ ((require_eq_ok _ _ _ _ _).mpr ⟨rfl, rfl⟩),
      bind_run _ _ _ _ _ (h.1 _), bind_run _ _ _ _ _ (ensure_run _ _ _ hfresh)]
    exact ih _ hkey.2 h.2 hnext

theorem decode_encode (hplace : Keeps place) (v : Value) (r : Str) (hdepth : v.depth < levels)
    (hsized : v.Sized) (hdistinct : v.Distinct) :
    decodeValueAt place levels (v.encode ++ r) = .ok (v.placed place, r) := by
  induction levels generalizing v r with
  | zero => exact absurd hdepth (Nat.not_lt_zero _)
  | succ levels ih =>
    cases v with
    | null => exact decodeValueAt_run place levels 7 22 r (by omega)
    | bool b =>
      cases b with
      | false => exact decodeValueAt_run place levels 7 20 r (by omega)
      | true => exact decodeValueAt_run place levels 7 21 r (by omega)
    | u64 n => exact decode_unsigned place levels n r
    | i64 n =>
      unfold Value.encode Value.placed
      by_cases hn : 0 ≤ n.toInt
      · rw [if_pos hn, if_pos hn]
        exact decode_unsigned place levels _ r
      · rw [if_neg hn, if_neg hn]
        exact decode_negative place levels n r (by omega)
    | f64 bits =>
      have hbyte : beNat [0xfb] = 251 := rfl
      unfold Value.encode
      rw [List.cons_append, ← List.singleton_append, decodeValueAt,
        bind_run _ _ _ _ _ (readBe_run 1 [0xfb] _ rfl), hbyte, decodeMajor, decodeSimple,
        bind_run _ _ _ _ _ (readBe_run 8 _ r (beBytes_length 8 _)),
        beNat_beBytes 8 _ bits.toNat_lt, UInt64.ofNat_toNat]
      rfl
    | bytes b =>
      unfold Value.encode
      rw [List.append_assoc, decodeValueAt_lengthRun place levels 2 _ _ (by omega) hsized]
      rw [decodeMajor, bind_run _ _ _ _ _ (decodeLength_run _ _ hsized (by rw [List.length_append]; omega)),
        bind_run _ _ _ _ _ (take_run r _ b)]
      rfl
    | text t =>
      unfold Value.encode
      rw [List.append_assoc, decodeValueAt_lengthRun place levels 3 _ _ (by omega) hsized]
      rw [decodeMajor, bind_run _ _ _ _ _ (decodeLength_run _ _ hsized (by rw [List.length_append]; omega)),
        bind_run _ _ _ _ _ (take_run r _ (textBytes t)),
        bind_run _ _ _ _ _ ((require_eq_ok _ _ _ _ _).mpr ⟨fromUTF8_textBytes t, rfl⟩)]
      rfl
    | array items =>
      obtain ⟨hlen, hsized⟩ := hsized
      rw [sizedItems_iff] at hsized
      have hdistinct := (keyedItems_iff _ _).mp hdistinct
      have hdepth := (depthItems_lt_iff items levels).mp hdepth
      have hle := length_le_encodeItems items
      unfold Value.encode
      rw [List.append_assoc, decodeValueAt_lengthRun place levels 4 _ _ (by omega) hlen]
      rw [decodeMajor, bind_run _ _ _ _ _ (decodeLength_run _ _ hlen (by rw [List.length_append]; omega)),
        bind_run _ _ _ _ _ (times_run place _ items r fun v hv r =>
          ih v r (hdepth v hv) (hsized v hv) (hdistinct v hv))]
      rfl
    | map entries =>
      obtain ⟨hlen, hsized⟩ := hsized
      obtain ⟨hnodup, hdistinct⟩ := hdistinct
      rw [sizedEntries_iff] at hsized
      have hdistinct := (keyedEntries_iff _ _).mp hdistinct
      have hdepth := (depthEntries_lt_iff entries levels).mp hdepth
      have hle := length_le_encodeEntries entries
      have hkey : ∀ e ∈ entries, ∀ r, decodeValueAt place levels (encodeTypeValue 0 e.1 ++ r) =
          .ok (.u64 e.1, r) := by
        intro e he r
        obtain ⟨inner, rfl⟩ : ∃ inner, levels = inner + 1 :=
          ⟨levels - 1, by have h := hdepth e he; omega⟩
        exact decode_unsigned place inner e.1 r
      unfold Value.encode
      rw [List.append_assoc, decodeValueAt_lengthRun place levels 5 _ _ (by omega) hlen]
      rw [decodeMajor, bind_run _ _ _ _ _ (decodeLength_run _ _ hlen (by rw [List.length_append]; omega)),
        bind_run _ _ _ _ _ (decodeEntries_run hplace _ entries [] r hkey
          (fun e he r => ih e.2 r (hdepth e he) (hsized e he) (hdistinct e he)) hnodup)]
      rfl

/-- A value that can be encoded: `t.encode` is in the input where `place` decodes `v`. -/
structure Encodes (place : UInt64 → Value → Entries → Entries) (levels : ℕ) (t v : Value) : Prop where
  depth : t.depth < levels
  sized : t.Sized
  distinct : t.Distinct
  placed : t.placed place = v

variable (place)

theorem decodeLength_eq_ok (a n : ℕ) (s r : Str) (h : decodeLength a s = .ok (n, r)) :
    a = additional n ∧ n < 2 ^ 64 ∧ s = beBytes (argumentWidth n) n ++ r ∧ n ≤ r.length := by
  obtain ⟨len, u, hargument, hrest⟩ := (bind_eq_ok _ _ _ _ _).mp h
  obtain ⟨_, u', hneed, hpure⟩ := (bind_eq_ok _ _ _ _ _).mp hrest
  obtain ⟨ha, rfl⟩ := decodeArgument_eq_ok a s u len hargument
  obtain ⟨hle, rfl⟩ := (need_eq_ok _ _ _ _ _).mp hneed
  obtain ⟨rfl, rfl⟩ := (pure_eq_ok _ _ _).mp hpure
  exact ⟨ha, len.toNat_lt, rfl, hle⟩

theorem times_eq_ok (decode : Decoder Value) (n : ℕ) (vs : List Value) (s r : Str)
    (ih : ∀ s v r, decode s = .ok (v, r) → ∃ t, Encodes place levels t v ∧ s = t.encode ++ r)
    (h : times decode n s = .ok (vs, r)) :
    ∃ ts, ts.length = n ∧ s = encodeItems ts ++ r ∧ placedItems place ts = vs ∧
      ∀ t ∈ ts, ∃ v, Encodes place levels t v := by
  induction n generalizing vs s with
  | zero =>
    obtain ⟨rfl, rfl⟩ := (pure_eq_ok _ _ _).mp h
    exact ⟨[], rfl, rfl, rfl, fun t ht => absurd ht List.not_mem_nil⟩
  | succ n hn =>
    obtain ⟨v, u, hv, hrest⟩ := (bind_eq_ok _ _ _ _ _).mp h
    obtain ⟨vs', u', hvs, hpure⟩ := (bind_eq_ok _ _ _ _ _).mp hrest
    obtain ⟨rfl, rfl⟩ := (pure_eq_ok _ _ _).mp hpure
    obtain ⟨t, ht, rfl⟩ := ih s v u hv
    obtain ⟨ts, hlen, rfl, hplaced, hts⟩ := hn vs' u hvs
    refine ⟨t :: ts, by rw [List.length_cons, hlen], ?_, ?_, ?_⟩
    · rw [encodeItems, List.append_assoc]
    · rw [placedItems, ht.placed, hplaced]
    · rw [List.forall_mem_cons]
      exact ⟨⟨v, ht⟩, hts⟩

theorem placed_unsigned (t : Value) (n : UInt64) (h : t.placed place = .u64 n) :
    t.encode = encodeTypeValue 0 n := by
  cases t with
  | u64 m =>
    cases h
    rfl
  | i64 m =>
    unfold Value.placed at h
    split at h
    · rename_i hm
      cases h
      rw [Value.encode, if_pos hm]
    · cases h
  | null | bool b | f64 bits | bytes b | text t | array items | map entries => cases h

variable {place}

theorem decodeEntries_eq_ok (hplace : Keeps place) (decode : Decoder Value) (n : ℕ)
    (map es' : Entries) (s r : Str)
    (ih : ∀ s v r, decode s = .ok (v, r) → ∃ t, Encodes place levels t v ∧ s = t.encode ++ r)
    (hmap : (map.map Prod.fst).Nodup) (h : decodeEntries place decode n map s = .ok (es', r)) :
    ∃ es, es.length = n ∧ s = encodeEntries es ++ r ∧ placedEntries place es map = es' ∧
      (map.map Prod.fst ++ es.map Prod.fst).Nodup ∧
      ∀ e ∈ es, ∃ v, Encodes place levels e.2 v := by
  induction n generalizing map s with
  | zero =>
    obtain ⟨rfl, rfl⟩ := (pure_eq_ok _ _ _).mp h
    refine ⟨[], rfl, rfl, rfl, ?_, fun e he => absurd he List.not_mem_nil⟩
    rw [List.map_nil, List.append_nil]
    exact hmap
  | succ n hn =>
    obtain ⟨key, u, hkey, h₁⟩ := (bind_eq_ok _ _ _ _ _).mp h
    obtain ⟨k, u₁, hunsigned, h₂⟩ := (bind_eq_ok _ _ _ _ _).mp h₁
    obtain ⟨v, u₂, hv, h₃⟩ := (bind_eq_ok _ _ _ _ _).mp h₂
    obtain ⟨_, u₃, hensure, h₄⟩ := (bind_eq_ok _ _ _ _ _).mp h₃
    obtain ⟨hk, rfl⟩ := (require_eq_ok _ _ _ _ _).mp hunsigned
    obtain ⟨hfresh, rfl⟩ := (ensure_eq_ok _ _ _ _ _).mp hensure
    obtain ⟨tk, htk, rfl⟩ := ih s key u hkey
    obtain ⟨t, ht, rfl⟩ := ih u v u₂ hv
    have hkeyed : key = .u64 k := by
      cases key <;> cases hk
      rfl
    have hnext : ((place k v map).map Prod.fst).Nodup :=
      (hplace.keys k v map).nodup_iff.mpr (List.nodup_cons.mpr ⟨hfresh, hmap⟩)
    obtain ⟨es, hlen, rfl, hplaced, hnodup, hes⟩ := hn (place k v map) u₂ hnext h₄
    refine ⟨(k, t) :: es, by rw [List.length_cons, hlen], ?_, ?_, ?_, ?_⟩
    · rw [encodeEntries, placed_unsigned place tk k (htk.placed.trans hkeyed), List.append_assoc,
        List.append_assoc]
    · rw [placedEntries, ht.placed, hplaced]
    · have hperm := (hplace.keys k v map).append_right (es.map Prod.fst)
      rw [List.map_cons]
      exact List.perm_middle.nodup_iff.mpr (hperm.nodup_iff.mp hnodup)
    · rw [List.forall_mem_cons]
      exact ⟨⟨v, ht⟩, hes⟩

/-- The header of a list of bytes that `decodeValueAt` accepts. -/
theorem header_eq (initial : UInt8) (n : ℕ) (r : Str) (h : initial.toNat % 32 = additional n) :
    initial :: (beBytes (argumentWidth n) n ++ r) =
      encodeArgument (initial.toNat / 32) n ++ r := by
  have hb : initial = UInt8.ofNat (32 * (initial.toNat / 32) + additional n) := by
    apply UInt8.toNat_inj.mp
    have hlt := initial.toNat_lt
    rw [UInt8.toNat_ofNat']
    omega
  rw [encodeArgument_eq, ← hb, List.cons_append]

theorem header_length (initial : UInt8) (n : ℕ) (r : Str) (h : initial.toNat % 32 = additional n)
    (hlt : n < 2 ^ 64) : initial :: (beBytes (argumentWidth n) n ++ r) =
      encodeLength (initial.toNat / 32) n ++ r := by
  rw [header_eq initial n r h, encodeLength, encodeTypeValue, UInt64.toNat_ofNat',
    Nat.mod_eq_of_lt hlt]

theorem decodeSimple_eq_ok (place : UInt64 → Value → Entries → Entries) (initial : UInt8)
    (v : Value) (s r : Str)
    (hmajor : initial.toNat / 32 = 7) (h : decodeSimple (initial.toNat % 32) s = .ok (v, r)) :
    ∃ t, Encodes place (levels + 1) t v ∧ initial :: s = t.encode ++ r := by
  generalize ha : initial.toNat % 32 = a at h
  have hbyte : initial = UInt8.ofNat (224 + a) := by
    apply UInt8.toNat_inj.mp
    rw [UInt8.toNat_ofNat']
    omega
  rw [hbyte]
  unfold decodeSimple at h
  split at h
  · obtain ⟨rfl, rfl⟩ := (pure_eq_ok _ _ _).mp h
    exact ⟨.bool false, ⟨Nat.succ_pos _, True.intro, True.intro, rfl⟩, rfl⟩
  · obtain ⟨rfl, rfl⟩ := (pure_eq_ok _ _ _).mp h
    exact ⟨.bool true, ⟨Nat.succ_pos _, True.intro, True.intro, rfl⟩, rfl⟩
  · obtain ⟨rfl, rfl⟩ := (pure_eq_ok _ _ _).mp h
    exact ⟨.null, ⟨Nat.succ_pos _, True.intro, True.intro, rfl⟩, rfl⟩
  · obtain ⟨bits, u, hbits, h₁⟩ := (bind_eq_ok _ _ _ _ _).mp h
    obtain ⟨rfl, rfl⟩ := (pure_eq_ok _ _ _).mp h₁
    obtain ⟨b, hlen, rfl, rfl⟩ := (readBe_eq_ok _ _ _ _).mp hbits
    have hlt := beNat_lt b
    rw [hlen] at hlt
    have hnat : (UInt64.ofNat (beNat b)).toNat = beNat b := by
      rw [UInt64.toNat_ofNat', Nat.mod_eq_of_lt (by omega)]
    refine ⟨.f64 (UInt64.ofNat (beNat b)), ⟨Nat.succ_pos _, True.intro, True.intro, rfl⟩, ?_⟩
    rw [Value.encode, hnat, ← hlen, beBytes_beNat]
    rfl
  · cases h

theorem decodeMajor_eq_ok (hplace : Keeps place) (decode : Decoder Value) (initial : UInt8)
    (v : Value) (s r : Str)
    (ih : ∀ s v r, decode s = .ok (v, r) → ∃ t, Encodes place levels t v ∧ s = t.encode ++ r)
    (h : decodeMajor place decode (initial.toNat / 32) (initial.toNat % 32) s = .ok (v, r)) :
    ∃ t, Encodes place (levels + 1) t v ∧ initial :: s = t.encode ++ r := by
  have hbound : initial.toNat / 32 < 8 := by
    have hlt := initial.toNat_lt
    omega
  generalize hmajor : initial.toNat / 32 = major at h hbound
  interval_cases major
  · obtain ⟨n, u, hn, hrest⟩ := (bind_eq_ok _ _ _ _ _).mp h
    obtain ⟨rfl, rfl⟩ := (pure_eq_ok _ _ _).mp hrest
    obtain ⟨ha, rfl⟩ := decodeArgument_eq_ok _ _ _ _ hn
    refine ⟨.u64 n, ⟨Nat.succ_pos _, True.intro, True.intro, rfl⟩, ?_⟩
    rw [header_eq initial n.toNat u ha, hmajor]
    rfl
  · obtain ⟨n, u, hn, hrest⟩ := (bind_eq_ok _ _ _ _ _).mp h
    obtain ⟨_, u', hensure, hrest⟩ := (bind_eq_ok _ _ _ _ _).mp hrest
    obtain ⟨hlt, rfl⟩ := (ensure_eq_ok _ _ _ _ _).mp hensure
    obtain ⟨rfl, rfl⟩ := (pure_eq_ok _ _ _).mp hrest
    obtain ⟨ha, rfl⟩ := decodeArgument_eq_ok _ _ _ _ hn
    have hint : (Int64.ofInt (-1 - (n.toNat : ℤ))).toInt = -1 - n.toNat :=
      Int64.toInt_ofInt_of_le (by omega) (by omega)
    have hnat : (-1 - (-1 - (n.toNat : ℤ))).toNat = n.toNat := by omega
    refine ⟨.i64 (Int64.ofInt (-1 - n.toNat)), ⟨Nat.succ_pos _, True.intro, True.intro, ?_⟩, ?_⟩
    · rw [Value.placed, hint, if_neg (by omega)]
    · rw [header_eq initial n.toNat u ha, hmajor, Value.encode, hint, if_neg (by omega), hnat,
        UInt64.ofNat_toNat]
      rfl
  · obtain ⟨n, u, hn, h₁⟩ := (bind_eq_ok _ _ _ _ _).mp h
    obtain ⟨b, u', htake, h₂⟩ := (bind_eq_ok _ _ _ _ _).mp h₁
    obtain ⟨rfl, rfl⟩ := (take_eq_ok _ _ _ _ _).mp htake
    obtain ⟨rfl, rfl⟩ := (pure_eq_ok _ _ _).mp h₂
    obtain ⟨ha, hlt, rfl, _⟩ := decodeLength_eq_ok _ _ _ _ hn
    refine ⟨.bytes b, ⟨Nat.succ_pos _, hlt, True.intro, rfl⟩, ?_⟩
    rw [header_length initial b.length _ ha hlt, hmajor, Value.encode, List.append_assoc]
  · obtain ⟨n, u, hn, h₁⟩ := (bind_eq_ok _ _ _ _ _).mp h
    obtain ⟨b, u', htake, h₂⟩ := (bind_eq_ok _ _ _ _ _).mp h₁
    obtain ⟨t, u₂, htext, h₃⟩ := (bind_eq_ok _ _ _ _ _).mp h₂
    obtain ⟨rfl, rfl⟩ := (take_eq_ok _ _ _ _ _).mp htake
    obtain ⟨hutf8, rfl⟩ := (require_eq_ok _ _ _ _ _).mp htext
    obtain ⟨rfl, rfl⟩ := (pure_eq_ok _ _ _).mp h₃
    obtain ⟨ha, hlt, rfl, _⟩ := decodeLength_eq_ok _ _ _ _ hn
    have hb := fromUTF8_eq_some b t hutf8
    refine ⟨.text t, ⟨Nat.succ_pos _, ?_, True.intro, rfl⟩, ?_⟩
    · rw [← hb] at hlt
      exact hlt
    · rw [header_length initial b.length _ ha hlt, hmajor, Value.encode, List.append_assoc, hb]
  · obtain ⟨n, u, hn, hrest⟩ := (bind_eq_ok _ _ _ _ _).mp h
    obtain ⟨vs, u', htimes, hrest⟩ := (bind_eq_ok _ _ _ _ _).mp hrest
    obtain ⟨rfl, rfl⟩ := (pure_eq_ok _ _ _).mp hrest
    obtain ⟨ha, hlt, rfl, _⟩ := decodeLength_eq_ok _ _ _ _ hn
    obtain ⟨ts, rfl, rfl, rfl, hts⟩ := times_eq_ok place levels decode n vs u u' ih htimes
    refine ⟨.array ts, ⟨?_, ⟨hlt, ?_⟩, ?_, rfl⟩, ?_⟩
    · exact (depthItems_lt_iff ts levels).mpr fun t ht => (hts t ht).choose_spec.depth
    · exact (sizedItems_iff ts).mpr fun t ht => (hts t ht).choose_spec.sized
    · exact (keyedItems_iff _ ts).mpr fun t ht => (hts t ht).choose_spec.distinct
    · rw [header_length initial ts.length _ ha hlt, hmajor, Value.encode, List.append_assoc]
  · obtain ⟨n, u, hn, hrest⟩ := (bind_eq_ok _ _ _ _ _).mp h
    obtain ⟨es', u', hentries, hrest⟩ := (bind_eq_ok _ _ _ _ _).mp hrest
    obtain ⟨rfl, rfl⟩ := (pure_eq_ok _ _ _).mp hrest
    obtain ⟨ha, hlt, rfl, _⟩ := decodeLength_eq_ok _ _ _ _ hn
    obtain ⟨es, rfl, rfl, rfl, hnodup, hes⟩ :=
      decodeEntries_eq_ok levels hplace decode n [] es' u u' ih List.nodup_nil hentries
    refine ⟨.map es, ⟨?_, ⟨hlt, ?_⟩, ⟨hnodup, ?_⟩, rfl⟩, ?_⟩
    · exact (depthEntries_lt_iff es levels).mpr fun e he => (hes e he).choose_spec.depth
    · exact (sizedEntries_iff es).mpr fun e he => (hes e he).choose_spec.sized
    · exact (keyedEntries_iff _ es).mpr fun e he => (hes e he).choose_spec.distinct
    · rw [header_length initial es.length _ ha hlt, hmajor, Value.encode, List.append_assoc]
  · cases h
  · exact decodeSimple_eq_ok levels place initial v s r hmajor h

theorem decodeValueAt_eq_ok (hplace : Keeps place) (s : Str) (v : Value) (r : Str)
    (h : decodeValueAt place levels s = .ok (v, r)) :
    ∃ t, Encodes place levels t v ∧ s = t.encode ++ r := by
  induction levels generalizing s v r with
  | zero => cases h
  | succ levels ih =>
    obtain ⟨initial, u, hread, hmajor⟩ := (bind_eq_ok _ _ _ _ _).mp h
    obtain ⟨b, hlen, rfl, rfl⟩ := (readBe_eq_ok _ _ _ _).mp hread
    obtain ⟨byte, rfl⟩ := List.length_eq_one_iff.mp hlen
    have hbyte : beNat [byte] = byte.toNat := by
      show 256 * 0 + byte.toNat = byte.toNat
      omega
    rw [hbyte] at hmajor
    exact decodeMajor_eq_ok levels hplace _ byte v u r ih hmajor

end

theorem Value.nesting {P : Value → Prop} (null : P .null) (bool : ∀ b, P (.bool b))
    (u64 : ∀ n, P (.u64 n)) (i64 : ∀ n, P (.i64 n)) (f64 : ∀ bits, P (.f64 bits))
    (bytes : ∀ b, P (.bytes b)) (text : ∀ t, P (.text t))
    (array : ∀ items, (∀ v ∈ items, P v) → P (.array items))
    (map : ∀ entries : Entries, (∀ e ∈ entries, P e.2) → P (.map entries)) (v : Value) : P v := by
  have hdepth : ∀ n, ∀ v : Value, v.depth < n → P v := by
    intro n
    induction n with
    | zero => exact fun v hv => absurd hv (Nat.not_lt_zero _)
    | succ n ih =>
      intro v hv
      cases v with
      | null => exact null
      | bool b => exact bool b
      | u64 n => exact u64 n
      | i64 n => exact i64 n
      | f64 bits => exact f64 bits
      | bytes b => exact bytes b
      | text t => exact text t
      | array items => exact array items fun v hmem => ih v ((depthItems_lt_iff items n).mp hv v hmem)
      | map entries => exact map entries fun e hmem => ih e.2 ((depthEntries_lt_iff entries n).mp hv e hmem)
  exact hdepth (v.depth + 1) v (Nat.lt_succ_self _)

section
variable (place : UInt64 → Value → Entries → Entries) (es map : Entries)

def placedPairs : Entries := es.map fun e => (e.1, e.2.placed place)

def placeAll : Entries := es.foldl (fun map e => place e.1 e.2 map) map

theorem placedItems_eq (vs : List Value) : placedItems place vs = vs.map fun v => v.placed place := by
  induction vs with
  | nil => rfl
  | cons v vs ih => rw [placedItems, ih, List.map_cons]

theorem placedEntries_eq : placedEntries place es map = placeAll place (placedPairs place es) map := by
  induction es generalizing map with
  | nil => rfl
  | cons e es ih => exact ih _

theorem placedPairs_keys : (placedPairs place es).map Prod.fst = es.map Prod.fst := by
  unfold placedPairs
  rw [List.map_map]
  rfl

theorem placeAll_append : placeAll (fun key value map => map ++ [(key, value)]) es map = map ++ es := by
  induction es generalizing map with
  | nil => exact (List.append_nil map).symm
  | cons e es ih =>
    show placeAll (fun key value map => map ++ [(key, value)]) es (map ++ [e]) = map ++ e :: es
    rw [ih, List.append_assoc, List.singleton_append]

variable {place}

theorem Keeps.placeAll (hplace : Keeps place) : (placeAll place es map).Perm (es ++ map) := by
  induction es generalizing map with
  | nil => exact List.Perm.refl _
  | cons e es ih =>
    have hnext := (ih (place e.1 e.2 map)).trans ((hplace e.1 e.2 map).append_left es)
    exact hnext.trans List.perm_middle

theorem insertEntry_sorted (k : UInt64) (v : Value) (hs : (map.map Prod.fst).Pairwise (· < ·))
    (hk : k ∉ map.map Prod.fst) : ((insertEntry k v map).map Prod.fst).Pairwise (· < ·) := by
  induction map with
  | nil => exact List.pairwise_singleton _ _
  | cons e es ih =>
    obtain ⟨he, hes⟩ := List.pairwise_cons.mp hs
    have hne : k ≠ e.1 := List.ne_of_not_mem_cons hk
    unfold insertEntry
    split
    · rename_i hlt
      rw [List.map_cons, List.map_cons, List.pairwise_cons]
      constructor
      · intro k' hk'
        rcases List.mem_cons.mp hk' with rfl | hk'
        · exact hlt
        · exact UInt64.lt_trans hlt (he k' hk')
      · exact hs
    · rename_i hle
      rw [List.map_cons, List.pairwise_cons]
      constructor
      · intro k' hk'
        rcases List.mem_cons.mp ((keeps_insertEntry.keys k v es).mem_iff.mp hk') with rfl | hk'
        · exact UInt64.lt_of_le_of_ne (UInt64.not_lt.mp hle) hne.symm
        · exact he k' hk'
      · exact ih hes (List.not_mem_of_not_mem_cons hk)

theorem placeAll_sorted (hs : (map.map Prod.fst).Pairwise (· < ·))
    (hnodup : (map.map Prod.fst ++ es.map Prod.fst).Nodup) :
    ((placeAll insertEntry es map).map Prod.fst).Pairwise (· < ·) := by
  induction es generalizing map with
  | nil => exact hs
  | cons e es ih =>
    have hfresh : e.1 ∉ map.map Prod.fst := by
      intro hmem
      exact (List.nodup_append.mp hnodup).2.2 e.1 hmem e.1 List.mem_cons_self rfl
    have hperm := (keeps_insertEntry.keys e.1 e.2 map).append_right (es.map Prod.fst)
    exact ih _ (insertEntry_sorted map e.1 e.2 hs hfresh)
      (hperm.nodup_iff.mpr (List.perm_middle.nodup_iff.mp hnodup))

theorem insertEntry_last (k : UInt64) (v : Value) (h : ∀ e ∈ map, e.1 < k) :
    insertEntry k v map = map ++ [(k, v)] := by
  induction map with
  | nil => rfl
  | cons e es ih =>
    rw [List.forall_mem_cons] at h
    rw [insertEntry, if_neg (UInt64.lt_asymm h.1), ih h.2, List.cons_append]

theorem placeAll_of_sorted (hs : ((map ++ es).map Prod.fst).Pairwise (· < ·)) :
    placeAll insertEntry es map = map ++ es := by
  induction es generalizing map with
  | nil => exact (List.append_nil map).symm
  | cons e es ih =>
    have hlast : ∀ e' ∈ map, e'.1 < e.1 := by
      intro e' he'
      rw [List.map_append, List.pairwise_append] at hs
      exact hs.2.2 e'.1 (List.mem_map_of_mem he') e.1 List.mem_cons_self
    have hsplit : map ++ e :: es = (map ++ [e]) ++ es := by
      rw [List.append_assoc, List.singleton_append]
    show placeAll insertEntry es (insertEntry e.1 e.2 map) = _
    rw [insertEntry_last map e.1 e.2 hlast, hsplit]
    exact ih (map ++ [e]) (hsplit ▸ hs)

theorem mem_placedEntries (hplace : Keeps place) (e : UInt64 × Value) :
    e ∈ placedEntries place es [] ↔ ∃ e' ∈ es, (e'.1, e'.2.placed place) = e := by
  rw [placedEntries_eq, (hplace.placeAll _ _).mem_iff, List.append_nil]
  exact List.mem_map

theorem forall_placedEntries (hplace : Keeps place) (Q : Value → Prop) :
    (∀ e ∈ placedEntries place es [], Q e.2) ↔ ∀ e ∈ es, Q (e.2.placed place) := by
  constructor
  · exact fun h e he => h _ ((mem_placedEntries es hplace _).mpr ⟨e, he, rfl⟩)
  · intro h e he
    obtain ⟨e', he', rfl⟩ := (mem_placedEntries es hplace e).mp he
    exact h e' he'

theorem placedEntries_keys (hplace : Keeps place) :
    ((placedEntries place es []).map Prod.fst).Perm (es.map Prod.fst) := by
  rw [placedEntries_eq, ← placedPairs_keys place es]
  have hperm := (hplace.placeAll (placedPairs place es) []).map Prod.fst
  rw [List.append_nil] at hperm
  exact hperm

theorem placed_encodes (hplace : Keeps place) (v : Value) (n : ℕ) (hdepth : v.depth < n)
    (hsized : v.Sized) (hdistinct : v.Distinct) :
    (v.placed place).depth < n ∧ (v.placed place).Sized ∧ (v.placed place).Distinct := by
  induction v using Value.nesting generalizing n with
  | null | bool | u64 | f64 | bytes | text => exact ⟨hdepth, hsized, hdistinct⟩
  | i64 m =>
    unfold Value.placed
    split
    · exact ⟨hdepth, True.intro, True.intro⟩
    · exact ⟨hdepth, hsized, hdistinct⟩
  | array items ih =>
    obtain ⟨n, rfl⟩ : ∃ k, n = k + 1 := ⟨n - 1, by omega⟩
    have hd := (depthItems_lt_iff items n).mp hdepth
    have hs := (sizedItems_iff items).mp hsized.2
    have hk := (keyedItems_iff _ items).mp hdistinct
    have hall := fun v hv => ih v hv n (hd v hv) (hs v hv) (hk v hv)
    show depthItems (placedItems place items) < n + 1 ∧
      ((placedItems place items).length < 2 ^ 64 ∧ SizedItems (placedItems place items)) ∧
        KeyedItems List.Nodup (placedItems place items)
    rw [placedItems_eq, depthItems_lt_iff, sizedItems_iff, keyedItems_iff, List.forall_mem_map,
      List.forall_mem_map, List.forall_mem_map, List.length_map]
    exact ⟨fun v hv => (hall v hv).1, ⟨hsized.1, fun v hv => (hall v hv).2.1⟩,
      fun v hv => (hall v hv).2.2⟩
  | map entries ih =>
    obtain ⟨n, rfl⟩ : ∃ k, n = k + 1 := ⟨n - 1, by omega⟩
    have hd := (depthEntries_lt_iff entries n).mp hdepth
    have hs := (sizedEntries_iff entries).mp hsized.2
    have hk := (keyedEntries_iff _ entries).mp hdistinct.2
    have hall := fun e he => ih e he n (hd e he) (hs e he) (hk e he)
    have hkeys := placedEntries_keys entries hplace
    have hlen := hkeys.length_eq
    rw [List.length_map, List.length_map] at hlen
    show depthEntries (placedEntries place entries []) < n + 1 ∧
      ((placedEntries place entries []).length < 2 ^ 64 ∧
        SizedEntries (placedEntries place entries [])) ∧
        ((placedEntries place entries []).map Prod.fst).Nodup ∧
          KeyedEntries List.Nodup (placedEntries place entries [])
    rw [depthEntries_lt_iff, sizedEntries_iff, keyedEntries_iff,
      forall_placedEntries entries hplace (fun v => v.depth < n),
      forall_placedEntries entries hplace Value.Sized,
      forall_placedEntries entries hplace (Value.Keyed List.Nodup), hlen, hkeys.nodup_iff]
    exact ⟨fun e he => (hall e he).1, ⟨hsized.1, fun e he => (hall e he).2.1⟩, hdistinct.1,
      fun e he => (hall e he).2.2⟩

theorem normal_ascending (v : Value) (hdistinct : v.Distinct) : v.normal.Ascending := by
  induction v using Value.nesting with
  | null | bool | u64 | f64 | bytes | text => exact True.intro
  | i64 m =>
    unfold Value.normal Value.placed
    split
    · exact True.intro
    · exact True.intro
  | array items ih =>
    have hk := (keyedItems_iff _ items).mp hdistinct
    show KeyedItems _ (placedItems insertEntry items)
    rw [placedItems_eq, keyedItems_iff, List.forall_mem_map]
    exact fun v hv => ih v hv (hk v hv)
  | map entries ih =>
    have hk := (keyedEntries_iff _ entries).mp hdistinct.2
    constructor
    · rw [placedEntries_eq]
      apply placeAll_sorted _ _ List.Pairwise.nil
      rw [placedPairs_keys]
      exact hdistinct.1
    · rw [keyedEntries_iff, forall_placedEntries entries keeps_insertEntry]
      exact fun e he => ih e he (hk e he)

theorem placed_append_encode (v : Value) :
    (v.placed fun key value map => map ++ [(key, value)]).encode = v.encode := by
  induction v using Value.nesting with
  | null | bool | u64 | f64 | bytes | text => rfl
  | i64 m =>
    unfold Value.placed
    split
    · rename_i hm
      rw [Value.encode, Value.encode, if_pos hm]
    · rfl
  | array items ih =>
    rw [Value.placed, Value.encode, Value.encode, placedItems_eq, List.length_map]
    congr 1
    induction items with
    | nil => rfl
    | cons v vs ihs =>
      rw [List.forall_mem_cons] at ih
      rw [List.map_cons, encodeItems, encodeItems, ih.1, ihs ih.2]
  | map entries ih =>
    rw [Value.placed, Value.encode, Value.encode, placedEntries_eq, placeAll_append, List.nil_append,
      placedPairs, List.length_map]
    congr 1
    induction entries with
    | nil => rfl
    | cons e es ihs =>
      rw [List.forall_mem_cons] at ih
      rw [List.map_cons, encodeEntries, encodeEntries, ih.1, ihs ih.2]

theorem normal_placed
    (hsorted : ∀ es : Entries, (es.map Prod.fst).Pairwise (· < ·) → placeAll place es [] = es)
    (v : Value) (hdistinct : v.Distinct) : v.normal.placed place = v.normal := by
  induction v using Value.nesting with
  | null | bool | u64 | f64 | bytes | text => rfl
  | i64 m =>
    unfold Value.normal
    rw [Value.placed]
    split
    · rfl
    · rename_i hm
      rw [Value.placed, if_neg hm]
  | array items ih =>
    have hk := (keyedItems_iff _ items).mp hdistinct
    unfold Value.normal
    rw [Value.placed, Value.placed, placedItems_eq, placedItems_eq, List.map_map]
    congr 1
    exact List.map_congr_left fun v hv => ih v hv (hk v hv)
  | map entries ih =>
    have hk := (keyedEntries_iff _ entries).mp hdistinct.2
    have hpairs : placedPairs place (placedEntries insertEntry entries []) =
        placedEntries insertEntry entries [] := by
      apply (List.map_congr_left _).trans (List.map_id _)
      intro e he
      obtain ⟨e', he', rfl⟩ := (mem_placedEntries entries keeps_insertEntry e).mp he
      exact congrArg (Prod.mk e'.1) (ih e' he' (hk e' he'))
    unfold Value.normal
    rw [Value.placed, Value.placed, placedEntries_eq, hpairs]
    congr 1
    exact hsorted _ (normal_ascending (.map entries) hdistinct).1

theorem listed_normal (v : Value) :
    (v.placed fun key value map => map ++ [(key, value)]).normal = v.normal := by
  induction v using Value.nesting with
  | null | bool | u64 | f64 | bytes | text => rfl
  | i64 m =>
    have hplaced : ∀ place, (Value.i64 m).placed place =
        if 0 ≤ m.toInt then .u64 (UInt64.ofNat m.toInt.toNat) else .i64 m := by
      intro place
      rw [Value.placed]
    unfold Value.normal
    rw [hplaced, hplaced]
    split
    · rfl
    · rename_i hm
      rw [hplaced, if_neg hm]
  | array items ih =>
    unfold Value.normal
    rw [Value.placed, Value.placed, Value.placed, placedItems_eq, placedItems_eq, placedItems_eq,
      List.map_map]
    congr 1
    exact List.map_congr_left ih
  | map entries ih =>
    unfold Value.normal
    rw [Value.placed, Value.placed, Value.placed, placedEntries_eq, placedEntries_eq,
      placedEntries_eq, placeAll_append, List.nil_append]
    have hpairs : placedPairs insertEntry
        (placedPairs (fun key value map => map ++ [(key, value)]) entries) =
        placedPairs insertEntry entries := by
      unfold placedPairs
      rw [List.map_map]
      exact List.map_congr_left fun e he => congrArg (Prod.mk e.1) (ih e he)
    rw [hpairs]

theorem ascending_normal (v : Value)
    (h : (v.placed fun key value map => map ++ [(key, value)]).Ascending) :
    v.normal = v.placed fun key value map => map ++ [(key, value)] := by
  induction v using Value.nesting with
  | null | bool | u64 | f64 | bytes | text | i64 m => rfl
  | array items ih =>
    rw [Value.placed, placedItems_eq] at h
    have hk := List.forall_mem_map.mp ((keyedItems_iff _ _).mp h)
    unfold Value.normal
    rw [Value.placed, Value.placed, placedItems_eq, placedItems_eq]
    congr 1
    exact List.map_congr_left fun v hv => ih v hv (hk v hv)
  | map entries ih =>
    rw [Value.placed, placedEntries_eq, placeAll_append, List.nil_append] at h
    obtain ⟨hs, hk⟩ := h
    have hk := List.forall_mem_map.mp ((keyedEntries_iff _ _).mp hk)
    have hpairs : placedPairs insertEntry entries =
        placedPairs (fun key value map => map ++ [(key, value)]) entries :=
      List.map_congr_left fun e he => congrArg (Prod.mk e.1) (ih e he (hk e he))
    unfold Value.normal
    rw [Value.placed, Value.placed, placedEntries_eq, placedEntries_eq, hpairs, placeAll_append]
    congr 1
    exact placeAll_of_sorted _ [] hs

end

theorem normal_encode (v : Value) (h : v.Ascending) : v.normal.encode = v.encode := by
  have hlisted : (v.placed fun key value map => map ++ [(key, value)]).Ascending := by
    induction v using Value.nesting with
    | null | bool | u64 | f64 | bytes | text => exact True.intro
    | i64 m =>
      unfold Value.placed
      split
      · exact True.intro
      · exact True.intro
    | array items ih =>
      have hk := (keyedItems_iff _ items).mp h
      rw [Value.placed, placedItems_eq]
      exact (keyedItems_iff _ _).mpr (List.forall_mem_map.mpr fun v hv => ih v hv (hk v hv))
    | map entries ih =>
      have hk := (keyedEntries_iff _ entries).mp h.2
      rw [Value.placed, placedEntries_eq, placeAll_append, List.nil_append]
      constructor
      · rw [placedPairs_keys]
        exact h.1
      · exact (keyedEntries_iff _ _).mpr (List.forall_mem_map.mpr fun e he => ih e he (hk e he))
  rw [ascending_normal v hlisted, placed_append_encode]

theorem placeAll_insertEntry (hs : (es.map Prod.fst).Pairwise (· < ·)) :
    placeAll insertEntry es [] = es := placeAll_of_sorted es [] hs

theorem complete_eq_ok (decode : Decoder Value) (b : Str) (v : Value) :
    complete decode b = .ok v ↔ decode b = .ok (v, []) := by
  unfold complete
  cases h : decode b with
  | error e =>
    constructor
    · intro h
      cases h
    · intro h
      cases h
  | ok o =>
    obtain ⟨v', r⟩ := o
    show (if r = [] then Except.ok v' else .error CborError.TrailingBytes) = .ok v ↔ _
    split
    · rename_i hr
      rw [hr]
      constructor
      · intro h
        cases h
        rfl
      · intro h
        cases h
        rfl
    · rename_i hr
      constructor
      · intro h
        cases h
      · intro h
        cases h
        exact absurd rfl hr

theorem complete_encode {place : UInt64 → Value → Entries → Entries} (hplace : Keeps place)
    (v : Value) (hdepth : v.depth < 65) (hsized : v.Sized) (hdistinct : v.Distinct) :
    complete (decodeValueAt place 65) v.encode = .ok (v.placed place) := by
  have hrun := decode_encode 65 hplace v [] hdepth hsized hdistinct
  rw [List.append_nil] at hrun
  exact (complete_eq_ok _ _ _).mpr hrun

theorem codec_canonical :
    (∀ v : Value, v.depth ≤ 64 → v.Sized → v.Distinct → decode v.encode = .ok v.normal) ∧
    ∀ b v, decode b = .ok v → decode v.encode = .ok v ∧
      ∃ t, listing b = .ok t ∧ t.encode = b ∧ t.Distinct ∧ t.normal = v ∧
        (v.encode = b ↔ t.Ascending) := by
  constructor
  · exact fun v hdepth hsized hdistinct =>
      complete_encode keeps_insertEntry v (Nat.lt_succ_of_le hdepth) hsized hdistinct
  · intro b v h
    obtain ⟨t, ht, hb⟩ := decodeValueAt_eq_ok 65 keeps_insertEntry b v []
      ((complete_eq_ok _ _ _).mp h)
    rw [List.append_nil] at hb
    have hv : t.normal = v := ht.placed
    have hagain := placed_encodes keeps_insertEntry t 65 ht.depth ht.sized ht.distinct
    change t.normal.depth < 65 ∧ t.normal.Sized ∧ t.normal.Distinct at hagain
    have hlist := placed_encodes keeps_append t 65 ht.depth ht.sized ht.distinct
    have hstays := normal_placed placeAll_insertEntry t ht.distinct
    have hlisted := normal_placed (fun es _ => placeAll_append es []) t ht.distinct
    rw [hv] at hagain hstays hlisted
    have hlisting : listing b = .ok (t.placed fun key value map => map ++ [(key, value)]) := by
      rw [hb]
      exact complete_encode keeps_append t ht.depth ht.sized ht.distinct
    constructor
    · exact (complete_encode keeps_insertEntry v hagain.1 hagain.2.1 hagain.2.2).trans
        (congrArg Except.ok hstays)
    · refine ⟨_, hlisting, (placed_append_encode t).trans hb.symm, hlist.2.2,
        (listed_normal t).trans hv, ?_⟩
      constructor
      · intro hsame
        have hself : listing v.encode = .ok v :=
          (complete_encode keeps_append v hagain.1 hagain.2.1 hagain.2.2).trans
            (congrArg Except.ok hlisted)
        rw [hsame, hlisting] at hself
        rw [Except.ok.inj hself, ← hv]
        exact normal_ascending t ht.distinct
      · intro hascending
        rw [← hv, ascending_normal t hascending, placed_append_encode, hb]

def unorderedBytes : Str := [0xa2, 0x02, 0xf6, 0x01, 0x81, 0x20]

def orderedValue : Value := .map [(1, .array [.i64 (-1)]), (2, .null)]

theorem unorderedBytes_decode : decode unorderedBytes = .ok orderedValue := rfl

theorem codec_canonical_sample : decode orderedValue.encode = .ok orderedValue.normal ∧
    decode orderedValue.encode = .ok orderedValue ∧
      ∃ t, listing unorderedBytes = .ok t ∧ t.encode = unorderedBytes ∧ t.Distinct ∧
        t.normal = orderedValue ∧ (orderedValue.encode = unorderedBytes ↔ t.Ascending) := by
  have hdepth : orderedValue.depth ≤ 64 := by decide
  have hsized : orderedValue.Sized := by
    simp [orderedValue, Value.Sized, SizedEntries, SizedItems]
  have hdistinct : orderedValue.Distinct := by
    simp [orderedValue, Value.Distinct, Value.Keyed, KeyedEntries, KeyedItems]
  exact ⟨codec_canonical.1 orderedValue hdepth hsized hdistinct,
    codec_canonical.2 unorderedBytes orderedValue unorderedBytes_decode⟩

end Rieul.Cbor
