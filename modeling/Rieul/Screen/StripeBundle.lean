import Mathlib.Data.Option.Basic
import Mathlib.Tactic.ByContra
import Rieul.Screen.Stripe

/-!
# The two stripe parsers agree

Both parsers are loops that take one record after the other, so that each accepts
exactly the byte strings that the daemon writes.
-/

namespace Rieul.Screen.Stripe
open Bytes Scan

def AnnexB (data : Str) : Prop := [0, 0, 0, 1] <+: data ∨ [0, 0, 1] <+: data

structure Follows (stripes : ℕ) (first : Bool) (before : List Packet) (p : Packet) : Prop where
  index : p.index.toNat < stripes
  keyframe : first = true → p.keyframe = true
  increasing : ∀ q ∈ before.getLast?, q.index < p.index
  annexB : AnnexB p.data
  length : p.data.length < 2 ^ 32

theorem AnnexB.ne_nil {data : Str} (h : AnnexB data) : data ≠ [] := by
  intro hnil
  subst hnil
  rcases h with h | h
  · exact absurd (List.prefix_nil.mp h) (by decide)
  · exact absurd (List.prefix_nil.mp h) (by decide)

theorem encodePacket_prefix_iff (data : Str) (o : ℕ) (p : Packet) (hp : p.data ≠ []) :
    encodePacket p <+: data.drop o ↔ data[o]? = some p.index ∧
      data[o + 1]? = some (flag p.keyframe) ∧
      range data (o + 2) (o + 6) = some (beBytes 4 (p.data.length % 2 ^ 32)) ∧
      range data (o + 6) (o + 6 + p.data.length) = some p.data := by
  have hsplit : encodePacket p =
      [p.index] ++ ([flag p.keyframe] ++ (beBytes 4 (p.data.length % 2 ^ 32) ++ p.data)) := by
    simp [encodePacket]
  rw [hsplit, append_prefix_iff, append_prefix_iff, append_prefix_iff]
  simp only [List.drop_drop, List.length_singleton, beBytes_length, get_eq_some, range_eq_some,
    Nat.add_assoc, Nat.reduceAdd, true_and, and_true]
  refine and_congr_right fun _ => and_congr_right fun _ => ?_
  constructor
  · intro h
    obtain ⟨hlength, hdata⟩ := h
    have hle := hdata.length_le
    have hpos := List.length_pos_iff.mpr hp
    rw [List.length_drop] at hle
    exact ⟨⟨hlength, by omega⟩, hdata, by omega⟩
  · intro h
    exact ⟨h.1.1, h.2.1⟩

theorem flag_eq (flags : UInt8) (h : ¬ flags > 1) : flag (decide (flags = 1)) = flags := by
  by_cases h1 : flags = 1
  · subst h1
    rfl
  · have h0 : flags = 0 := by
      rw [gt_iff_lt, UInt8.lt_iff_toNat_lt] at h
      apply UInt8.toNat_inj.mp
      have hne : flags.toNat ≠ 1 := fun he => h1 (UInt8.toNat_inj.mp he)
      have hone : (1 : UInt8).toNat = 1 := rfl
      have hzero : (0 : UInt8).toNat = 0 := rfl
      omega
    subst h0
    rfl

theorem beBytes_range (data raw : Str) (o n : ℕ) (h : range data o (o + n) = some raw) :
    beBytes n (beNat raw) = raw ∧ beNat raw < 256 ^ n := by
  obtain ⟨_, _, hlen⟩ := (range_eq_some _ _ _ _).mp h
  obtain rfl : n = raw.length := by omega
  exact ⟨beBytes_beNat raw, beNat_lt raw⟩

theorem checkedAdd_eq_some (a b c : ℕ) : checkedAdd a b = some c ↔ a + b < 2 ^ 64 ∧ c = a + b := by
  unfold checkedAdd
  split
  · rename_i h
    rw [Option.some.injEq]
    exact ⟨fun hc => ⟨h, hc.symm⟩, fun hc => hc.2.symm⟩
  · rename_i h
    constructor
    · intro hc
      cases hc
    · exact fun hc => absurd hc.1 h

/-- `len() as u32`. -/
theorem beBytes_length_mod (n : ℕ) : beBytes 4 (n % 2 ^ 32) = beBytes 4 n := beBytes_mod 4 n

theorem decodePacket_takes (data : Str) (hdata : data.length < 2 ^ 64) (stripes : ℕ) (first : Bool) :
    Takes data encodePacket (Follows stripes first) Prod.fst Prod.snd
      (fun s p => (s.1 + (encodePacket p).length, s.2 ++ [p])) (fun _ => True)
      (decodePacket data stripes first) := by
  refine ⟨?_, fun _ _ => rfl, fun _ _ => rfl, fun _ _ _ _ => trivial⟩
  intro s _ t
  simp only [decodePacket, Option.bind_eq_bind, Option.bind_eq_some_iff, Option.guard_eq_some',
    exists_const, checkedAdd_eq_some, Option.some.injEq]
  constructor
  · intro h
    obtain ⟨index, hindex, flags, hflags, hchecks, raw, hraw, hlength, stop, ⟨_, rfl⟩, bytes, hbytes,
      hannexB, rfl⟩ := h
    simp only [not_or, not_and, not_exists, not_not] at hchecks
    obtain ⟨hstripe, hkey, hfirst, hlast⟩ := hchecks
    have hflag := flag_eq flags hkey
    obtain ⟨hbe, hlt⟩ := beBytes_range data raw (s.1 + 2) 4 hraw
    have hlen : beNat raw = bytes.length := by
      obtain ⟨_, _, hstop⟩ := (range_eq_some _ _ _ _).mp hbytes
      omega
    have hprefix := (encodePacket_prefix_iff data s.1 ⟨index, decide (flags = 1), bytes⟩
      (AnnexB.ne_nil hannexB)).mpr ⟨hindex, by rw [hflag]; exact hflags, by
        rw [beBytes_length_mod, ← hlen, hbe]
        exact hraw, by rw [← hlen]; exact hbytes⟩
    refine ⟨⟨index, decide (flags = 1), bytes⟩, ⟨not_le.mp hstripe, ?_, ?_, hannexB, ?_⟩, hprefix, ?_⟩
    · exact fun hf => decide_eq_true (hfirst hf)
    · exact fun q hq => UInt8.not_le.mp (hlast q hq)
    · rw [← hlen]
      exact hlt
    · simp only [encodePacket, hlen, List.length_append, List.length_cons, List.length_nil,
        beBytes_length, Prod.mk.injEq, and_true]
      omega
  · intro h
    obtain ⟨p, hp, hprefix, rfl⟩ := h
    have hne := hp.annexB.ne_nil
    obtain ⟨hindex, hflags, hraw, hbytes⟩ := (encodePacket_prefix_iff data s.1 p hne).mp hprefix
    have hbe : beNat (beBytes 4 (p.data.length % 2 ^ 32)) = p.data.length := by
      rw [beBytes_length_mod, beNat_beBytes 4 _ hp.length]
    have hfits : s.1 + 6 + p.data.length ≤ data.length := by
      have hle := hprefix.length_le
      simp only [encodePacket, List.length_append, List.length_cons, List.length_nil,
        beBytes_length, List.length_drop] at hle
      omega
    refine ⟨p.index, hindex, flag p.keyframe, hflags, ?_, _, hraw, ?_, _, ⟨?_, rfl⟩, p.data, ?_,
      hp.annexB, ?_⟩
    · simp only [not_or, not_and, not_exists, not_not]
      refine ⟨not_le.mpr hp.index, ?_, ?_, fun q hq => UInt8.not_le.mpr (hp.increasing q hq)⟩
      · cases p.keyframe <;> decide
      · intro hf
        rw [hp.keyframe hf]
        rfl
    · rw [hbe]
      exact fun h0 => hne (List.length_eq_zero_iff.mp h0)
    · omega
    · rw [hbe]
      exact hbytes
    · have hdecide : decide (flag p.keyframe = 1) = p.keyframe := by
        cases p.keyframe <;> rfl
      simp only [encodePacket, hbe, hdecide, List.length_append, List.length_cons, List.length_nil,
        beBytes_length, Prod.mk.injEq, and_true]
      omega

structure Bundle (data : Str) (stripes : ℕ) (first : Bool) (packets : List Packet) : Prop where
  supported : 1 ≤ stripes ∧ stripes ≤ maxStripes
  size : data.length ≤ maxBundle
  bytes : data = magic ++ [UInt8.ofNat packets.length] ++ packets.flatMap encodePacket
  count : 1 ≤ packets.length ∧ packets.length ≤ stripes
  complete : first = true → packets.length = stripes
  fits : Fits (Follows stripes first) [] packets

theorem Bundle.toNat_count {data : Str} {stripes : ℕ} {first : Bool} {packets : List Packet}
    (h : Bundle data stripes first packets) :
    (UInt8.ofNat packets.length).toNat = packets.length := by
  have hcount := h.count
  have hstripes := h.supported
  rw [maxStripes] at hstripes
  rw [UInt8.toNat_ofNat']
  omega

theorem bundle_iff (data : Str) (stripes : ℕ) (first : Bool) (packets : List Packet) :
    Bundle data stripes first packets ↔ (1 ≤ stripes ∧ stripes ≤ maxStripes) ∧
      data.length ≤ maxBundle ∧ magic <+: data ∧ ∃ head, data[3]? = some head ∧
        (head.toNat ≠ 0 ∧ head.toNat ≤ stripes ∧ ¬ (first = true ∧ head.toNat ≠ stripes)) ∧
        packets.length = head.toNat ∧ Fits (Follows stripes first) [] packets ∧
        packets.flatMap encodePacket <+: data.drop 4 ∧
        4 + (packets.flatMap encodePacket).length = data.length := by
  constructor
  · intro h
    have hcount := h.toNat_count
    obtain ⟨hsupported, hsize, rfl, ⟨hpos, hle⟩, hcomplete, hfits⟩ := h
    refine ⟨hsupported, hsize, ⟨_, (List.append_assoc _ _ _).symm⟩, _, rfl, ?_, hcount.symm, hfits,
      ?_, ?_⟩
    · rw [hcount]
      exact ⟨by omega, hle, fun hf => hf.2 (hcomplete hf.1)⟩
    · exact List.prefix_rfl
    · simp only [magic, List.length_append, List.length_cons, List.length_nil]
  · intro h
    obtain ⟨hsupported, hsize, hmagic, head, hhead, ⟨hne, hle, hcomplete⟩, hcount, hfits, hrecords,
      hlength⟩ := h
    have hprefix : magic ++ [head] ++ packets.flatMap encodePacket <+: data :=
      (append_prefix_iff _ _ _).mpr ⟨(append_prefix_iff _ _ _).mpr ⟨hmagic, (get_eq_some _ _ _).mp hhead⟩,
        hrecords⟩
    have heq := hprefix.eq_of_length (by
      simp only [magic, List.length_append, List.length_cons, List.length_nil]
      omega)
    have hof : UInt8.ofNat packets.length = head := by
      rw [hcount]
      exact UInt8.ofNat_toNat
    rw [← hcount] at hne hle hcomplete
    refine ⟨hsupported, hsize, ?_, ⟨by omega, hle⟩, fun hf => ?_, hfits⟩
    · rw [hof]
      exact heq.symm
    · by_contra hne
      exact hcomplete ⟨hf, hne⟩

theorem decode_eq_some (data : Str) (stripes : ℕ) (first : Bool) (packets : List Packet) :
    decode data stripes first = some packets ↔ Bundle data stripes first packets := by
  rw [bundle_iff]
  simp only [decode, Option.bind_eq_bind, Option.bind_eq_some_iff, Option.guard_eq_some',
    exists_const, Option.some.injEq, not_or, not_not, not_lt, gt_iff_lt, Prod.exists]
  constructor
  · intro h
    obtain ⟨⟨hsupported, hsize, hmagic⟩, head, hhead, hchecks, offset, items, hloop, hoffset, rfl⟩ := h
    have htakes := decodePacket_takes data (hsize.trans_lt (by decide)) stripes first
    obtain ⟨as, hlen, hfits, hrecords, hfold⟩ := (htakes.loop _ (4, []) trivial _).mp hloop
    have hitems := htakes.foldl_items as (4, [])
    have hoffsets := htakes.foldl_offset as (4, [])
    rw [← hfold] at hitems hoffsets
    simp only [List.nil_append] at hitems
    subst hitems
    refine ⟨hsupported, hsize, ((range_eq_some _ _ _ _).mp hmagic).1, head, hhead, hchecks, hlen,
      hfits, hrecords, ?_⟩
    rw [← hoffset]
    exact hoffsets.symm
  · intro h
    obtain ⟨hsupported, hsize, hmagic, head, hhead, hchecks, hlen, hfits, hrecords, hlength⟩ := h
    have htakes := decodePacket_takes data (hsize.trans_lt (by decide)) stripes first
    have hloop := (htakes.loop head.toNat (4, []) trivial _).mpr ⟨packets, hlen, hfits, hrecords, rfl⟩
    have hitems := htakes.foldl_items packets (4, [])
    have hoffsets := htakes.foldl_offset packets (4, [])
    refine ⟨⟨hsupported, hsize, (range_eq_some _ _ _ _).mpr ⟨hmagic, Nat.zero_le _, rfl⟩⟩, head, hhead,
      hchecks, _, _, hloop, ?_, ?_⟩
    · rw [← hlength]
      exact hoffsets
    · simpa only [List.nil_append] using hitems

@[simp] theorem encodePacket_length (p : Packet) : (encodePacket p).length = 6 + p.data.length := by
  simp only [encodePacket, List.length_append, List.length_cons, List.length_nil, beBytes_length]

/-- The size that `encode` adds up. -/
theorem size_eq_some (packets : List Packet) (n : ℕ)
    (h : n + (packets.flatMap encodePacket).length < 2 ^ 64) :
    packets.foldlM (fun sum p => do
      let sum ← checkedAdd sum 6
      checkedAdd sum p.data.length) n = some (n + (packets.flatMap encodePacket).length) := by
  induction packets generalizing n with
  | nil => rfl
  | cons p packets ih =>
    simp only [List.flatMap_cons, List.length_append, encodePacket_length] at h
    have hsix : checkedAdd n 6 = some (n + 6) := (checkedAdd_eq_some _ _ _).mpr ⟨by omega, rfl⟩
    have hdata : checkedAdd (n + 6) p.data.length = some (n + 6 + p.data.length) :=
      (checkedAdd_eq_some _ _ _).mpr ⟨by omega, rfl⟩
    have hrest := ih (n + 6 + p.data.length) (by omega)
    simp only [List.foldlM_cons, hsix, hdata, Option.bind_eq_bind, Option.bind_some] at hrest ⊢
    rw [hrest, Option.some.injEq, List.flatMap_cons, List.length_append, encodePacket_length]
    omega

theorem encodePacket_append_inj (p q : Packet) (r t : Str) (hp : p.data.length < 2 ^ 32)
    (hq : q.data.length < 2 ^ 32) (h : encodePacket p ++ r = encodePacket q ++ t) :
    p = q ∧ r = t := by
  simp only [encodePacket, beBytes_length_mod, List.append_assoc, List.cons_append,
    List.nil_append, List.cons.injEq] at h
  obtain ⟨hindex, hflag, h⟩ := h
  obtain ⟨hlength, h⟩ := List.append_inj h (by rw [beBytes_length, beBytes_length])
  obtain ⟨hdata, hrest⟩ := List.append_inj h (beBytes_inj 4 _ _ hp hq hlength)
  have hkey : p.keyframe = q.keyframe := by
    revert hflag
    cases p.keyframe <;> cases q.keyframe <;> decide
  refine ⟨?_, hrest⟩
  cases p
  cases q
  simp_all

theorem flatMap_encodePacket_inj (ps qs : List Packet) (hlen : ps.length = qs.length)
    (hp : ∀ p ∈ ps, p.data.length < 2 ^ 32) (hq : ∀ q ∈ qs, q.data.length < 2 ^ 32)
    (h : ps.flatMap encodePacket = qs.flatMap encodePacket) : ps = qs := by
  induction ps generalizing qs with
  | nil => exact (List.length_eq_zero_iff.mp hlen.symm).symm
  | cons p ps ih =>
    cases qs with
    | nil => cases hlen
    | cons q qs =>
      rw [List.flatMap_cons, List.flatMap_cons] at h
      obtain ⟨rfl, hrest⟩ := encodePacket_append_inj p q _ _ (hp p List.mem_cons_self)
        (hq q List.mem_cons_self) h
      rw [ih qs (Nat.succ.inj hlen) (fun x hx => hp x (List.mem_cons_of_mem p hx))
        (fun x hx => hq x (List.mem_cons_of_mem p hx)) hrest]

theorem length_le_flatMap (p : Packet) (ps : List Packet) (h : p ∈ ps) :
    p.data.length ≤ (ps.flatMap encodePacket).length := by
  obtain ⟨before, after, rfl⟩ := List.append_of_mem h
  simp only [List.flatMap_append, List.flatMap_cons, List.length_append, encodePacket_length]
  omega

theorem encode_eq_some (packets : List Packet) (stripes : ℕ) (first : Bool) (data : Str) :
    encode packets stripes first = some data ↔ Bundle data stripes first packets := by
  simp only [encode, Option.bind_eq_bind, Option.bind_eq_some_iff, Option.guard_eq_some',
    exists_const, Option.some.injEq, not_or]
  constructor
  · intro h
    obtain ⟨⟨hne, hle⟩, size, _, _, ps, hps, rfl⟩ := h
    have hb := (decode_eq_some _ _ _ _).mp hps
    have hbytes := hb.bytes
    have hhead := List.append_inj hbytes (by simp)
    have hcount : packets.length = ps.length := by
      have hsupported := hb.supported
      have hps' := hb.count
      have heq := congrArg UInt8.toNat (List.cons.inj (List.append_cancel_left hhead.1)).1
      rw [maxStripes] at hle hsupported
      rw [UInt8.toNat_ofNat', UInt8.toNat_ofNat'] at heq
      omega
    have hsize := hb.size
    rw [List.length_append] at hsize
    have hsame : packets = ps := by
      refine flatMap_encodePacket_inj packets ps hcount ?_ ?_ hhead.2
      · intro p hp
        have hlen := length_le_flatMap p packets hp
        rw [maxBundle] at hsize
        omega
      · exact Fits.all (fun _ _ h => h.length) [] ps hb.fits
    rw [hsame]
    rw [hsame] at hb
    exact hb
  · intro h
    have hsize := h.size
    have hsupported := h.supported
    have hcount := h.count
    have hbytes := h.bytes
    have hlength : data.length = 4 + (packets.flatMap encodePacket).length := by
      rw [hbytes]
      simp only [magic, List.length_append, List.length_cons, List.length_nil]
    rw [maxStripes] at hsupported
    rw [maxBundle] at hsize
    refine ⟨⟨?_, ?_⟩, _, size_eq_some packets 4 (by omega), ?_, packets, ?_, hbytes.symm⟩
    · intro hnil
      rw [hnil] at hcount
      exact absurd hcount.1 (by decide)
    · rw [maxStripes]
      omega
    · rw [maxBundle]
      omega
    · rw [← hbytes]
      exact (decode_eq_some _ _ _ _).mpr h

def Packet.view (p : Packet) : StripePacket := ⟨p.index.toNat, p.keyframe, p.data⟩

def StripePacket.packet (p : StripePacket) : Packet := ⟨UInt8.ofNat p.index, p.keyframe, p.data⟩

@[simp] theorem Packet.packet_view (p : Packet) : p.view.packet = p := by
  simp [Packet.view, StripePacket.packet]

def Stripes.items (s : Stripes) : List Packet := s.packets.map StripePacket.packet

def Stripes.push (s : Stripes) (p : Packet) : Stripes :=
  ⟨s.offset + (encodePacket p).length, p.index.toNat, s.packets ++ [p.view]⟩

/-- `previous` is the index of the last packet. -/
def Stripes.Tracks (s : Stripes) : Prop :=
  ∀ n : ℕ, s.previous < n ↔ ∀ q ∈ s.items.getLast?, q.index.toNat < n

theorem annexB_iff (data : Str) : AnnexB data ↔ data[0]? = some 0 ∧ data[1]? = some 0 ∧
    (data[2]? = some 1 ∨ (data[2]? = some 0 ∧ data[3]? = some 1)) := by
  have hfour : [0, 0, 0, 1] <+: data ↔ data[0]? = some 0 ∧ data[1]? = some 0 ∧ data[2]? = some 0 ∧
      data[3]? = some 1 := by
    rw [get_eq_some, get_eq_some, get_eq_some, get_eq_some]
    have h := append_prefix_iff [0] [0, 0, 1] data
    have h' := append_prefix_iff [0] [0, 1] (data.drop 1)
    have h'' := append_prefix_iff [0] [1] (data.drop 2)
    simp only [List.drop_drop, List.length_singleton, List.cons_append, List.nil_append] at h h' h''
    rw [h, h', h'', List.drop_zero]
  have hthree : [0, 0, 1] <+: data ↔ data[0]? = some 0 ∧ data[1]? = some 0 ∧ data[2]? = some 1 := by
    rw [get_eq_some, get_eq_some, get_eq_some]
    have h := append_prefix_iff [0] [0, 1] data
    have h' := append_prefix_iff [0] [1] (data.drop 1)
    simp only [List.drop_drop, List.length_singleton, List.cons_append, List.nil_append] at h h'
    rw [h, h', List.drop_zero]
  rw [AnnexB, hfour, hthree, ← and_or_left, ← and_or_left, or_comm]

theorem subarray_eq (bytes : Str) (start stop : ℕ) (h : start ≤ stop) (hstop : stop ≤ bytes.length) :
    range bytes start stop = some (subarray bytes start stop) :=
  if_pos ⟨h, hstop⟩

theorem Stripes.Tracks.push (s : Stripes) (p : Packet) : (s.push p).Tracks := by
  intro n
  simp [Stripes.push, Stripes.items]

theorem Stripes.items_push (s : Stripes) (p : Packet) : (s.push p).items = s.items ++ [p] := by
  simp [Stripes.push, Stripes.items]

theorem decodeStripe_takes (bytes : Str) (count : ℕ) (first : Bool) :
    Takes bytes encodePacket (Follows count first) Stripes.offset Stripes.items Stripes.push
      Stripes.Tracks (decodeStripe bytes count first) := by
  refine ⟨?_, Stripes.items_push, fun _ _ => rfl, fun s p _ _ => Stripes.Tracks.push s p⟩
  intro s hs t
  simp only [decodeStripe, Option.bind_eq_bind, Option.bind_eq_some_iff, Option.guard_eq_some',
    exists_const, Option.some.injEq, ← annexB_iff]
  constructor
  · intro h
    obtain ⟨hheader, index, hindex, flags, hflags, hchecks, hannexB, rfl⟩ := h
    simp only [not_or, not_and, not_not, not_le, not_lt, gt_iff_lt] at hchecks hheader
    obtain ⟨hprevious, hstripe, hkey, hfirst, hlength, hfits⟩ := hchecks
    have hraw := subarray_eq bytes (s.offset + 2) (s.offset + 6) (by omega) hheader
    obtain ⟨hbe, hlt⟩ := beBytes_range bytes _ (s.offset + 2) 4 hraw
    generalize beNat (subarray bytes (s.offset + 2) (s.offset + 6)) = n at *
    have hdata := subarray_eq bytes (s.offset + 6) (s.offset + 6 + n) (by omega) hfits
    generalize subarray bytes (s.offset + 6) (s.offset + 6 + n) = data at *
    obtain rfl : n = data.length := by
      obtain ⟨_, _, hstop⟩ := (range_eq_some _ _ _ _).mp hdata
      omega
    have hprefix := (encodePacket_prefix_iff bytes s.offset ⟨index, decide (flags = 1), data⟩
      (AnnexB.ne_nil hannexB)).mpr ⟨hindex, by
        rw [flag_eq flags hkey]
        exact hflags, by
        rw [beBytes_length_mod, hbe]
        exact hraw, hdata⟩
    refine ⟨⟨index, decide (flags = 1), data⟩, ⟨hstripe, ?_, ?_, hannexB, hlt⟩, hprefix, ?_⟩
    · exact fun hf => decide_eq_true (hfirst hf)
    · intro q hq
      exact UInt8.lt_iff_toNat_lt.mpr ((hs index.toNat).mp hprevious q hq)
    · simp only [Stripes.push, Packet.view, encodePacket_length, Nat.add_assoc]
  · intro h
    obtain ⟨p, hp, hprefix, rfl⟩ := h
    have hne := hp.annexB.ne_nil
    obtain ⟨hindex, hflags, hraw, hbytes⟩ := (encodePacket_prefix_iff bytes s.offset p hne).mp hprefix
    have hfits : s.offset + 6 + p.data.length ≤ bytes.length := by
      have hle := hprefix.length_le
      rw [encodePacket_length, List.length_drop] at hle
      omega
    have hlength : beNat (subarray bytes (s.offset + 2) (s.offset + 6)) = p.data.length := by
      rw [subarray_eq bytes _ _ (by omega) (by omega), Option.some.injEq] at hraw
      rw [hraw, beBytes_length_mod, beNat_beBytes 4 _ hp.length]
    have hdata : subarray bytes (s.offset + 6) (s.offset + 6 + p.data.length) = p.data := by
      rw [subarray_eq bytes _ _ (by omega) hfits, Option.some.injEq] at hbytes
      exact hbytes
    rw [hlength, hdata]
    refine ⟨by omega, p.index, hindex, flag p.keyframe, hflags, ?_, hp.annexB, ?_⟩
    · simp only [not_or, not_and, not_not, not_le, not_lt, gt_iff_lt]
      refine ⟨(hs p.index.toNat).mpr ?_, hp.index, ?_, ?_, ?_, hfits⟩
      · intro q hq
        exact UInt8.lt_iff_toNat_lt.mp (hp.increasing q hq)
      · cases p.keyframe <;> decide
      · intro hf
        rw [hp.keyframe hf]
        rfl
      · exact fun h0 => hne (List.length_eq_zero_iff.mp h0)
    · have hdecide : decide (flag p.keyframe = 1) = p.keyframe := by
        cases p.keyframe <;> rfl
      simp only [Stripes.push, Packet.view, encodePacket_length, hdecide, Nat.add_assoc]

theorem foldl_push_packets (ps : List Packet) (s : Stripes) :
    (ps.foldl Stripes.push s).packets = s.packets ++ ps.map Packet.view := by
  induction ps generalizing s with
  | nil => simp
  | cons p ps ih => rw [List.foldl_cons, ih, Stripes.push, List.map_cons, List.append_assoc,
      List.singleton_append]

theorem decodeStripeBundle_eq_some (bytes : Str) (count : ℕ) (first : Bool)
    (packets : List StripePacket) : decodeStripeBundle bytes count first = some packets ↔
      ∃ ps, Bundle bytes count first ps ∧ packets = ps.map Packet.view := by
  have hmagic : magic <+: bytes ↔ bytes[0]? = some 82 ∧ bytes[1]? = some 83 ∧ bytes[2]? = some 2 := by
    rw [get_eq_some, get_eq_some, get_eq_some]
    have h := append_prefix_iff [82] [83, 2] bytes
    have h' := append_prefix_iff [83] [2] (bytes.drop 1)
    simp only [List.drop_drop, List.length_singleton, List.cons_append, List.nil_append] at h h'
    rw [magic, h, h', List.drop_zero]
  have htakes := decodeStripe_takes bytes count first
  have hstart : Stripes.Tracks ⟨4, -1, []⟩ := by
    intro n
    simp [Stripes.items]
    omega
  simp only [bundle_iff, decodeStripeBundle, Option.bind_eq_bind, Option.bind_eq_some_iff,
    Option.guard_eq_some', exists_const, Option.some.injEq, not_or, not_not, not_lt, gt_iff_lt,
    hmagic, maxStripes, maxBundle]
  constructor
  · intro h
    obtain ⟨⟨hone, htwo, _, hsize, hfirst⟩, head, hhead, hchecks, s, hloop, hoffset, rfl⟩ := h
    obtain ⟨ps, hlen, hfits, hrecords, rfl⟩ := (htakes.loop _ ⟨4, -1, []⟩ hstart _).mp hloop
    refine ⟨ps, ⟨⟨hone, htwo⟩, hsize, hfirst, head, hhead, hchecks, hlen, hfits, hrecords, ?_⟩, ?_⟩
    · rw [← hoffset]
      exact (htakes.foldl_offset ps ⟨4, -1, []⟩).symm
    · exact foldl_push_packets ps ⟨4, -1, []⟩
  · intro h
    obtain ⟨ps, ⟨⟨hone, htwo⟩, hsize, hfirst, head, hhead, hchecks, hlen, hfits, hrecords, hlength⟩,
      rfl⟩ := h
    have hloop := (htakes.loop head.toNat ⟨4, -1, []⟩ hstart _).mpr
      ⟨ps, hlen, hfits, hrecords, rfl⟩
    refine ⟨⟨hone, htwo, by omega, hsize, hfirst⟩, head, hhead, hchecks, _, hloop, ?_, ?_⟩
    · rw [← hlength]
      exact htakes.foldl_offset ps ⟨4, -1, []⟩
    · exact foldl_push_packets ps ⟨4, -1, []⟩

/-- What is written is read back, what is read is what would be written, and the browser reads
what the daemon reads. -/
theorem stripe_codecs_agree (stripes : ℕ) (first : Bool) :
    (∀ packets data, encode packets stripes first = some data →
      decode data stripes first = some packets) ∧
    (∀ data packets, decode data stripes first = some packets →
      encode packets stripes first = some data) ∧
    ∀ data, decodeStripeBundle data stripes first =
      (decode data stripes first).map (List.map Packet.view) := by
  refine ⟨?_, ?_, ?_⟩
  · intro packets data h
    exact (decode_eq_some _ _ _ _).mpr ((encode_eq_some _ _ _ _).mp h)
  · intro data packets h
    exact (encode_eq_some _ _ _ _).mpr ((decode_eq_some _ _ _ _).mp h)
  · intro data
    apply Option.ext
    intro packets
    rw [decodeStripeBundle_eq_some, Option.map_eq_some_iff]
    simp only [decode_eq_some, eq_comm (a := packets)]

theorem stripe_codecs_agree_sample : ∃ data,
    encode [⟨0, true, [0, 0, 1, 0x65]⟩, ⟨1, true, [0, 0, 0, 1, 0x65]⟩] 2 true = some data ∧
      decode data 2 true = some [⟨0, true, [0, 0, 1, 0x65]⟩, ⟨1, true, [0, 0, 0, 1, 0x65]⟩] := by
  obtain ⟨data, h⟩ := Option.isSome_iff_exists.mp (show (encode [⟨0, true, [0, 0, 1, 0x65]⟩,
    ⟨1, true, [0, 0, 0, 1, 0x65]⟩] 2 true).isSome by decide)
  exact ⟨data, h, (stripe_codecs_agree 2 true).1 _ data h⟩

end Rieul.Screen.Stripe
