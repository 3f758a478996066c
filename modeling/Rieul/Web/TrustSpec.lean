import Rieul.Web.Trust
import Rieul.Cluster.Size

/-!
# What the verifier reads

Hex strings name byte strings.
-/

namespace Rieul.Web
open Bytes Fallible Rieul.Cbor Rieul.Cluster

theorem digitChar_inj : ∀ i < 16, ∀ j < 16, Nat.digitChar i = Nat.digitChar j → i = j := by
  decide

theorem hexByte_inj {a b : UInt8} (h : hexByte a = hexByte b) : a = b := by
  have ha := a.toNat_lt
  have hb := b.toNat_lt
  simp only [hexByte, List.cons.injEq, and_true] at h
  have hhigh := digitChar_inj (a.toNat / 16) (by omega) (b.toNat / 16) (by omega) h.1
  have hlow := digitChar_inj (a.toNat % 16) (by omega) (b.toNat % 16) (by omega) h.2
  apply UInt8.toNat_inj.mp
  omega

theorem flatMap_hexByte_inj (a b : Str) (h : a.flatMap hexByte = b.flatMap hexByte) : a = b := by
  induction a generalizing b with
  | nil =>
    cases b with
    | nil => rfl
    | cons y b => simp [hexByte] at h
  | cons x a ih =>
    cases b with
    | nil => simp [hexByte] at h
    | cons y b =>
      simp only [List.flatMap_cons] at h
      have hsplit := List.append_inj h rfl
      rw [hexByte_inj hsplit.1, ih b hsplit.2]

theorem hex_inj {a b : Str} (h : hex a = hex b) : a = b :=
  flatMap_hexByte_inj a b (String.ofList_injective h)

@[simp] theorem same_iff (a b : Str) : same a b ↔ a = b :=
  ⟨fun h => hex_inj h, fun h => congrArg hex h⟩

def hexId (i : Id) : String := hex i.data

theorem hex_data (i : Id) : hex i.data = hexId i := rfl

theorem hexId_injective : Function.Injective hexId := fun _ _ h => Fixed.ext' (hex_inj h)

@[simp] theorem checkedId_data (x : Id) : checkedId x.data = .ok x.data := by
  rw [checkedId, ensure_of _ _ x.size]
  rfl

theorem checkedId_eq_ok (b c : Str) (h : checkedId b = .ok c) : ∃ x : Id, b = x.data ∧ c = x.data := by
  simp only [checkedId, bind_unit_eq_ok, ensure_eq_ok, pure_eq_ok] at h
  exact ⟨⟨b, h.1⟩, rfl, h.2.symm⟩

theorem readId_data (x : Id) : readId x.data = .ok x := by
  rw [readId, Fixed.ofStr_data, require_some]

theorem counter_eq_ok (n : Int64) (c : UInt64) :
    counter n = .ok c ↔ 0 < n.toInt ∧ n.toInt = c.toNat ∧ c ≤ maxCounter := by
  have hmax : maxCounter.toNat = 9007199254740991 := rfl
  have hnat : n.toInt = n.toUInt64.toNat ∨ n.toInt < 0 := by
    have hb : n.toInt = n.toBitVec.toInt := rfl
    have hu : n.toBitVec.toNat = n.toUInt64.toNat := rfl
    have hlt := n.toUInt64.toNat_lt
    rw [hb, BitVec.toInt_eq_toNat_cond, hu]
    split_ifs <;> omega
  simp only [counter, bind_unit_eq_ok, ensure_eq_ok, pure_eq_ok, not_or, not_le, gt_iff_lt,
    UInt64.not_lt]
  constructor
  · intro h
    obtain ⟨⟨hpos, hle⟩, rfl⟩ := h
    exact ⟨hpos, by omega, hle⟩
  · intro h
    have hc : n.toUInt64 = c := by
      apply UInt64.toNat_inj.mp
      omega
    rw [hc]
    exact ⟨⟨h.1, h.2.2⟩, rfl⟩

theorem exists_counter (n : ℤ) (hpos : 0 < n) (hmax : n ≤ maxSafeInteger) :
    ∃ c : UInt64, n = c.toNat ∧ c ≤ maxCounter := by
  rw [maxSafeInteger] at hmax
  have hc : (UInt64.ofNat n.toNat).toNat = n.toNat := by
    rw [UInt64.toNat_ofNat', Nat.mod_eq_of_lt (by omega)]
  refine ⟨UInt64.ofNat n.toNat, by omega, ?_⟩
  have hm : maxCounter.toNat = 9007199254740991 := rfl
  rw [UInt64.le_iff_toNat_le]
  omega

def browserItems : Mutation → List CborValue
  | .Admit id key consent endpoint =>
    [.number 0, .bytes id.data, .bytes key.data, .bytes consent.data, .string endpoint]
  | .Remove id => [.number 1, .bytes id.data]
  | .Adopt grant issuer client expires clientProof issuerProof =>
    [.number 3, .bytes grant.data, .bytes issuer.data, .bytes client.data, .number expires.toNat,
      .bytes clientProof.data, .bytes issuerProof.data]
  | .Revoke grant => [.number 4, .bytes grant.data]
  | .Transfer id key prefixSequence prefixHash acceptance =>
    [.number 2, .bytes id.data, .bytes key.data, .number prefixSequence.toNat,
      .bytes prefixHash.data, .bytes acceptance.data]

def Unmarked : Mutation → Prop
  | .Admit _ _ _ endpoint => (textBytes endpoint).take 3 ≠ byteOrderMark
  | _ => True

def Encodable : Mutation → Prop
  | .Admit _ _ _ endpoint => (textBytes endpoint).length ≤ 2048
  | .Adopt _ _ _ expires _ _ => expires ≤ maxCounter
  | .Transfer _ _ prefixSequence _ _ => prefixSequence ≤ maxCounter
  | _ => True

theorem field_eq_ok (n start : ℕ) (raw : Str) (x : Fixed n) :
    Mutation.field n start raw = .ok x ↔ (raw.drop start).take n = x.data := by
  rw [Mutation.field, require_eq_ok, Fixed.ofStr_eq_some]

theorem field_of_length (n start : ℕ) (raw : Str) (h : start + n ≤ raw.length) :
    ∃ x, Mutation.field n start raw = .ok x := by
  have hl : ((raw.drop start).take n).length = n := by
    rw [List.length_take, List.length_drop]
    omega
  exact ⟨⟨_, hl⟩, (field_eq_ok n start raw _).mpr rfl⟩

variable (start : ℕ) (raw : Str)

theorem counter_toNat :
    (Mutation.counter start raw).toNat = beNat (slice raw start (start + 8)) := by
  have hlt := beNat_lt (slice raw start (start + 8))
  have hlen : (slice raw start (start + 8)).length ≤ 8 := by
    rw [slice, List.length_take]
    omega
  have hpow : 256 ^ (slice raw start (start + 8)).length ≤ 256 ^ 8 :=
    Nat.pow_le_pow_right (by omega) hlen
  have hs : (raw.drop start).take 8 = slice raw start (start + 8) := by
    rw [slice, Nat.add_sub_cancel_left]
  rw [Mutation.counter, hs, UInt64.toNat_ofNat', Nat.mod_eq_of_lt (by omega)]

theorem readNumber_eq_ok (n : ℤ) :
    readNumber raw start = .ok n ↔
      Mutation.counter start raw ≤ maxCounter ∧ n = (Mutation.counter start raw).toNat := by
  have hmax : maxCounter.toNat = 9007199254740991 := rfl
  simp only [readNumber, bind_unit_eq_ok, ensure_eq_ok, pure_eq_ok, maxSafeInteger,
    ← counter_toNat, UInt64.le_iff_toNat_le]
  omega

theorem slice_to_end (start : ℕ) : slice raw start raw.length = raw.drop start := by
  rw [slice, ← List.length_drop, List.take_length]

theorem number_eq (h : Mutation.counter start raw ≤ maxCounter) :
    readNumber raw start = .ok (Mutation.counter start raw).toNat :=
  (readNumber_eq_ok start raw _).mpr ⟨h, rfl⟩

variable (m : Mutation)

theorem mutation_of_load (h : Mutation.load raw = .ok m)
    (hu : Unmarked m) (he : Encodable m) : mutation raw = .ok (browserItems m) := by
  unfold Mutation.load at h
  split_ifs at h with h0 h1 h2 h3 h4
  · simp only [bind_eq_ok, field_eq_ok, require_eq_ok, pure_eq_ok] at h
    obtain ⟨id, hid, key, hkey, consent, hconsent, endpoint, hend, rfl⟩ := h
    have hb := fromUTF8_eq_some _ _ hend
    rw [Unmarked, hb] at hu
    have hlen : ¬ (raw.length < 98 ∨ raw.length > 2145) := by omega
    have htext : decodeText (slice raw 97 raw.length) = .ok endpoint := by
      rw [slice_to_end, decodeText, if_neg hu, hend, require_some]
    have hslices : slice raw 1 33 = id.data ∧ slice raw 33 65 = key.data ∧
      slice raw 65 97 = consent.data := ⟨hid, hkey, hconsent⟩
    simp [mutation, h0.1, hlen, htext, hslices, browserItems]
  · simp only [bind_eq_ok, field_eq_ok, pure_eq_ok] at h
    obtain ⟨id, hid, rfl⟩ := h
    simp [mutation, h1.1, h1.2, browserItems, ← hid, slice]
  · simp only [bind_eq_ok, field_eq_ok, pure_eq_ok] at h
    obtain ⟨id, hid, key, hkey, prefixHash, hhash, acceptance, hacc, rfl⟩ := h
    have hnum := number_eq 65 raw he
    simp [mutation, h2.1, h2.2, browserItems, ← hid, ← hkey, ← hhash, ← hacc, slice, hnum]
  · simp only [bind_eq_ok, field_eq_ok, pure_eq_ok] at h
    obtain ⟨grant, hgrant, issuer, hissuer, client, hclient, cp, hcp, ip, hip, rfl⟩ := h
    have hnum := number_eq 97 raw he
    simp [mutation, h3.1, h3.2, browserItems, ← hgrant, ← hissuer, ← hclient, ← hcp, ← hip, slice,
      hnum]
  · simp only [bind_eq_ok, field_eq_ok, pure_eq_ok] at h
    obtain ⟨grant, hgrant, rfl⟩ := h
    simp [mutation, h4.1, h4.2, browserItems, ← hgrant, slice]

theorem fromUTF8_marked (b : Str) (t : String) (hm : b.take 3 = byteOrderMark)
    (h : String.fromUTF8? ⟨⟨b.drop 3⟩⟩ = some t) :
    String.fromUTF8? ⟨⟨b⟩⟩ = some ("\uFEFF" ++ t) := by
  have hmark : textBytes "\uFEFF" = byteOrderMark := by decide
  have hb : b = textBytes ("\uFEFF" ++ t) := by
    rw [textBytes_append, hmark, fromUTF8_eq_some _ t h, ← hm, List.take_append_drop]
  rw [hb, fromUTF8_textBytes]

theorem load_of_mutation (items : List CborValue) (h : mutation raw = .ok items) :
    ∃ m, Mutation.load raw = .ok m ∧ (Unmarked m → items = browserItems m ∧ Encodable m) := by
  cases hh : raw.head? with
  | none => simp [mutation, hh] at h
  | some tag =>
    simp only [mutation, hh] at h
    split_ifs at h with h0 h1 h2 h3
    · simp only [bind_eq_ok, exists_unit_iff, ensure_eq_ok, pure_eq_ok, decodeText, slice_to_end,
        require_eq_ok] at h
      obtain ⟨hlen, address, ht, rfl⟩ := h
      obtain ⟨id, hid⟩ := field_of_length 32 1 raw (by omega)
      obtain ⟨key, hkey⟩ := field_of_length 32 33 raw (by omega)
      obtain ⟨consent, hconsent⟩ := field_of_length 32 65 raw (by omega)
      have hcond : raw.head? = some 0 ∧ 98 ≤ raw.length ∧ raw.length ≤ 2145 :=
        ⟨by rw [hh, h0], by omega⟩
      have hload : ∀ t, String.fromUTF8? ⟨⟨raw.drop 97⟩⟩ = some t →
          Mutation.load raw = .ok (.Admit id key consent t) := by
        intro t hu
        rw [Mutation.load, if_pos hcond]
        simp [hid, hkey, hconsent, hu]
      by_cases hm : (raw.drop 97).take 3 = byteOrderMark
      · rw [if_pos hm] at ht
        have hmarked := fromUTF8_marked _ address hm ht
        refine ⟨_, hload _ hmarked, fun hu => ?_⟩
        rw [Unmarked, fromUTF8_eq_some _ _ hmarked] at hu
        exact absurd hm hu
      · rw [if_neg hm] at ht
        refine ⟨_, hload address ht, fun _ => ⟨?_, ?_⟩⟩
        · have hslices : slice raw 1 33 = id.data ∧ slice raw 33 65 = key.data ∧
            slice raw 65 97 = consent.data :=
            ⟨(field_eq_ok _ _ _ _).mp hid, (field_eq_ok _ _ _ _).mp hkey,
              (field_eq_ok _ _ _ _).mp hconsent⟩
          simp [browserItems, hslices]
        · rw [Encodable, fromUTF8_eq_some _ _ ht, List.length_drop]
          omega
    · simp only [bind_unit_eq_ok, ensure_eq_ok, pure_eq_ok] at h
      obtain ⟨hlen, rfl⟩ := h
      obtain ⟨id, hid⟩ := field_of_length 32 1 raw (by omega)
      have hslice : slice raw 1 33 = id.data := (field_eq_ok _ _ _ _).mp hid
      rcases h1 with rfl | rfl
      · exact ⟨.Remove id, by simp [Mutation.load, hh, hlen, hid],
          fun _ => ⟨by simp [browserItems, hslice], trivial⟩⟩
      · exact ⟨.Revoke id, by simp [Mutation.load, hh, hlen, hid],
          fun _ => ⟨by simp [browserItems, hslice], trivial⟩⟩
    · simp only [bind_eq_ok, exists_unit_iff, ensure_eq_ok, pure_eq_ok, readNumber_eq_ok] at h
      obtain ⟨hlen, n, ⟨hmax, rfl⟩, rfl⟩ := h
      obtain ⟨id, hid⟩ := field_of_length 32 1 raw (by omega)
      obtain ⟨key, hkey⟩ := field_of_length 32 33 raw (by omega)
      obtain ⟨prefixHash, hhash⟩ := field_of_length 32 73 raw (by omega)
      obtain ⟨acceptance, hacc⟩ := field_of_length 64 105 raw (by omega)
      have hslices : slice raw 1 33 = id.data ∧ slice raw 33 65 = key.data ∧
        slice raw 73 105 = prefixHash.data ∧ slice raw 105 169 = acceptance.data :=
        ⟨(field_eq_ok _ _ _ _).mp hid, (field_eq_ok _ _ _ _).mp hkey,
          (field_eq_ok _ _ _ _).mp hhash, (field_eq_ok _ _ _ _).mp hacc⟩
      exact ⟨.Transfer id key (Mutation.counter 65 raw) prefixHash acceptance,
        by simp [Mutation.load, hh, h2, hlen, hid, hkey, hhash, hacc],
        fun _ => ⟨by simp [browserItems, hslices], hmax⟩⟩
    · simp only [bind_eq_ok, exists_unit_iff, ensure_eq_ok, pure_eq_ok, readNumber_eq_ok] at h
      obtain ⟨hlen, n, ⟨hmax, rfl⟩, rfl⟩ := h
      obtain ⟨grant, hgrant⟩ := field_of_length 32 1 raw (by omega)
      obtain ⟨issuer, hissuer⟩ := field_of_length 32 33 raw (by omega)
      obtain ⟨client, hclient⟩ := field_of_length 32 65 raw (by omega)
      obtain ⟨cp, hcp⟩ := field_of_length 64 105 raw (by omega)
      obtain ⟨ip, hip⟩ := field_of_length 64 169 raw (by omega)
      have hslices : slice raw 1 33 = grant.data ∧ slice raw 33 65 = issuer.data ∧
        slice raw 65 97 = client.data ∧ slice raw 105 169 = cp.data ∧ slice raw 169 233 = ip.data :=
        ⟨(field_eq_ok _ _ _ _).mp hgrant, (field_eq_ok _ _ _ _).mp hissuer,
          (field_eq_ok _ _ _ _).mp hclient, (field_eq_ok _ _ _ _).mp hcp,
          (field_eq_ok _ _ _ _).mp hip⟩
      exact ⟨.Adopt grant issuer client (Mutation.counter 97 raw) cp ip,
        by simp [Mutation.load, hh, h3, hlen, hgrant, hissuer, hclient, hcp, hip],
        fun _ => ⟨by simp [browserItems, hslices], hmax⟩⟩

theorem load_length (h : Mutation.load raw = .ok m) :
    raw.length ≤ maxMutationBytes := by
  have hmax : maxMutationBytes = 2145 := rfl
  unfold Mutation.load at h
  split_ifs at h with h0 h1 h2 h3 h4 <;> omega

theorem load_storage_length (h : Mutation.load raw = .ok m) :
    raw.length = m.storage.length := by
  unfold Mutation.load at h
  split_ifs at h with h0 h1 h2 h3 h4
  · simp only [bind_eq_ok, require_eq_ok, pure_eq_ok] at h
    obtain ⟨id, -, key, -, consent, -, endpoint, hend, rfl⟩ := h
    have hb := fromUTF8_eq_some _ _ hend
    simp only [Mutation.storage, hb, List.length_append, List.length_cons, List.length_drop, id.size,
      key.size, consent.size]
    omega
  · simp only [bind_eq_ok, pure_eq_ok] at h
    obtain ⟨id, -, rfl⟩ := h
    simp [Mutation.storage, id.size, h1.2]
  · simp only [bind_eq_ok, pure_eq_ok] at h
    obtain ⟨id, -, key, -, prefixHash, -, acceptance, -, rfl⟩ := h
    simp [Mutation.storage, id.size, key.size, prefixHash.size, acceptance.size, h2.2]
  · simp only [bind_eq_ok, pure_eq_ok] at h
    obtain ⟨grant, -, issuer, -, client, -, cp, -, ip, -, rfl⟩ := h
    simp [Mutation.storage, grant.size, issuer.size, client.size, cp.size, ip.size, h3.2]
  · simp only [bind_eq_ok, pure_eq_ok] at h
    obtain ⟨grant, -, rfl⟩ := h
    simp [Mutation.storage, grant.size, h4.2]

theorem encode_id (x : Id) : encodeCbor (.bytes x.data) = .ok (Value.bytes x.data).encode :=
  encode_fixed x (by norm_num)

theorem encode_signature (x : Signature) :
    encodeCbor (.bytes x.data) = .ok (Value.bytes x.data).encode :=
  encode_fixed x (by norm_num)

theorem encode_literal (n : ℕ) (h : n ≤ 9007199254740991) :
    encodeCbor (.number n) = .ok (Value.u64 (UInt64.ofNat n)).encode := by
  have hn : (UInt64.ofNat n).toNat = n := by
    rw [UInt64.toNat_ofNat', Nat.mod_eq_of_lt (by omega)]
  have hmax : UInt64.ofNat n ≤ maxCounter := by
    rw [UInt64.le_iff_toNat_le, hn]
    exact h
  have henc := encode_number (UInt64.ofNat n) hmax
  rwa [hn] at henc

theorem encode_items (h : Encodable m) :
    encodeCbor (.array (browserItems m)) = .ok m.values.encode := by
  refine encode_array (by cases m <;> rfl) (by cases m <;> simp [Mutation.items]) ?_
  cases m with
  | Admit id key consent endpoint =>
    have hend := encode_string endpoint (Nat.le_trans h (by norm_num))
    exact encodeAll_cons (encode_literal 0 (by norm_num)) (encodeAll_cons (encode_id id)
      (encodeAll_cons (encode_id key) (encodeAll_cons (encode_id consent)
        (encodeAll_cons hend encodeAll_nil))))
  | Remove id =>
    exact encodeAll_cons (encode_literal 1 (by norm_num)) (encodeAll_cons (encode_id id)
      encodeAll_nil)
  | Adopt grant issuer client expires clientProof issuerProof =>
    exact encodeAll_cons (encode_literal 3 (by norm_num)) (encodeAll_cons (encode_id grant)
      (encodeAll_cons (encode_id issuer) (encodeAll_cons (encode_id client)
        (encodeAll_cons (encode_number expires h) (encodeAll_cons (encode_signature clientProof)
          (encodeAll_cons (encode_signature issuerProof) encodeAll_nil))))))
  | Revoke grant =>
    exact encodeAll_cons (encode_literal 4 (by norm_num)) (encodeAll_cons (encode_id grant)
      encodeAll_nil)
  | Transfer id key prefixSequence prefixHash acceptance =>
    exact encodeAll_cons (encode_literal 2 (by norm_num)) (encodeAll_cons (encode_id id)
      (encodeAll_cons (encode_id key) (encodeAll_cons (encode_number prefixSequence h)
        (encodeAll_cons (encode_id prefixHash) (encodeAll_cons (encode_signature acceptance)
          encodeAll_nil)))))

theorem encode_title (t : String) (h : (textBytes t).length ≤ 100) :
    encodeCbor (.string t) = .ok (Value.text t).encode :=
  encode_string t (Nat.le_trans h (by norm_num))

theorem encode_managementBody (e : Entry) (hepoch : e.epoch ≤ maxCounter)
    (hsequence : e.sequence ≤ maxCounter) (hm : Encodable e.mutation) :
    encodeCbor (.array (managementBody e.cluster.data e.epoch.toNat e.sequence.toNat
      e.previous.data e.operation.data e.request.data (browserItems e.mutation))) = .ok e.body := by
  refine encode_array rfl (by norm_num) ?_
  exact encodeAll_cons (encode_title _ (by decide)) (encodeAll_cons (encode_id _)
    (encodeAll_cons (encode_number _ hepoch) (encodeAll_cons (encode_number _ hsequence)
      (encodeAll_cons (encode_id _) (encodeAll_cons (encode_id _) (encodeAll_cons (encode_id _)
        (encodeAll_cons (encode_items _ hm) encodeAll_nil)))))))

theorem encode_acceptance (cluster operation target key head : Id) (epoch sequence : UInt64)
    (hepoch : epoch < maxCounter) (hsequence : sequence ≤ maxCounter) :
    encodeCbor (.array [.string "rieul.cluster.transfer-acceptance.v1", .bytes cluster.data,
      .number epoch.toNat, .number (epoch.toNat + 1), .bytes operation.data, .bytes target.data,
      .bytes key.data, .number sequence.toNat, .bytes head.data]) =
        .ok (acceptanceBody cluster epoch operation target key sequence head) := by
  have hlt : epoch.toNat < 9007199254740991 := UInt64.lt_iff_toNat_lt.mp hepoch
  have hnext : (epoch + 1).toNat = epoch.toNat + 1 := by
    rw [UInt64.toNat_add, UInt64.toNat_one]
    omega
  have hle : epoch + 1 ≤ maxCounter := by
    rw [UInt64.le_iff_toNat_le, hnext]
    exact hlt
  have henc := encode_number (epoch + 1) hle
  rw [hnext, Nat.cast_add, Nat.cast_one] at henc
  have hepoch' : epoch ≤ maxCounter := UInt64.le_iff_toNat_le.mpr (Nat.le_of_lt hlt)
  refine encode_array rfl (by norm_num) ?_
  exact encodeAll_cons (encode_title _ (by decide)) (encodeAll_cons (encode_id _)
    (encodeAll_cons (encode_number _ hepoch') (encodeAll_cons henc (encodeAll_cons (encode_id _)
      (encodeAll_cons (encode_id _) (encodeAll_cons (encode_id _)
        (encodeAll_cons (encode_number _ hsequence) (encodeAll_cons (encode_id _)
          encodeAll_nil))))))))

section
variable [Platform]

theorem hash_of_encode {v : CborValue} {body : Str} (h : encodeCbor v = .ok body) :
    hash v = .ok (Platform.hash body).data := by
  rw [hash, h, ok_bind]
  rfl

theorem verify_of_encode {items : List CborValue} {body : Str} (key : Id) (signature : Signature)
    (h : encodeCbor (.array items) = .ok body) :
    verify key.data items signature.data = .ok () ↔ Platform.verify key body signature = true := by
  simp [verify, h]

theorem hash_request (cluster operation : Id) (epoch : UInt64) (m : Mutation)
    (hepoch : epoch ≤ maxCounter) (hm : Encodable m) :
    hash (.array [.string "rieul.cluster.management-request.v1", .bytes cluster.data,
      .number epoch.toNat, .bytes operation.data, .array (browserItems m)]) =
        .ok (requestHash cluster epoch operation m).data := by
  refine hash_of_encode (encode_array rfl (by norm_num) ?_)
  exact encodeAll_cons (encode_title _ (by decide)) (encodeAll_cons (encode_id _)
    (encodeAll_cons (encode_number _ hepoch) (encodeAll_cons (encode_id _)
      (encodeAll_cons (encode_items _ hm) encodeAll_nil))))

theorem hash_entry (e : Entry) (hm : e.mutation.Storable) :
    hash (.array [.bytes e.body, .bytes e.signature.data]) = .ok e.hash.data := by
  have hbody := body_length e
  have hstorage := storage_length e.mutation hm
  have hmax : maxMutationBytes = 2145 := rfl
  refine hash_of_encode (encode_array rfl (by norm_num) ?_)
  exact encodeAll_cons (encode_bytes _ (by omega)) (encodeAll_cons (encode_signature _) encodeAll_nil)

end

end Rieul.Web
