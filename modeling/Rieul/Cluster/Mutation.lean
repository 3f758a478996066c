import Rieul.Cluster.Platform

/-!
# Mutations of the cluster journal (daemon/host/src/cluster/primary.rs)

A mutation has two encodings: the CBOR `values` that requests and entries
sign, and the fixed-size `storage` bytes of the log's payload column.
-/

namespace Rieul.Cluster
open Bytes Fallible Cbor

inductive Mutation where
  | Admit (id key consent : Id) (endpoint : String)
  | Remove (id : Id)
  | Adopt (grant issuer client : Id) (expires : UInt64) (clientProof issuerProof : Signature)
  | Revoke (grant : Id)
  | Transfer (id key : Id) (prefixSequence : UInt64) (prefixHash : Id) (acceptance : Signature)
  deriving DecidableEq

namespace Mutation

/-- `b`: an array as a CBOR byte string. -/
abbrev blob {n : ℕ} (x : Fixed n) : Value := .bytes x.data

def items : Mutation → List Value
  | .Admit id key consent endpoint => [.u64 0, blob id, blob key, blob consent, .text endpoint]
  | .Remove id => [.u64 1, blob id]
  | .Adopt grant issuer client expires clientProof issuerProof =>
    [.u64 3, blob grant, blob issuer, blob client, .u64 expires, blob clientProof, blob issuerProof]
  | .Revoke grant => [.u64 4, blob grant]
  | .Transfer id key prefixSequence prefixHash acceptance =>
    [.u64 2, blob id, blob key, .u64 prefixSequence, blob prefixHash, blob acceptance]

def values (m : Mutation) : Value := .array m.items

def storage : Mutation → Str
  | .Admit id key consent endpoint => 0 :: id.data ++ key.data ++ consent.data ++ textBytes endpoint
  | .Remove id => 1 :: id.data
  | .Adopt grant issuer client expires clientProof issuerProof =>
    3 :: grant.data ++ issuer.data ++ client.data ++ beBytes 8 expires.toNat ++ clientProof.data ++
      issuerProof.data
  | .Revoke grant => 4 :: grant.data
  | .Transfer id key prefixSequence prefixHash acceptance =>
    2 :: id.data ++ key.data ++ beBytes 8 prefixSequence.toNat ++ prefixHash.data ++ acceptance.data

/-- `bytes[start..start + n].try_into().unwrap()`: the length checks of `load` keep it in range. -/
def field (n start : ℕ) (bytes : Str) : Except Error (Fixed n) :=
  require .invalid (Fixed.ofStr n ((bytes.drop start).take n))

def counter (start : ℕ) (bytes : Str) : UInt64 :=
  UInt64.ofNat (beNat ((bytes.drop start).take 8))

def load (bytes : Str) : Except Error Mutation :=
  if bytes.head? = some 0 ∧ 98 ≤ bytes.length ∧ bytes.length ≤ 2145 then do
    let id ← field 32 1 bytes
    let key ← field 32 33 bytes
    let consent ← field 32 65 bytes
    let endpoint ← require .invalid (String.fromUTF8? ⟨⟨bytes.drop 97⟩⟩)
    pure (.Admit id key consent endpoint)
  else if bytes.head? = some 1 ∧ bytes.length = 33 then do
    let id ← field 32 1 bytes
    pure (.Remove id)
  else if bytes.head? = some 2 ∧ bytes.length = 169 then do
    let id ← field 32 1 bytes
    let key ← field 32 33 bytes
    let prefixHash ← field 32 73 bytes
    let acceptance ← field 64 105 bytes
    pure (.Transfer id key (counter 65 bytes) prefixHash acceptance)
  else if bytes.head? = some 3 ∧ bytes.length = 233 then do
    let grant ← field 32 1 bytes
    let issuer ← field 32 33 bytes
    let client ← field 32 65 bytes
    let clientProof ← field 64 105 bytes
    let issuerProof ← field 64 169 bytes
    pure (.Adopt grant issuer client (counter 97 bytes) clientProof issuerProof)
  else if bytes.head? = some 4 ∧ bytes.length = 33 then do
    let grant ← field 32 1 bytes
    pure (.Revoke grant)
  else .error .invalid

def Storable : Mutation → Prop
  | .Admit _ _ _ endpoint => 0 < (textBytes endpoint).length ∧ (textBytes endpoint).length ≤ 2048
  | _ => True

def Encodable : Mutation → Prop
  | .Admit _ _ _ endpoint => (textBytes endpoint).length < 2 ^ 64
  | _ => True

theorem Storable.encodable {m : Mutation} (h : m.Storable) : m.Encodable := by
  cases m with
  | Admit id key consent endpoint =>
    have h2 := h.2
    simp only [Encodable]
    omega
  | _ => trivial

/-- A frame of `n` bytes behind `start` bytes. -/
theorem field_of_append {n start : ℕ} (pre post : Str) (x : Fixed n) (h : pre.length = start) :
    field n start (pre ++ (x.data ++ post)) = .ok x := by
  subst h
  have ht : ((pre ++ (x.data ++ post)).drop pre.length).take n = x.data := by
    rw [List.drop_left, List.take_left' x.size]
  rw [field, ht, Fixed.ofStr_data, require_some]

theorem counter_of_append {start : ℕ} (pre post : Str) (x : UInt64) (h : pre.length = start) :
    counter start (pre ++ (beBytes 8 x.toNat ++ post)) = x := by
  subst h
  have ht : ((pre ++ (beBytes 8 x.toNat ++ post)).drop pre.length).take 8 = beBytes 8 x.toNat := by
    rw [List.drop_left, List.take_left' (beBytes_length 8 x.toNat)]
  have hx : beNat (beBytes 8 x.toNat) = x.toNat := beNat_beBytes 8 x.toNat x.toNat_lt
  rw [counter, ht, hx, UInt64.ofNat_toNat]

theorem load_storage {m : Mutation} (h : m.Storable) : load m.storage = .ok m := by
  cases m with
  | Admit id key consent endpoint =>
    obtain ⟨hpos, hmax⟩ := h
    have hl : (storage (.Admit id key consent endpoint)).length =
        97 + (textBytes endpoint).length := by
      simp [storage, id.size, key.size, consent.size]
      omega
    have hid := field_of_append [0] (key.data ++ consent.data ++ textBytes endpoint)
      id (by rfl : _ = 1)
    have hkey := field_of_append (0 :: id.data) (consent.data ++ textBytes endpoint)
      key (by simp [id.size] : _ = 33)
    have hconsent := field_of_append (0 :: id.data ++ key.data) (textBytes endpoint)
      consent (by simp [id.size, key.size] : _ = 65)
    have hrest : (storage (.Admit id key consent endpoint)).drop 97 = textBytes endpoint := by
      rw [storage, List.drop_left' (by simp [id.size, key.size, consent.size])]
    unfold load
    rw [if_pos ⟨rfl, by omega, by omega⟩, hrest, fromUTF8_textBytes]
    simp only [storage, List.cons_append, List.append_assoc, List.nil_append] at hid hkey hconsent ⊢
    simp [hid, hkey, hconsent]
  | Remove id =>
    have hid := field_of_append [1] [] id (by rfl : _ = 1)
    have hl : (storage (.Remove id)).length = 33 := by simp [storage, id.size]
    unfold load
    simp only [storage, List.cons_append, List.append_nil, List.nil_append] at hid hl ⊢
    simp [hid, hl]
  | Adopt grant issuer client expires clientProof issuerProof =>
    have hl : (storage (.Adopt grant issuer client expires clientProof issuerProof)).length = 233 := by
      simp [storage, grant.size, issuer.size, client.size, clientProof.size, issuerProof.size]
    have hgrant := field_of_append [3] (issuer.data ++ client.data ++
      beBytes 8 expires.toNat ++ clientProof.data ++ issuerProof.data) grant (by rfl : _ = 1)
    have hissuer := field_of_append (3 :: grant.data) (client.data ++
      beBytes 8 expires.toNat ++ clientProof.data ++ issuerProof.data) issuer
      (by simp [grant.size] : _ = 33)
    have hclient := field_of_append (3 :: grant.data ++ issuer.data) (beBytes 8 expires.toNat ++
      clientProof.data ++ issuerProof.data) client
      (by simp [grant.size, issuer.size] : _ = 65)
    have hexpires := counter_of_append (3 :: grant.data ++ issuer.data ++ client.data)
      (clientProof.data ++ issuerProof.data) expires
      (by simp [grant.size, issuer.size, client.size] : _ = 97)
    have hcp := field_of_append (3 :: grant.data ++ issuer.data ++ client.data ++
      beBytes 8 expires.toNat) issuerProof.data clientProof
      (by simp [grant.size, issuer.size, client.size] : _ = 105)
    have hip := field_of_append (3 :: grant.data ++ issuer.data ++ client.data ++
      beBytes 8 expires.toNat ++ clientProof.data) [] issuerProof
      (by simp [grant.size, issuer.size, client.size, clientProof.size] : _ = 169)
    unfold load
    simp only [storage, List.cons_append, List.append_assoc, List.append_nil, List.nil_append] at *
    simp [hl, hgrant, hissuer, hclient, hexpires, hcp, hip]
  | Revoke grant =>
    have hgrant := field_of_append [4] [] grant (by rfl : _ = 1)
    have hl : (storage (.Revoke grant)).length = 33 := by simp [storage, grant.size]
    unfold load
    simp only [storage, List.cons_append, List.append_nil, List.nil_append] at hgrant hl ⊢
    simp [hgrant, hl]
  | Transfer id key prefixSequence prefixHash acceptance =>
    have hl : (storage (.Transfer id key prefixSequence prefixHash acceptance)).length = 169 := by
      simp [storage, id.size, key.size, prefixHash.size, acceptance.size]
    have hid := field_of_append [2] (key.data ++ beBytes 8 prefixSequence.toNat ++
      prefixHash.data ++ acceptance.data) id (by rfl : _ = 1)
    have hkey := field_of_append (2 :: id.data) (beBytes 8 prefixSequence.toNat ++
      prefixHash.data ++ acceptance.data) key (by simp [id.size] : _ = 33)
    have hseq := counter_of_append (2 :: id.data ++ key.data)
      (prefixHash.data ++ acceptance.data) prefixSequence (by simp [id.size, key.size] : _ = 65)
    have hhash := field_of_append (2 :: id.data ++ key.data ++
      beBytes 8 prefixSequence.toNat) acceptance.data prefixHash
      (by simp [id.size, key.size] : _ = 73)
    have hacc := field_of_append (2 :: id.data ++ key.data ++
      beBytes 8 prefixSequence.toNat ++ prefixHash.data) [] acceptance
      (by simp [id.size, key.size, prefixHash.size] : _ = 105)
    unfold load
    simp only [storage, List.cons_append, List.append_assoc, List.append_nil, List.nil_append] at *
    simp [hl, hid, hkey, hseq, hhash, hacc]

def tag : Mutation → UInt64
  | .Admit .. => 0
  | .Remove .. => 1
  | .Adopt .. => 3
  | .Revoke .. => 4
  | .Transfer .. => 2

theorem items_eq_tag (m : Mutation) : m.items = .u64 m.tag :: m.items.tail := by
  cases m <;> rfl

theorem blob_items_inj {n : ℕ} {a b : Fixed n} {vs ws : List Value} {r r' : Str} (hn : n < 2 ^ 64)
    (h : encodeItems (blob a :: vs) ++ r = encodeItems (blob b :: ws) ++ r') :
    a = b ∧ encodeItems vs ++ r = encodeItems ws ++ r' := by
  obtain ⟨hd, hr⟩ := bytes_items_inj (by rw [a.size]; exact hn) (by rw [b.size]; exact hn) h
  exact ⟨Fixed.ext' hd, hr⟩

theorem items_inj {m m' : Mutation} {r r' : Str} (hm : m.Encodable) (hm' : m'.Encodable)
    (h : encodeItems m.items ++ r = encodeItems m'.items ++ r') : m = m' ∧ r = r' := by
  have htag : m.tag = m'.tag := by
    rw [items_eq_tag m, items_eq_tag m'] at h
    exact (u64_items_inj h).1
  have h32 : 32 < 2 ^ 64 := by norm_num
  have h64 : 64 < 2 ^ 64 := by norm_num
  -- equal tags leave one pair per constructor; each field is then the next frame
  cases m <;> cases m' <;> first | (simp only [tag] at htag; exact absurd htag (by decide)) | skip
  case Admit.Admit =>
    obtain ⟨-, h⟩ := u64_items_inj h
    obtain ⟨hid, h⟩ := blob_items_inj h32 h
    obtain ⟨hkey, h⟩ := blob_items_inj h32 h
    obtain ⟨hconsent, h⟩ := blob_items_inj h32 h
    obtain ⟨hendpoint, h⟩ := text_items_inj hm hm' h
    exact ⟨by rw [hid, hkey, hconsent, hendpoint], h⟩
  case Remove.Remove =>
    obtain ⟨-, h⟩ := u64_items_inj h
    obtain ⟨hid, h⟩ := blob_items_inj h32 h
    exact ⟨by rw [hid], h⟩
  case Adopt.Adopt =>
    obtain ⟨-, h⟩ := u64_items_inj h
    obtain ⟨hgrant, h⟩ := blob_items_inj h32 h
    obtain ⟨hissuer, h⟩ := blob_items_inj h32 h
    obtain ⟨hclient, h⟩ := blob_items_inj h32 h
    obtain ⟨hexpires, h⟩ := u64_items_inj h
    obtain ⟨hcp, h⟩ := blob_items_inj h64 h
    obtain ⟨hip, h⟩ := blob_items_inj h64 h
    exact ⟨by rw [hgrant, hissuer, hclient, hexpires, hcp, hip], h⟩
  case Revoke.Revoke =>
    obtain ⟨-, h⟩ := u64_items_inj h
    obtain ⟨hgrant, h⟩ := blob_items_inj h32 h
    exact ⟨by rw [hgrant], h⟩
  case Transfer.Transfer =>
    obtain ⟨-, h⟩ := u64_items_inj h
    obtain ⟨hid, h⟩ := blob_items_inj h32 h
    obtain ⟨hkey, h⟩ := blob_items_inj h32 h
    obtain ⟨hsequence, h⟩ := u64_items_inj h
    obtain ⟨hhead, h⟩ := blob_items_inj h32 h
    obtain ⟨hacceptance, h⟩ := blob_items_inj h64 h
    exact ⟨by rw [hid, hkey, hsequence, hhead, hacceptance], h⟩

theorem items_length_lt (m : Mutation) : m.items.length < 2 ^ 64 := by
  cases m <;> simp [items]

theorem values_items_inj {m m' : Mutation} {vs ws : List Value} {r r' : Str} (hm : m.Encodable)
    (hm' : m'.Encodable)
    (h : encodeItems (m.values :: vs) ++ r = encodeItems (m'.values :: ws) ++ r') :
    m = m' ∧ encodeItems vs ++ r = encodeItems ws ++ r' := by
  obtain ⟨-, h⟩ := array_items_inj m.items_length_lt m'.items_length_lt h
  exact items_inj hm hm' h

end Mutation
end Rieul.Cluster
