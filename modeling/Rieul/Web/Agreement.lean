import Rieul.Web.TrustSpec

/-!
# The browser and the node agree on a signed history

A history that a node decodes and that fits its tables is verified by the browser, and what the
browser verifies replays in the node, each to the same state.
-/

namespace Rieul.Web
open Bytes Fallible Rieul.Cbor Rieul.Cluster

/-- The map holds `f` under hex strings, seen through `p`. -/
structure Mirrors {β γ : Type} (m : HexMap β) (p : β → γ) (f : Id → Option γ) : Prop where
  lookup : ∀ i, (m.lookup (hexId i)).map p = f i
  keys : ∀ key ∈ m, ∃ i, key = hexId i

theorem HexMap.lookup_insert {β : Type} (m : HexMap β) (key key' : String) (x : β) :
    (m.insert key x).lookup key' = if key' = key then some x else m.lookup key' := by
  by_cases h : key' = key
  · rw [if_pos h, h]
    exact AList.lookup_insert m
  · rw [if_neg h]
    exact AList.lookup_insert_ne h

theorem HexMap.lookup_erase {β : Type} (m : HexMap β) (key key' : String) :
    (m.erase key).lookup key' = if key' = key then none else m.lookup key' := by
  by_cases h : key' = key
  · rw [if_pos h, h]
    exact AList.lookup_erase key m
  · rw [if_neg h]
    exact AList.lookup_erase_ne h

section
variable {β γ : Type} {m : HexMap β} {p : β → γ} {f f' : Id → Option γ}

theorem mirrors_empty (p : β → γ) : Mirrors (∅ : HexMap β) p fun _ => none := by
  constructor
  · intro i
    rw [AList.lookup_empty]
    rfl
  · intro key hk
    exact absurd hk (AList.notMem_empty key)

section
variable (h : Mirrors m p f) (i : Id)
include h i

theorem Mirrors.insert (x : β)
    (hf : ∀ j, f' j = if j = i then some (p x) else f j) :
    Mirrors (m.insert (hexId i) x) p f' := by
  constructor
  · intro j
    rw [HexMap.lookup_insert, hf j]
    by_cases hj : j = i
    · rw [if_pos (congrArg hexId hj), if_pos hj]
      rfl
    · rw [if_neg fun he => hj (hexId_injective he), if_neg hj]
      exact h.lookup j
  · intro key hk
    rcases (AList.mem_insert _).mp hk with rfl | hk
    · exact ⟨i, rfl⟩
    · exact h.keys key hk

theorem Mirrors.erase
    (hf : ∀ j, f' j = if j = i then none else f j) : Mirrors (m.erase (hexId i)) p f' := by
  constructor
  · intro j
    rw [HexMap.lookup_erase, hf j]
    by_cases hj : j = i
    · rw [if_pos (congrArg hexId hj), if_pos hj]
      rfl
    · rw [if_neg fun he => hj (hexId_injective he), if_neg hj]
      exact h.lookup j
  · intro key hk
    exact h.keys key (AList.mem_erase.mp hk).2

theorem Mirrors.mem : hexId i ∈ m ↔ (f i).isSome := by
  rw [← h.lookup i, Option.isSome_map, AList.lookup_isSome]

end

end

def memberOf (s : State) (i : Id) : Option ClusterMember := do
  let key ← s.members.lookup i
  let endpoint ← s.endpoints.lookup i
  pure ⟨i.data, key.data, endpoint⟩

def Grant.view (g : Grant) : Str × ℤ := (g.client.data, g.expires.toNat)

def VerifiedGrant.view (g : VerifiedGrant) : Str × ℤ := (g.client, g.expires)

structure Agrees (cluster : Id) (b : Progress) (s : State) : Prop where
  cluster : s.cluster = cluster
  members : Mirrors b.members id (memberOf s)
  grants : Mirrors b.grants VerifiedGrant.view fun i => (s.grants.lookup i).map Grant.view
  seen : b.seen = s.seen.image hexId
  revoked : b.revoked = s.revoked.image hexId
  operations : b.operations = s.operations.image hexId
  primary : b.primary = s.primary.data
  epoch : b.epoch = s.epoch.toNat
  sequence : b.sequence = s.sequence.toNat
  previous : b.previous = s.head.data
  wellFormed : s.WellFormed
  epoch_pos : 0 < s.epoch.toNat
  epoch_le : s.epoch ≤ maxCounter
  sequence_le : s.sequence ≤ maxCounter

theorem hexId_mem_image (s : Finset Id) (i : Id) : hexId i ∈ s.image hexId ↔ i ∈ s :=
  hexId_injective.mem_finset_image

theorem memberOf_eq_some {s : State} {i : Id} {x : ClusterMember} (h : memberOf s i = some x) :
    ∃ key endpoint, s.members.lookup i = some key ∧ s.endpoints.lookup i = some endpoint ∧
      x = ⟨i.data, key.data, endpoint⟩ := by
  simp only [memberOf, Option.bind_eq_bind, Option.bind_eq_some_iff, Option.pure_def,
    Option.some.injEq] at h
  obtain ⟨key, hkey, endpoint, hend, rfl⟩ := h
  exact ⟨key, endpoint, hkey, hend, rfl⟩

theorem memberOf_of_lookup {s : State} (hs : s.WellFormed) {i key : Id}
    (h : s.members.lookup i = some key) :
    ∃ endpoint, memberOf s i = some ⟨i.data, key.data, endpoint⟩ := by
  have hmem : i ∈ s.endpoints := (hs.endpoints_iff i).mpr ((IdMap.mem_iff _ _).mpr ⟨key, h⟩)
  obtain ⟨endpoint, hend⟩ := (IdMap.mem_iff _ _).mp hmem
  exact ⟨endpoint, by simp [memberOf, h, hend]⟩

section
variable {cluster : Id} {b : Progress} {s : State}

section
variable (h : Agrees cluster b s)
include h

theorem Agrees.member (i key : Id) :
    (b.members.lookup (hexId i)).map ClusterMember.nodePublicKey = some key.data ↔
      s.members.lookup i = some key := by
  have hl := h.members.lookup i
  rw [Option.map_id_fun, id_eq] at hl
  rw [hl]
  constructor
  · intro hm
    obtain ⟨x, hx, hk⟩ := Option.map_eq_some_iff.mp hm
    obtain ⟨key', endpoint, hkey, -, rfl⟩ := memberOf_eq_some hx
    rw [hkey, Fixed.ext' hk]
  · intro hm
    obtain ⟨endpoint, hx⟩ := memberOf_of_lookup h.wellFormed hm
    rw [hx]
    rfl

theorem Agrees.lookup (i key : Id) (hk : s.members.lookup i = some key) :
    ∃ x, b.members.lookup (hexId i) = some x ∧ x.nodePublicKey = key.data :=
  Option.map_eq_some_iff.mp ((h.member i key).mpr hk)

theorem Agrees.of_lookup (i : Id) (x : ClusterMember)
    (hx : b.members.lookup (hexId i) = some x) :
    ∃ key, s.members.lookup i = some key ∧ x.nodePublicKey = key.data := by
  have hl := h.members.lookup i
  rw [Option.map_id_fun, id_eq, hx] at hl
  obtain ⟨key, endpoint, hkey, -, hm⟩ := memberOf_eq_some hl.symm
  exact ⟨key, hkey, by rw [hm]⟩

theorem Agrees.key_used (key : Id) :
    (∃ x ∈ b.members.entries, same x.2.nodePublicKey key.data) ↔
      ∃ i, s.members.lookup i = some key := by
  constructor
  · intro hx
    obtain ⟨⟨name, x⟩, hmem, hk⟩ := hx
    rw [same_iff] at hk
    have hlookup : b.members.lookup name = some x := AList.mem_lookup_iff.mpr hmem
    obtain ⟨i, rfl⟩ := h.members.keys name (AList.lookup_isSome.mp (by rw [hlookup]; rfl))
    obtain ⟨key', hkey, hx⟩ := h.of_lookup i x hlookup
    exact ⟨i, by rw [hkey, Fixed.ext' (hx.symm.trans hk)]⟩
  · intro hi
    obtain ⟨i, hi⟩ := hi
    obtain ⟨x, hx, hk⟩ := h.lookup i key hi
    exact ⟨⟨hexId i, x⟩, AList.mem_lookup_iff.mp hx, (same_iff _ _).mpr hk⟩

theorem Agrees.seen_iff (i : Id) : hexId i ∈ b.seen ↔ i ∈ s.seen := by
  rw [h.seen, hexId_mem_image]

theorem Agrees.revoked_iff (i : Id) :
    hexId i ∈ b.revoked ↔ i ∈ s.revoked := by
  rw [h.revoked, hexId_mem_image]

theorem Agrees.operations_iff (i : Id) :
    hexId i ∈ b.operations ↔ i ∈ s.operations := by
  rw [h.operations, hexId_mem_image]

theorem Agrees.grants_iff (i : Id) : hexId i ∈ b.grants ↔ i ∈ s.grants := by
  rw [h.grants.mem i, Option.isSome_map, AList.lookup_isSome]

end

end

section
variable [Platform] {cluster : Id} {b : Progress} {s : State}

omit [Platform] in
theorem count_eq_ok (n m : ℤ) : count n = .ok m ↔ (IsSafeInteger n ∧ 0 ≤ n) ∧ n = m := by
  simp [count]

theorem endpoint_of_validate (t : String) (h : validateEndpoint t = .ok ()) :
    ∃ origin, endpoint t = .ok origin := by
  obtain ⟨hl, url, hurl, hscheme, -, huser, hpass, hfrag, hquery, hpath⟩ :=
    (validateEndpoint_eq_ok t ()).mp h
  refine ⟨url.origin, ?_⟩
  simp [endpoint, hurl, hscheme, huser, hpass, hfrag, hquery, hpath, hl]

omit [Platform] in
theorem adoption_bodies (cluster grant issuer client : Id) (expires : UInt64) (clientProof : Signature)
    (hmax : expires ≤ maxCounter) :
    ∃ possession, adoptionBody ⟨cluster.data, grant.data, issuer.data, client.data, expires.toNat⟩ =
        .ok possession ∧
      encodeCbor (.array possession) =
        .ok (clientAdoptionBody cluster grant issuer client expires) ∧
      encodeCbor (.array [.string "rieul.cluster.pairing-adoption.v1",
        .bytes (clientAdoptionBody cluster grant issuer client expires), .bytes clientProof.data]) =
        .ok (issuerAdoptionBody cluster grant issuer client expires clientProof) := by
  have hle : expires.toNat ≤ 9007199254740991 := UInt64.le_iff_toNat_le.mp hmax
  have hcount : count (expires.toNat : ℤ) = .ok (expires.toNat : ℤ) := by
    refine (count_eq_ok _ _).mpr ⟨?_, rfl⟩
    simp only [IsSafeInteger, maxSafeInteger]
    omega
  have hlen := clientAdoptionBody_length cluster grant issuer client expires
  refine ⟨[.string "rieul.cluster.client-possession.v1", .bytes cluster.data, .bytes grant.data,
    .bytes issuer.data, .bytes client.data, .number expires.toNat], ?_, ?_, ?_⟩
  · simp [adoptionBody, hcount]
  · refine encode_array rfl (by norm_num) ?_
    exact encodeAll_cons (encode_title _ (by decide)) (encodeAll_cons (encode_id _)
      (encodeAll_cons (encode_id _) (encodeAll_cons (encode_id _) (encodeAll_cons (encode_id _)
        (encodeAll_cons (encode_number _ hmax) encodeAll_nil)))))
  · refine encode_array rfl (by norm_num) ?_
    exact encodeAll_cons (encode_title _ (by decide)) (encodeAll_cons (encode_bytes _ (by omega))
      (encodeAll_cons (encode_signature _) encodeAll_nil))

theorem Agrees.transition (h : Agrees cluster b s) {e : Entry} {u : State}
    {w : ClusterJournalEntry} (he : State.Effect s e u) (hop : w.operationId = e.operation.data) :
    ∃ t, Web.transition cluster.data b w (browserItems e.mutation) = .ok t ∧ Agrees cluster t u ∧
      t.hashes = b.hashes := by
  have hwf := h.wellFormed.effect he
  cases he with
  | admits id key consent endpoint hm hend hseen hkey =>
    obtain ⟨origin, horigin⟩ := endpoint_of_validate endpoint hend
    have hnew : ¬ (hexId id ∈ b.seen ∨ ∃ x ∈ b.members.entries, same x.2.nodePublicKey key.data) := by
      rw [h.seen_iff, h.key_used]
      intro hor
      rcases hor with hs | ⟨i, hi⟩
      · exact hseen hs
      · exact hkey i hi
    refine ⟨{ b with
      members := b.members.insert (hexId id) ⟨id.data, key.data, endpoint⟩
      seen := insert (hexId id) b.seen }, ?_, ?_, rfl⟩
    · rw [hm, browserItems, Web.transition, horigin, ok_bind, hex_data, ensure_of _ _ hnew]
      rfl
    · refine { h with wellFormed := hwf, members := ?_, seen := ?_ }
      · refine h.members.insert id _ fun j => ?_
        by_cases hj : j = id
        · rw [if_pos hj, hj]
          simp [memberOf]
        · simp [memberOf, hj]
      · rw [h.seen, Finset.image_insert]
  | removes id hm hp =>
    have hother : ¬ same id.data b.primary := by
      rw [same_iff, h.primary]
      exact fun heq => hp (Fixed.ext' heq)
    refine ⟨{ b with
      members := b.members.erase (hexId id)
      seen := insert (hexId id) b.seen }, ?_, ?_, rfl⟩
    · rw [hm, browserItems, Web.transition, hex_data, ensure_of _ _ hother]
      rfl
    · refine { h with wellFormed := hwf, members := ?_, seen := ?_ }
      · refine h.members.erase id fun j => ?_
        by_cases hj : j = id
        · rw [if_pos hj, hj]
          simp [memberOf]
        · simp [memberOf, hj]
      · rw [h.seen, Finset.image_insert]
  | adopts grant issuer client expires clientProof issuerProof issuerKey hm hissuer hgrant hrevoked
      hexpires hclient hproof =>
    obtain ⟨member, hmember, hkey⟩ := h.lookup issuer issuerKey hissuer
    obtain ⟨possession, hposs, henc, hissued⟩ :=
      adoption_bodies cluster grant issuer client expires clientProof hexpires
    rw [h.cluster] at hclient hproof
    have hclient' := (verify_of_encode client clientProof henc).mpr hclient
    have hproof' := (verify_of_encode issuerKey issuerProof hissued).mpr hproof
    have hnew : ¬ (hexId grant ∈ b.grants ∨ hexId grant ∈ b.revoked) := by
      rw [h.grants_iff, h.revoked_iff]
      exact not_or.mpr ⟨hgrant, hrevoked⟩
    refine ⟨{ b with grants := b.grants.insert (hexId grant) ⟨client.data, expires.toNat, issuer.data⟩ },
      ?_, ?_, rfl⟩
    · rw [hm, browserItems, Web.transition, hex_data, hex_data, ensure_of _ _ hnew, ok_bind, hmember,
        require_some, ok_bind, hposs, ok_bind, hclient', ok_bind, henc, ok_bind, hkey, hproof']
      rfl
    · refine { h with wellFormed := hwf, grants := ?_ }
      refine h.grants.insert grant _ fun j => ?_
      by_cases hj : j = grant
      · rw [if_pos hj, hj]
        simp [Grant.view, VerifiedGrant.view]
      · simp [hj]
  | revokes grant hm =>
    refine ⟨{ b with
      revoked := insert (hexId grant) b.revoked
      grants := b.grants.erase (hexId grant) }, ?_, ?_, rfl⟩
    · rw [hm, browserItems, Web.transition, hex_data]
    · refine { h with wellFormed := hwf, grants := ?_, revoked := ?_ }
      · refine h.grants.erase grant fun j => ?_
        by_cases hj : j = grant
        · rw [if_pos hj, hj]
          simp
        · simp [hj]
      · rw [h.revoked, Finset.image_insert]
  | transfers id key acceptance hm hp hmember hepoch hacc =>
    have hlt : s.epoch.toNat < 9007199254740991 := UInt64.lt_iff_toNat_lt.mp hepoch
    have hnext : (s.epoch + 1).toNat = s.epoch.toNat + 1 := by
      rw [UInt64.toNat_add, UInt64.toNat_one]
      omega
    have hcount : count ((s.epoch.toNat : ℤ) + 1) = .ok ((s.epoch.toNat : ℤ) + 1) := by
      refine (count_eq_ok _ _).mpr ⟨?_, rfl⟩
      simp only [IsSafeInteger, maxSafeInteger]
      omega
    have hcheck : ¬ (same id.data b.primary ∨
        ¬ same (((b.members.lookup (hexId id)).map ClusterMember.nodePublicKey).getD []) key.data ∨
        (s.sequence.toNat : ℤ) ≠ b.sequence ∨ ¬ same s.head.data b.previous) := by
      simp only [same_iff, h.primary, (h.member id key).mpr hmember, h.sequence, h.previous]
      simp only [Option.getD_some, ne_eq, not_true, or_false]
      exact fun heq => hp (Fixed.ext' heq)
    rw [h.cluster] at hacc
    have henc := encode_acceptance cluster e.operation id key s.head s.epoch s.sequence hepoch
      h.sequence_le
    have hacc' := (verify_of_encode key acceptance henc).mpr hacc
    refine ⟨{ b with primary := id.data, epoch := (s.epoch.toNat : ℤ) + 1 }, ?_, ?_, rfl⟩
    · rw [hm, browserItems, Web.transition, hex_data, ensure_of _ _ hcheck, ok_bind, hop, h.epoch,
        h.sequence, h.previous, hacc', ok_bind, hcount]
      rfl
    · refine { h with
        wellFormed := hwf
        primary := rfl
        epoch := ?_
        epoch_pos := by rw [hnext]; omega
        epoch_le := ?_ }
      · rw [hnext]
        rfl
      · rw [UInt64.le_iff_toNat_le, hnext]
        exact hlt

def EndpointChecked : Mutation → Prop
  | .Admit _ _ _ endpoint => validateEndpoint endpoint = .ok ()
  | _ => True

theorem Agrees.effect (h : Agrees cluster b s) (e : Entry) {t : Progress} {w : ClusterJournalEntry}
    (hop : w.operationId = e.operation.data) (hm : Encodable e.mutation)
    (hend : EndpointChecked e.mutation)
    (ht : Web.transition cluster.data b w (browserItems e.mutation) = .ok t) :
    ∃ u, State.Effect s e u := by
  cases hmut : e.mutation with
  | Admit id key consent endpoint =>
    rw [hmut, EndpointChecked] at hend
    simp only [hmut, browserItems, Web.transition, bind_eq_ok, exists_unit_iff, ensure_eq_ok] at ht
    obtain ⟨-, -, hnew, -⟩ := ht
    rw [hex_data, h.seen_iff, h.key_used, not_or] at hnew
    obtain ⟨hseen, hkey⟩ := hnew
    exact ⟨_, .admits id key consent endpoint hmut hend hseen fun j hj => hkey ⟨j, hj⟩⟩
  | Remove id =>
    simp only [hmut, browserItems, Web.transition, bind_unit_eq_ok, ensure_eq_ok, same_iff,
      h.primary] at ht
    exact ⟨_, .removes id hmut fun heq => ht.1 (congrArg Fixed.data heq)⟩
  | Adopt grant issuer client expires clientProof issuerProof =>
    rw [hmut] at hm
    obtain ⟨possession, hposs, henc, hissued⟩ :=
      adoption_bodies cluster grant issuer client expires clientProof hm
    simp only [hmut, browserItems, Web.transition, hex_data, bind_eq_ok, exists_unit_iff,
      ensure_eq_ok, not_or, h.grants_iff, h.revoked_iff, require_eq_ok, hposs, henc, Except.ok.injEq,
      exists_eq_left'] at ht
    obtain ⟨⟨hgrant, hrevoked⟩, member, hmember, hclient, hproof, -⟩ := ht
    obtain ⟨issuerKey, hissuer, hkey⟩ := h.of_lookup issuer member hmember
    rw [hkey] at hproof
    have hclient' := (verify_of_encode client clientProof henc).mp hclient
    have hproof' := (verify_of_encode issuerKey issuerProof hissued).mp hproof
    rw [← h.cluster] at hclient' hproof'
    exact ⟨_, .adopts grant issuer client expires clientProof issuerProof issuerKey hmut hissuer
      hgrant hrevoked hm hclient' hproof'⟩
  | Revoke grant => exact ⟨_, .revokes grant hmut⟩
  | Transfer id key prefixSequence prefixHash acceptance =>
    simp only [hmut, browserItems, Web.transition, hex_data, bind_eq_ok, exists_unit_iff,
      ensure_eq_ok, not_or, not_not, ne_eq, same_iff, count_eq_ok] at ht
    obtain ⟨⟨hp, hmember, hsequence, hprevious⟩, hacc, _, ⟨⟨hsafe, -⟩, -⟩, -⟩ := ht
    rw [h.primary] at hp
    rw [h.sequence] at hsequence
    rw [h.previous] at hprevious
    have hseq : prefixSequence = s.sequence := UInt64.toNat_inj.mp (by omega)
    have hhead : prefixHash = s.head := Fixed.ext' hprevious
    subst hseq hhead
    have hkey : s.members.lookup id = some key := by
      refine (h.member id key).mp ?_
      cases hl : (b.members.lookup (hexId id)).map ClusterMember.nodePublicKey with
      | none =>
        rw [hl, Option.getD_none] at hmember
        have hz := congrArg List.length hmember
        rw [key.size] at hz
        contradiction
      | some k =>
        rw [hl, Option.getD_some] at hmember
        rw [hmember]
    have hepoch : s.epoch < maxCounter := by
      have hmax : maxCounter.toNat = 9007199254740991 := rfl
      have hle := hsafe.2
      rw [h.epoch, maxSafeInteger] at hle
      rw [UInt64.lt_iff_toNat_lt]
      omega
    have henc := encode_acceptance cluster e.operation id key s.head s.epoch s.sequence hepoch
      h.sequence_le
    rw [hop, h.epoch, h.sequence, h.previous] at hacc
    have hacc' := (verify_of_encode key acceptance henc).mp hacc
    rw [← h.cluster] at hacc'
    exact ⟨_, .transfers id key acceptance hmut (fun heq => hp (congrArg Fixed.data heq)) hkey hepoch
      hacc'⟩

structure Converted (w : ClusterJournalEntry) (e : Entry) : Prop where
  cluster : w.clusterId = e.cluster.data
  epoch : w.managementEpoch.toInt = e.epoch.toNat
  sequence : w.sequence.toInt = e.sequence.toNat
  previous : w.previousHash = e.previous.data
  operation : w.operationId = e.operation.data
  request : w.requestHash = e.request.data
  mutation : Mutation.load w.mutation = .ok e.mutation
  signature : w.signature = e.signature.data

omit [Platform] in
theorem readId_eq_ok (raw : Str) (x : Id) : readId raw = .ok x ↔ raw = x.data := by
  rw [readId, require_eq_ok, Fixed.ofStr_eq_some]

omit [Platform] in
theorem Converted.of_entry {w : ClusterJournalEntry} {e : Entry} (h : entry w = .ok e) :
    Converted w e := by
  simp only [entry, readSignature, bind_eq_ok, exists_unit_iff, ensure_eq_ok, readId_eq_ok,
    counter_eq_ok, liftError_eq_ok, require_eq_ok, Fixed.ofStr_eq_some, pure_eq_ok] at h
  obtain ⟨-, cluster, hcluster, epoch, hepoch, sequence, hsequence, previous, hprevious, operation,
    hoperation, request, hrequest, mutation, hmutation, signature, hsignature, rfl⟩ := h
  exact ⟨hcluster, hepoch.2.1, hsequence.2.1, hprevious, hoperation, hrequest, hmutation, hsignature⟩

omit [Platform] in
theorem Converted.entry {w : ClusterJournalEntry} {e : Entry} (h : Converted w e)
    (hlen : w.mutation.length ≤ maxMutationBytes) (hepoch : 0 < e.epoch.toNat)
    (hepoch' : e.epoch ≤ maxCounter) (hsequence : 0 < e.sequence.toNat)
    (hsequence' : e.sequence ≤ maxCounter) : Cluster.entry w = .ok e := by
  have h1 := (counter_eq_ok w.managementEpoch e.epoch).mpr ⟨by rw [h.epoch]; omega, h.epoch, hepoch'⟩
  have h2 := (counter_eq_ok w.sequence e.sequence).mpr
    ⟨by rw [h.sequence]; omega, h.sequence, hsequence'⟩
  simp [Cluster.entry, readSignature, hlen, h1, h2, h.cluster, h.previous, h.operation, h.request,
    h.mutation, h.signature, readId_data]

theorem Agrees.advance {t : Progress} {u : State} (h : Agrees cluster t u) (e : Entry)
    (hashes : List Str) (hmax : e.sequence ≤ maxCounter) :
    Agrees cluster { t with
      previous := e.hash.data
      sequence := e.sequence.toNat
      hashes := hashes
      operations := insert (hexId e.operation) t.operations } (u.advance e) :=
  { h with
    operations := by rw [h.operations, State.advance, Finset.image_insert]
    sequence := rfl
    previous := rfl
    wellFormed := h.wellFormed.advance e
    sequence_le := hmax }

theorem encodable_of_effect {e : Entry} {u : State} (h : State.Effect s e u)
    (hmax : s.sequence ≤ maxCounter) : Encodable e.mutation := by
  cases h with
  | admits id key consent endpoint hm hend =>
    rw [hm]
    exact ((validateEndpoint_eq_ok endpoint ()).mp hend).1
  | removes id hm | revokes grant hm => rw [hm]; trivial
  | adopts grant issuer client expires clientProof issuerProof issuerKey hm _ _ _ hexpires =>
    rw [hm]
    exact hexpires
  | transfers id key acceptance hm =>
    rw [hm]
    exact hmax

theorem Agrees.verifyEntry [LawfulPlatform] (h : Agrees cluster b s) {e : Entry} {t : State}
    {w : ClusterJournalEntry} (hw : Converted w e) (hu : Unmarked e.mutation)
    (ha : s.apply e = .ok t) :
    ∃ b', Web.verifyEntry cluster.data b w = .ok b' ∧ Agrees cluster b' t ∧
      b'.hashes = b.hashes ++ [t.head.data] := by
  obtain ⟨hacc, u, heff, rfl⟩ := (State.apply_eq_ok s t e).mp ha
  have henc := encodable_of_effect heff h.sequence_le
  have hload := mutation_of_load w.mutation e.mutation hw.mutation hu henc
  have hcluster : e.cluster = cluster := hacc.cluster.trans h.cluster
  have hepoch : e.epoch ≤ maxCounter := by
    rw [hacc.epoch]
    exact h.epoch_le
  obtain ⟨key, hkey, hsigned⟩ := hacc.signed
  obtain ⟨issuer, hissuer, hissuerKey⟩ := h.lookup s.primary key hkey
  have hrequest := hash_request cluster e.operation e.epoch e.mutation hepoch henc
  have hbody := encode_managementBody e hepoch hacc.bound henc
  have hverify := (verify_of_encode key e.signature hbody).mpr hsigned
  have hhash := hash_entry e heff.storable
  obtain ⟨t', ht', hagree, hhashes⟩ := h.transition heff hw.operation
  have hhead : ¬ (¬ same e.cluster.data cluster.data ∨ (e.epoch.toNat : ℤ) ≠ b.epoch ∨
      (e.sequence.toNat : ℤ) ≠ b.sequence + 1) := by
    have hseq := hacc.sequence
    rw [hcluster, h.epoch, hacc.epoch, h.sequence]
    simp only [same_iff, not_true, ne_eq, false_or]
    omega
  have hprevious : same e.previous.data b.previous := by
    rw [same_iff, h.previous, hacc.previous]
  have hoperation : hex e.operation.data ∉ b.operations := by
    rw [hex_data, h.operations_iff]
    exact hacc.operation
  -- the locals that the transcripts are built from are the fields of the entry
  have hepochs : b.epoch = e.epoch.toNat := by rw [h.epoch, hacc.epoch]
  have hprev : b.previous = e.previous.data := by rw [h.previous, hacc.previous]
  have hrequests : requestHash cluster e.epoch e.operation e.mutation = e.request := by
    rw [hacc.request, hcluster]
  rw [hcluster] at hbody hverify
  rw [hrequests] at hrequest
  have hprimary : b.members.lookup (hex b.primary) = some issuer := by
    rw [h.primary]
    exact hissuer
  refine ⟨_, ?_, hagree.advance e (b.hashes ++ [e.hash.data]) hacc.bound, rfl⟩
  rw [Web.verifyEntry, hw.cluster, hw.epoch, hw.sequence, hw.previous, hw.operation, hw.request,
    hw.signature, checkedId_data, ok_bind, ensure_of _ _ hhead, ok_bind, checkedId_data, ok_bind,
    ensure_of _ _ hprevious, ok_bind, checkedId_data, ok_bind, ensure_of _ _ hoperation, ok_bind,
    hload, ok_bind, hepochs, hrequest, ok_bind, checkedId_data, ok_bind,
    ensure_of _ _ ((same_iff _ _).mpr rfl), ok_bind, hprimary, require_some, ok_bind, hissuerKey,
    hprev, hverify, ok_bind, ht', ok_bind, hbody, ok_bind, hhash, hhashes]
  rfl

def MarkedUnparsed : Prop :=
  ∀ t, (textBytes t).take 3 = byteOrderMark → Platform.parseUrl t = none

theorem unmarked_of_checked (hbom : MarkedUnparsed) {m : Mutation} (h : EndpointChecked m) :
    Unmarked m := by
  cases m with
  | Admit id key consent endpoint =>
    obtain ⟨-, url, hurl, -⟩ := (validateEndpoint_eq_ok endpoint ()).mp h
    intro hm
    rw [hbom endpoint hm] at hurl
    contradiction
  | _ => trivial

omit [Platform] in
theorem safe_sequence {epoch sequence : ℤ} {previous operation request encoded : Str}
    {m : List CborValue} {c : Str}
    (h : encodeCbor (.array (managementBody c epoch sequence previous operation request m)) =
      .ok encoded) : IsSafeInteger sequence := by
  simp only [managementBody, encodeCbor, encodeAll, bind_eq_ok, exists_unit_iff, ensure_eq_ok] at h
  obtain ⟨_, _, _, ⟨_, _, _, ⟨_, _, _, ⟨_, _, _, ⟨_, ⟨hsafe, _⟩, _⟩, _⟩, _⟩, _⟩, _⟩ := h
  exact hsafe

theorem unmarked_of_apply (hbom : MarkedUnparsed) {e : Entry} {t : State} (h : s.apply e = .ok t) :
    Unmarked e.mutation := by
  obtain ⟨-, u, heff, -⟩ := (State.apply_eq_ok s t e).mp h
  cases heff with
  | admits id key consent endpoint hm hend =>
    refine unmarked_of_checked hbom ?_
    rw [hm]
    exact hend
  | removes id hm | adopts grant issuer client expires clientProof issuerProof issuerKey hm
  | revokes grant hm | transfers id key acceptance hm => rw [hm]; trivial

theorem Agrees.apply [LawfulPlatform] (hbom : MarkedUnparsed) (h : Agrees cluster b s)
    {b' : Progress} {w : ClusterJournalEntry}
    (hend : ∀ m, Mutation.load w.mutation = .ok m → EndpointChecked m)
    (hb : Web.verifyEntry cluster.data b w = .ok b') :
    ∃ e t, entry w = .ok e ∧ s.apply e = .ok t ∧ Agrees cluster b' t := by
  have hloop := hb
  simp only [Web.verifyEntry, bind_eq_ok, exists_unit_iff, ensure_eq_ok, require_eq_ok, not_or,
    not_not, ne_eq, same_iff] at hloop
  obtain ⟨c, hc, ⟨hcluster, hepoch, hsequence⟩, p, hp, hprevious, o, ho, hoperation, items, hitems,
    r, hr, r', hr', hrequest, issuer, hissuer, hverify, t, ht, encoded, henc, -⟩ := hloop
  obtain ⟨cid, hcw, rfl⟩ := checkedId_eq_ok _ _ hc
  obtain ⟨pid, hpw, rfl⟩ := checkedId_eq_ok _ _ hp
  obtain ⟨op, how, rfl⟩ := checkedId_eq_ok _ _ ho
  obtain ⟨req, hrw, rfl⟩ := checkedId_eq_ok _ _ hr'
  obtain ⟨m, hload, hm⟩ := load_of_mutation w.mutation items hitems
  have hu := unmarked_of_checked hbom (hend m hload)
  obtain ⟨rfl, hencodable⟩ := hm hu
  -- the sequence number was encoded, so it is a counter
  have hsafe := safe_sequence henc
  have hpos : w.sequence.toInt = s.sequence.toNat + 1 := by rw [hsequence, h.sequence]
  obtain ⟨sequence, hseq, hmax⟩ := exists_counter w.sequence.toInt (by omega) hsafe.2
  obtain ⟨sig, hsig⟩ : ∃ sig : Signature, w.signature = sig.data := by
    simp only [Web.verify, bind_eq_ok, require_eq_ok, Fixed.ofStr_eq_some] at hverify
    obtain ⟨sig, hsig, -⟩ := hverify
    exact ⟨sig, hsig⟩
  let e : Entry := ⟨cluster, s.epoch, sequence, s.head, op, req, m, sig⟩
  have hw : Converted w e :=
    ⟨hcw.trans hcluster, by rw [hepoch, h.epoch], hseq, hpw.trans (hprevious.trans h.previous), how,
      hrw, hload, hsig⟩
  have hentry := hw.entry (load_length _ _ hload) h.epoch_pos h.epoch_le
    (show 0 < sequence.toNat by omega) hmax
  have hreq : req = requestHash cluster s.epoch op m := by
    rw [h.epoch, how, hash_request cluster op s.epoch m h.epoch_le hencodable] at hr
    exact Fixed.ext' (hrequest.symm.trans (Except.ok.inj hr).symm)
  obtain ⟨key, hkey, hissuerKey⟩ := h.of_lookup s.primary issuer (by rw [← hissuer, h.primary]; rfl)
  have hbody := encode_managementBody e h.epoch_le hmax hencodable
  have hsigned : Platform.verify key e.body sig = true := by
    refine (verify_of_encode key sig hbody).mp ?_
    rw [hissuerKey, h.epoch, hseq, h.previous, how, hsig, hrequest] at hverify
    exact hverify
  obtain ⟨u, heff⟩ := h.effect e how hencodable (hend m hload) ht
  have hacc : s.Accepts e := by
    have hnext : sequence.toNat = s.sequence.toNat + 1 := by omega
    refine ⟨h.cluster.symm, rfl, hnext, hmax, rfl, ?_, hreq, key, hkey, hsigned⟩
    rw [hex_data, h.operations_iff] at hoperation
    exact hoperation
  have happly : s.apply e = .ok (u.advance e) := (State.apply_eq_ok s _ e).mpr ⟨hacc, u, heff, rfl⟩
  obtain ⟨b'', hb'', hagree, -⟩ := h.verifyEntry hw hu happly
  rw [Except.ok.inj (hb.symm.trans hb'')]
  exact ⟨e, u.advance e, hentry, happly, hagree⟩

omit [Platform] in
theorem readEntries_forall₂ (ws : List ClusterJournalEntry) (es : List Entry) :
    readEntries ws = .ok es ↔ List.Forall₂ (fun e w => entry w = .ok e) es ws := by
  induction ws generalizing es with
  | nil =>
    simp only [readEntries, Except.ok.injEq, List.forall₂_nil_right_iff]
    exact eq_comm
  | cons w ws ih =>
    simp only [readEntries, bind_eq_ok, pure_eq_ok, ih, List.forall₂_cons_right_iff]
    constructor
    · intro h
      obtain ⟨e, he, es', hes, rfl⟩ := h
      exact ⟨e, es', he, hes, rfl⟩
    · intro h
      obtain ⟨e, es', he, hes, rfl⟩ := h
      exact ⟨e, he, es', hes, rfl⟩

omit [Platform] in
theorem budget (es : List Entry) (ws : List ClusterJournalEntry)
    (h : List.Forall₂ (fun e w => entry w = .ok e) es ws) :
    240 * (ws.map fun w => w.mutation.length + 256).sum ≤ 512 * size es := by
  induction h with
  | nil => simp [size]
  | @cons e w es ws he _ ih =>
    have hlen := load_storage_length _ _ (Converted.of_entry he).mutation
    have hbody := (body_length e).1
    simp only [size, List.map_cons, List.sum_cons] at ih ⊢
    omega

theorem clusterId_wireGenesis (g : Genesis) (h : (textBytes g.rootEndpoint).length ≤ 2048) :
    clusterId (wireGenesis g) = .ok g.cluster.data := by
  simp only [clusterId, wireGenesis, checkedId_data, ok_bind]
  refine hash_of_encode (encode_array rfl (by norm_num) ?_)
  exact encodeAll_cons (encode_title _ (by decide)) (encodeAll_cons (encode_id _)
    (encodeAll_cons (encode_id _) (encodeAll_cons (encode_id _)
      (encodeAll_cons (encode_string _ (Nat.le_trans h (by norm_num))) encodeAll_nil))))

theorem agrees_start (g : Genesis) :
    Agrees g.cluster (start g.cluster.data (wireGenesis g)) (State.genesis g) where
  cluster := rfl
  members := by
    refine (mirrors_empty id).insert g.root _ fun j => ?_
    by_cases hj : j = g.root
    · rw [if_pos hj, hj]
      simp [memberOf, State.genesis, wireGenesis, -AList.insert_empty]
    · simp [memberOf, State.genesis, hj, -AList.insert_empty]
  grants := mirrors_empty _
  seen := (Finset.image_singleton hexId g.root).symm
  revoked := rfl
  operations := rfl
  primary := rfl
  epoch := rfl
  sequence := rfl
  previous := rfl
  wellFormed := State.genesis_wellFormed g
  epoch_pos := by show 0 < (1 : UInt64).toNat; decide
  epoch_le := by show (1 : UInt64) ≤ maxCounter; decide
  sequence_le := by show (0 : UInt64) ≤ maxCounter; decide

structure Shows (v : VerifiedCluster) (s : State) : Prop where
  head : v.head = .ofWire (Cluster.head s)
  members : Mirrors v.members id (memberOf s)
  grants : Mirrors v.grants VerifiedGrant.view fun i => (s.grants.lookup i).map Grant.view

omit [Platform] in
theorem Agrees.head (h : Agrees cluster b s) :
    (⟨cluster.data, b.epoch, b.sequence, b.previous, b.primary⟩ : Head) =
      .ofWire (Cluster.head s) := by
  rw [Head.ofWire, Cluster.head, toInt_toInt64 _ h.epoch_le, toInt_toInt64 _ h.sequence_le, h.epoch,
    h.sequence, h.previous, h.primary, h.cluster]

omit [Platform] in
theorem Head.ofWire_inj {a b : ClusterHead} (h : Head.ofWire a = Head.ofWire b) : a = b := by
  cases a
  cases b
  simp only [Head.ofWire, Head.mk.injEq, Int64.toInt_inj] at h
  simp [h]

omit [Platform] in
theorem equalHead_iff (a b : Head) : equalHead a b ↔ a = b := by
  cases a
  cases b
  simp only [equalHead, same_iff, Head.mk.injEq]
  constructor
  · intro h
    exact ⟨h.2.2.1, h.1, h.2.1, h.2.2.2.1, h.2.2.2.2⟩
  · intro h
    exact ⟨h.2.1, h.2.2.1, h.1, h.2.2.2.1, h.2.2.2.2⟩

theorem genesis_eq_ok (w : ClusterGenesis) (g : Genesis) :
    genesis w = .ok g ↔ w = wireGenesis g ∧ validateEndpoint g.rootEndpoint = .ok () := by
  cases w
  simp only [genesis, bind_eq_ok, exists_unit_iff, readId_eq_ok, liftError_eq_ok, pure_eq_ok,
    wireGenesis, ClusterGenesis.mk.injEq]
  constructor
  · intro h
    obtain ⟨nonce, hnonce, root, hroot, key, hkey, hend, rfl⟩ := h
    exact ⟨⟨hnonce, hroot, hkey, rfl⟩, hend⟩
  · intro h
    obtain ⟨⟨hnonce, hroot, hkey, hend⟩, hvalid⟩ := h
    exact ⟨g.nonce, hnonce, g.root, hroot, g.rootKey, hkey, hend ▸ hvalid, by rw [hend]⟩

variable [LawfulPlatform]

theorem verifyHistory_of_decoded (hbom : MarkedUnparsed) (h : ClusterHistory) (g : Genesis)
    (es : List Entry) (hd : decodedHistory h g = .ok es) (hsize : size es ≤ maxSize) :
    ∃ s v, replay g es = .ok s ∧ verifyHistory h none = .ok v ∧ Shows v s := by
  obtain ⟨hlen, hg, hes, s, hs, hhead⟩ := decodedHistory_ok h g es hd
  obtain ⟨hgenesis, hroot⟩ := (genesis_eq_ok h.genesis g).mp hg
  have hentries := (readEntries_forall₂ h.entries es).mp hes
  have hlimits : ¬ (h.entries.length > 512 ∨
      (h.entries.map fun e => e.mutation.length + 256).sum > 512 * 1024) := by
    have hb := budget es h.entries hentries
    have hl := readEntries_length h.entries es hes
    have hmax : maxHistory = 512 := rfl
    have hbytes : maxSize = 240 * 1024 := rfl
    omega
  obtain ⟨origin, horigin⟩ := endpoint_of_validate _ hroot
  have hcluster := clusterId_wireGenesis g ((validateEndpoint_eq_ok _ _).mp hroot).1
  -- the browser's loop follows the replay entry by entry
  obtain ⟨b, hb, hagree⟩ := Replay.replay_simulates State.apply (verifyEntry g.cluster.data)
    (fun s b => Agrees g.cluster b s) (fun e w => entry w = .ok e)
    (fun s b t e w hr hw ha => by
      obtain ⟨b', hb', hagree, -⟩ := hr.verifyEntry (.of_entry hw) (unmarked_of_apply hbom ha) ha
      exact ⟨b', hb', hagree⟩)
    es h.entries (State.genesis g) s (start g.cluster.data h.genesis) hentries
    (hgenesis ▸ agrees_start g) hs
  refine ⟨s, ⟨.ofWire h.head, b.members, b.grants, b.hashes⟩, hs, ?_, ?_⟩
  · rw [← hgenesis] at hcluster
    have hroot' : h.genesis.rootEndpoint = g.rootEndpoint := by rw [hgenesis]; rfl
    rw [verifyHistory, verifyJournal, ensure_of _ _ hlimits, ok_bind, hroot', horigin, ok_bind,
      hcluster, ok_bind, hb, ok_bind]
    simp only [hagree.head, ← hhead]
    rw [ensure_of _ _ ((equalHead_iff _ _).mpr rfl)]
    rfl
  · exact ⟨by rw [hhead], hagree.members, hagree.grants⟩

theorem replay_of_verified (hbom : MarkedUnparsed) (h : ClusterHistory) (v : VerifiedCluster)
    (hv : verifyHistory h none = .ok v)
    (hend : ∀ w ∈ h.entries, ∀ m, Mutation.load w.mutation = .ok m → EndpointChecked m) :
    ∃ g es s, h.genesis = wireGenesis g ∧ readEntries h.entries = .ok es ∧ replay g es = .ok s ∧
      h.head = head s ∧ Shows v s := by
  simp only [verifyHistory, verifyJournal, bind_eq_ok, exists_unit_iff, ensure_eq_ok, pure_eq_ok] at hv
  obtain ⟨v', ⟨hlimits, origin, horigin, cluster, hcluster, b, hb, hequal, rfl⟩, rfl⟩ := hv
  -- the ids of the genesis have been checked
  obtain ⟨g, hgenesis⟩ : ∃ g, h.genesis = wireGenesis g := by
    simp only [clusterId, bind_eq_ok] at hcluster
    obtain ⟨nonce, hnonce, root, hroot, key, hkey, -⟩ := hcluster
    obtain ⟨n, hn, -⟩ := checkedId_eq_ok _ _ hnonce
    obtain ⟨r, hr, -⟩ := checkedId_eq_ok _ _ hroot
    obtain ⟨k, hk, -⟩ := checkedId_eq_ok _ _ hkey
    refine ⟨⟨n, r, k, h.genesis.rootEndpoint⟩, ?_⟩
    rw [wireGenesis, ← hn, ← hr, ← hk]
  have hlen : (textBytes g.rootEndpoint).length ≤ 2048 := by
    simp only [hgenesis, wireGenesis, endpoint, bind_eq_ok, exists_unit_iff, ensure_eq_ok] at horigin
    omega
  rw [hgenesis, clusterId_wireGenesis g hlen] at hcluster
  obtain rfl := Except.ok.inj hcluster
  rw [hgenesis] at hb
  obtain ⟨es, s, hes, hs, hagree⟩ := Replay.replay_reflects State.apply (verifyEntry g.cluster.data)
    (fun s b => Agrees g.cluster b s) (fun e w => entry w = .ok e)
    (fun w => ∀ m, Mutation.load w.mutation = .ok m → EndpointChecked m)
    (fun s b b' w hr hp hb => hr.apply hbom hp hb)
    h.entries (State.genesis g) _ b hend (agrees_start g) hb
  rw [hagree.head, equalHead_iff] at hequal
  exact ⟨g, es, s, hgenesis, (readEntries_forall₂ _ _).mpr hes, hs, (Head.ofWire_inj hequal).symm,
    hagree.head, hagree.members, hagree.grants⟩

theorem verifiers_agree (hbom : MarkedUnparsed) :
    (∀ (h : ClusterHistory) (g : Genesis) (es : List Entry), decodedHistory h g = .ok es →
      size es ≤ maxSize →
        ∃ s v, replay g es = .ok s ∧ verifyHistory h none = .ok v ∧ Shows v s) ∧
    (∀ (h : ClusterHistory) (v : VerifiedCluster), verifyHistory h none = .ok v →
      (∀ w ∈ h.entries, ∀ m, Mutation.load w.mutation = .ok m → EndpointChecked m) →
        ∃ g es s, h.genesis = wireGenesis g ∧ readEntries h.entries = .ok es ∧
          replay g es = .ok s ∧ h.head = head s ∧ Shows v s) :=
  ⟨verifyHistory_of_decoded hbom, replay_of_verified hbom⟩

end

section
attribute [local instance] residuePlatform residuePlatform_lawful

theorem residue_markedUnparsed : MarkedUnparsed := by
  intro t ht
  cases hb : textBytes t with
  | nil => simp [Platform.parseUrl, hb]
  | cons x rest =>
    rw [hb, byteOrderMark] at ht
    have hx : x = 0xef := (List.cons.inj ht).1
    simp [Platform.parseUrl, hb, hx]

theorem verifiers_agree_sample : ∃ s v, replay sampleGenesis [sampleRemove] = .ok s ∧
    verifyHistory (wireHistory sampleGenesis [sampleRemove] s) none = .ok v ∧ Shows v s ∧
    ∃ g es s', wireGenesis sampleGenesis = wireGenesis g ∧
      readEntries [wireEntry sampleRemove] = .ok es ∧ replay g es = .ok s' ∧ head s = head s' ∧
      Shows v s' := by
  have hrun : (replay sampleGenesis [sampleRemove]).toBool = true ∧
      (validateEndpoint sampleGenesis.rootEndpoint).toBool = true ∧
      size [sampleRemove] ≤ maxSize := by decide +kernel
  obtain ⟨s, hs⟩ := exists_of_toBool _ hrun.1
  obtain ⟨u, hend⟩ := exists_of_toBool _ hrun.2.1
  have hd := decodedHistory_wireHistory sampleGenesis [sampleRemove] s hend (by decide) hs
  obtain ⟨s', v, hs', hv, hshows⟩ :=
    (verifiers_agree residue_markedUnparsed).1 _ sampleGenesis [sampleRemove] hd hrun.2.2
  obtain rfl := Except.ok.inj (hs.symm.trans hs')
  refine ⟨s, v, hs, hv, hshows, ?_⟩
  refine (verifiers_agree residue_markedUnparsed).2 _ v hv ?_
  intro w hw m hm
  obtain rfl := List.mem_singleton.mp hw
  have hload : Mutation.load sampleRemove.mutation.storage = .ok sampleRemove.mutation :=
    Mutation.load_storage trivial
  obtain rfl := Except.ok.inj (hload.symm.trans hm)
  trivial

end

end Rieul.Web
