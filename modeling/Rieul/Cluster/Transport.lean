import Rieul.Cluster.Message
import Rieul.Cluster.Receipts

/-!
# Every committable history can be transported

`append` bounds a journal by its transcripts, the boundary bounds a message by its bytes, items
and nesting.
-/

namespace Rieul.Cluster
open Bytes Fallible Cbor
open Mutation (blob)

section
variable [Platform]

/-- `history`. -/
def storeHistory (tx : Tables) (g : Genesis) : Except RuntimeError ClusterHistory := do
  let entries ← lift (load tx g.cluster)
  let state ← lift (replay g entries)
  pure (wireHistory g entries state)

def removes (admission : Id) (e : Entry) : Bool :=
  match e.mutation with
  | .Remove id => id = admission
  | _ => false

/-- `removal_proof`: the prefix that ends at the removal of the admission. -/
def removalProof (tx : Tables) (g : Genesis) (admission key : Id) :
    Except RuntimeError ClusterHistory := do
  let entries ← lift (load tx g.cluster)
  let last ← require .unauthorized (entries.findIdx? (removes admission))
  let before ← lift (replay g (entries.take last))
  ensure (before.members.lookup admission = some key) .unauthorized
  let state ← lift (replay g (entries.take (last + 1)))
  pure (wireHistory g (entries.take (last + 1)) state)

end

/-- A value that the boundary lets through with `bytes`, `items` and `levels` to spare. -/
structure Fits (v : Value) (bytes items levels : ℕ) : Prop where
  plain : v.Plain
  length : v.encode.length ≤ bytes
  count : v.count ≤ items
  depth : v.depth ≤ levels

theorem Fits.bounded {v : Value} {bytes items levels : ℕ} (h : Fits v bytes items levels)
    (hb : bytes ≤ maxRpcBytes) (hi : items ≤ 24000) (hl : levels ≤ 16) :
    boundedPayload v.encode = true :=
  boundedPayload_encode v h.plain (h.length.trans hb) (h.depth.trans hl) (h.count.trans hi)

theorem encodeI53_counter (n : UInt64) (h : n ≤ maxCounter) :
    encodeI53 n.toInt64 = .ok (.i64 n.toInt64) := by
  have hi := toInt_toInt64 n h
  have hle : n.toNat ≤ maxCounter.toNat := UInt64.le_iff_toNat_le.mp h
  have hm : maxCounter.toNat = 9007199254740991 := rfl
  have hr : -maxI53 ≤ n.toInt64.toInt ∧ n.toInt64.toInt ≤ maxI53 := by
    unfold maxI53
    omega
  rw [encodeI53, ensure_of _ _ hr]
  rfl

def entryValue (e : Entry) : Value :=
  .map [(1, blob e.cluster), (2, .i64 e.epoch.toInt64), (3, .i64 e.sequence.toInt64),
    (4, blob e.previous), (5, blob e.operation), (6, blob e.request), (7, .bytes e.mutation.storage),
    (8, blob e.signature)]

theorem encodeValue_wireEntry (e : Entry) (hepoch : e.epoch ≤ maxCounter)
    (hseq : e.sequence ≤ maxCounter) : (wireEntry e).encodeValue = .ok (entryValue e) := by
  simp [ClusterJournalEntry.encodeValue, wireEntry, encodeI53_counter _ hepoch,
    encodeI53_counter _ hseq, entryValue]

theorem entryValue_fits (e : Entry) (hs : e.mutation.storage.length ≤ maxMutationBytes) :
    Fits (entryValue e) (e.body.length + 128) 17 1 := by
  have hm : maxMutationBytes = 2145 := rfl
  have hbody := (body_length e).1
  constructor
  · have hlt : e.mutation.storage.length < 2 ^ 64 := by omega
    simpa [entryValue, Value.Plain, PlainEntries, Fixed.size] using hlt
  · have hepoch := i64_length e.epoch.toInt64
    have hsequence := i64_length e.sequence.toInt64
    have hmutation := bytes_length e.mutation.storage
    refine (map_length _).2.trans ?_
    simp (disch := decide) only [entries_cons_length, id_length, signature_length,
      entries_nil_length]
    omega
  · simp [entryValue, Value.count, countEntries]
  · simp [entryValue, Value.depth, depthEntries]

theorem genesis_fits (g : Genesis) (h : (textBytes g.rootEndpoint).length ≤ 2048) :
    Fits (wireGenesis g).encodeValue 2200 9 1 := by
  constructor
  · have hlt : (textBytes g.rootEndpoint).length < 2 ^ 64 := by omega
    simpa [ClusterGenesis.encodeValue, wireGenesis, Value.Plain, PlainEntries, Fixed.size] using hlt
  · have hendpoint := text_length g.rootEndpoint
    refine (map_length _).2.trans ?_
    simp (disch := decide) only [wireGenesis, entries_cons_length, id_length, entries_nil_length]
    omega
  · simp [ClusterGenesis.encodeValue, Value.count, countEntries]
  · simp [ClusterGenesis.encodeValue, Value.depth, depthEntries]

def headValue (s : State) : Value :=
  .map [(1, blob s.cluster), (2, .i64 s.epoch.toInt64), (3, .i64 s.sequence.toInt64),
    (4, blob s.head), (5, blob s.primary)]

theorem encodeValue_head (s : State) (hepoch : s.epoch ≤ maxCounter)
    (hseq : s.sequence ≤ maxCounter) : (head s).encodeValue = .ok (headValue s) := by
  simp [ClusterHead.encodeValue, head, encodeI53_counter _ hepoch, encodeI53_counter _ hseq,
    headValue]

theorem headValue_fits (s : State) : Fits (headValue s) 200 11 1 := by
  constructor
  · simp [headValue, Value.Plain, PlainEntries, Fixed.size]
  · have hepoch := i64_length s.epoch.toInt64
    have hsequence := i64_length s.sequence.toInt64
    refine (map_length _).2.trans ?_
    simp (disch := decide) only [entries_cons_length, id_length, entries_nil_length]
    omega
  · simp [headValue, Value.count, countEntries]
  · simp [headValue, Value.depth, depthEntries]

theorem encodeJournal_wireEntry (es : List Entry)
    (h : ∀ e ∈ es, e.epoch ≤ maxCounter ∧ e.sequence ≤ maxCounter) :
    encodeJournal (es.map wireEntry) = .ok (es.map entryValue) := by
  induction es with
  | nil => rfl
  | cons e es ih =>
    have he := h e List.mem_cons_self
    have hes := ih fun a ha => h a (List.mem_cons_of_mem e ha)
    simp [encodeJournal, encodeValue_wireEntry e he.1 he.2, hes]

section
variable (es : List Entry) (h : ∀ e ∈ es, e.mutation.storage.length ≤ maxMutationBytes)
include es h

/-- A wire entry costs no more than `append` counts for it. -/
theorem journal_length :
    (encodeItems (es.map entryValue)).length ≤ size es := by
  induction es with
  | nil => exact Nat.le_refl 0
  | cons e es ih =>
    have he := (entryValue_fits e (h e List.mem_cons_self)).length
    have hes := ih fun a ha => h a (List.mem_cons_of_mem e ha)
    simp only [size, List.map_cons, items_cons_length, List.sum_cons] at hes ⊢
    omega

theorem journal_fits :
    Fits (.array (es.map entryValue)) (size es + 9) (17 * es.length + 1) 2 := by
  constructor
  · exact plainItems_map entryValue es fun e he => (entryValue_fits e (h e he)).plain
  · have hlen := journal_length es h
    refine (array_length _).2.trans ?_
    omega
  · have hcount := countItems_map entryValue 17
      (fun e => by simp [entryValue, Value.count, countEntries]) es
    simp only [Value.count]
    omega
  · exact depthItems_map entryValue 1 (fun e => by simp [entryValue, Value.depth, depthEntries]) es

end

def historyValue (g : Genesis) (es : List Entry) (s : State) : Value :=
  .map [(1, (wireGenesis g).encodeValue), (2, .array (es.map entryValue)), (3, headValue s)]

theorem historyValue_fits (g : Genesis) (es : List Entry) (s : State)
    (hend : (textBytes g.rootEndpoint).length ≤ 2048)
    (h : ∀ e ∈ es, e.mutation.storage.length ≤ maxMutationBytes) :
    Fits (historyValue g es s) (size es + 2500) (17 * es.length + 30) 3 := by
  have hgenesis := genesis_fits g hend
  have hjournal := journal_fits es h
  have hhead := headValue_fits s
  constructor
  · exact ⟨hgenesis.plain, hjournal.plain, hhead.plain, True.intro⟩
  · have hg := hgenesis.length
    have hj := hjournal.length
    have hh := hhead.length
    refine (map_length _).2.trans ?_
    simp (disch := decide) only [entries_cons_length, entries_nil_length]
    omega
  · have hg := hgenesis.count
    have hj := hjournal.count
    have hh := hhead.count
    simp only [historyValue, Value.count, countEntries] at hg hj hh ⊢
    omega
  · have hg := hgenesis.depth
    have hj := hjournal.depth
    have hh := hhead.depth
    simp only [historyValue, Value.depth, depthEntries] at hg hj hh ⊢
    omega

section
variable {v : Value} {bytes items levels : ℕ} (h : Fits v bytes items levels)
include v bytes items levels h

theorem Fits.field :
    Fits (.map [(1, v)]) (bytes + 10) (items + 2) (levels + 1) := by
  have hl := h.length
  have hc := h.count
  have hd := h.depth
  constructor
  · exact ⟨h.plain, True.intro⟩
  · refine (map_length _).2.trans ?_
    simp (disch := decide) only [entries_cons_length, entries_nil_length]
    omega
  · simp only [Value.count, countEntries]
    omega
  · simp only [Value.depth, depthEntries]
    omega

theorem Fits.withOperation (operationId : Id) :
    Fits (.map [(1, blob operationId), (2, v)]) (bytes + 50) (items + 4) (levels + 1) := by
  have hl := h.length
  have hc := h.count
  have hd := h.depth
  constructor
  · have hplain : (blob operationId).Plain := by simp [Value.Plain, operationId.size]
    exact ⟨hplain, h.plain, True.intro⟩
  · refine (map_length _).2.trans ?_
    simp (disch := decide) only [entries_cons_length, entries_nil_length, id_length]
    omega
  · simp only [Value.count, countEntries]
    omega
  · simp only [Value.depth, depthEntries]
    omega

theorem Fits.variant
    (id : UInt64) : Fits (.array [.u64 id, v]) (bytes + 20) (items + 2) (levels + 1) := by
  have hl := h.length
  have hc := h.count
  have hd := h.depth
  have hid := u64_length id
  constructor
  · exact ⟨True.intro, h.plain, True.intro⟩
  · refine (array_length _).2.trans ?_
    simp only [items_cons_length, items_nil_length]
    omega
  · simp only [Value.count, countItems]
    omega
  · simp only [Value.depth, depthItems]
    omega

end

theorem Fits.mono {v : Value} {bytes items levels bytes' items' levels' : ℕ}
    (h : Fits v bytes items levels) (hb : bytes ≤ bytes') (hi : items ≤ items')
    (hl : levels ≤ levels') : Fits v bytes' items' levels' :=
  ⟨h.plain, h.length.trans hb, h.count.trans hi, h.depth.trans hl⟩

theorem carrier_fits (c : Carrier) (h : ClusterHistory) (v : Value) {bytes items levels : ℕ}
    (hv : h.encodeValue = .ok v) (hf : Fits v bytes items levels) :
    ∃ w, c.encodeValue h = .ok w ∧ Fits w (bytes + 50) (items + 4) (levels + 2) := by
  cases c with
  | clusterHistory =>
    exact ⟨v, by simp [Carrier.encodeValue, hv],
      hf.mono (by omega) (by omega) (by omega)⟩
  | finishClusterJoinReq operationId | activateClusterPrimaryReq operationId
  | configureClusterJoinSyncReq operationId =>
    exact ⟨_, by simp [Carrier.encodeValue, hv],
      (hf.withOperation operationId).mono (by omega) (by omega) (by omega)⟩
  | applyClusterHistoryReq =>
    exact ⟨_, by simp [Carrier.encodeValue, hv],
      hf.field.mono (by omega) (by omega) (by omega)⟩
  | accepted =>
    exact ⟨_, by simp [Carrier.encodeValue, hv],
      (hf.field.variant 1).mono (by omega) (by omega) (by omega)⟩

theorem peerResponse_fits (payload : Str) (h : payload.length < 2 ^ 64) :
    Fits (.map [(1, .bytes payload)]) (payload.length + 20) 3 1 := by
  have hl := bytes_length payload
  constructor
  · exact ⟨h, True.intro⟩
  · refine (map_length _).2.trans ?_
    simp (disch := decide) only [entries_cons_length, entries_nil_length]
    omega
  · simp [Value.count, countEntries]
  · simp [Value.depth, depthEntries]

theorem readId_length (b : Str) (x : Id) (h : readId b = .ok x) : b.length = 32 := by
  simp only [readId, require_eq_ok, Fixed.ofStr_eq_some] at h
  rw [h]
  exact x.size

theorem readCounter_i53 (n : Int64) (c : UInt64) (h : counter n = .ok c) :
    encodeI53 n = .ok (.i64 n) := by
  simp only [counter, bind_eq_ok, exists_unit_iff, ensure_eq_ok, pure_eq_ok, not_or] at h
  obtain ⟨⟨hpos, hmax⟩, rfl⟩ := h
  have hc := encodeI53_counter n.toUInt64 (UInt64.not_lt.mp hmax)
  rwa [Int64.toInt64_toUInt64] at hc

theorem originalPrincipal_fits (p : ClusterOriginalPrincipal) (v : Value) (h : p.body = .ok v) :
    Fits p.encodeValue 400 9 2 := by
  cases p with
  | LocalPairing clientId =>
    simp only [ClusterOriginalPrincipal.body, bind_eq_ok, exists_unit_iff, ensure_eq_ok,
      pure_eq_ok, not_or] at h
    have hl := text_length clientId
    have hlt : (textBytes clientId).length < 2 ^ 64 := by omega
    have htext : Fits (.text clientId) 265 1 0 :=
      ⟨hlt, by omega, by simp [Value.count], by simp [Value.depth]⟩
    exact (htext.field.variant 1).mono (by omega) (by omega) (by omega)
  | ClusterGrant clusterId grantId clientPublicKey =>
    simp only [ClusterOriginalPrincipal.body, bind_eq_ok, pure_eq_ok] at h
    obtain ⟨cluster, hcluster, grant, hgrant, client, hclient, -⟩ := h
    have h1 := readId_length _ _ hcluster
    have h2 := readId_length _ _ hgrant
    have h3 := readId_length _ _ hclient
    have hl1 := bytes_length clusterId
    have hl2 := bytes_length grantId
    have hl3 := bytes_length clientPublicKey
    have hfields : Fits (.map [(1, .bytes clusterId), (2, .bytes grantId),
        (3, .bytes clientPublicKey)]) 200 7 1 := by
      constructor
      · simp [Value.Plain, PlainEntries, h1, h2, h3]
      · refine (map_length _).2.trans ?_
        simp (disch := decide) only [entries_cons_length, entries_nil_length]
        omega
      · simp [Value.count, countEntries]
      · simp [Value.depth, depthEntries]
    exact (hfields.variant 2).mono (by omega) (by omega) (by omega)
  | Node =>
    have hfields : Fits (.map []) 10 1 0 :=
      ⟨True.intro, (map_length _).2.trans (by decide), by simp [Value.count, countEntries],
        by simp [Value.depth, depthEntries]⟩
    exact (hfields.variant 3).mono (by omega) (by omega) (by omega)

def peerRequestValue (r : ClusterPeerRequest) : Value :=
  .map [(1, .bytes r.clusterId), (2, .bytes r.senderAdmissionId), (3, .bytes r.senderPublicKey),
    (4, .bytes r.nonce), (5, .i64 r.connectionId), (6, .i64 r.procedureId), (7, .bytes r.payload),
    (8, r.originalPrincipal.encodeValue), (9, .bytes r.signature)]

theorem peerRequest_fits [Platform] (r : ClusterPeerRequest) (server : Id) (body : Str)
    (h : r.body server = .ok body) (hsig : r.signature.length = 64) :
    r.encodeValue = .ok (peerRequestValue r) ∧
      Fits (peerRequestValue r) (r.payload.length + 700) 27 3 := by
  simp only [ClusterPeerRequest.body, bind_eq_ok, exists_unit_iff, ensure_eq_ok, pure_eq_ok] at h
  obtain ⟨hpayload, cluster, hcluster, sender, hsender, key, hkey, nonce, hnonce, connection,
    hconnection, procedure, hprocedure, original, horiginal, -⟩ := h
  have hm : maxRpcBytes = 524288 := rfl
  have h1 := readId_length _ _ hcluster
  have h2 := readId_length _ _ hsender
  have h3 := readId_length _ _ hkey
  have h4 := readId_length _ _ hnonce
  have hf := originalPrincipal_fits _ _ horiginal
  have henc : r.encodeValue = .ok (peerRequestValue r) := by
    simp [ClusterPeerRequest.encodeValue, readCounter_i53 _ _ hconnection,
      readCounter_i53 _ _ hprocedure, peerRequestValue]
  refine ⟨henc, ?_⟩
  constructor
  · have hlt : r.payload.length < 2 ^ 64 := by omega
    simpa [peerRequestValue, Value.Plain, PlainEntries, h1, h2, h3, h4, hsig, hf.plain] using hlt
  · have hl1 := bytes_length r.clusterId
    have hl2 := bytes_length r.senderAdmissionId
    have hl3 := bytes_length r.senderPublicKey
    have hl4 := bytes_length r.nonce
    have hl5 := i64_length r.connectionId
    have hl6 := i64_length r.procedureId
    have hl7 := bytes_length r.payload
    have hl8 := hf.length
    have hl9 := bytes_length r.signature
    refine (map_length _).2.trans ?_
    simp (disch := decide) only [entries_cons_length, entries_nil_length]
    omega
  · have hc := hf.count
    simp only [peerRequestValue, Value.count, countEntries]
    omega
  · have hd := hf.depth
    simp only [peerRequestValue, Value.depth, depthEntries]
    omega

section
variable [Platform]

/-- `h` reaches every other node: whatever carries it passes the boundary, is decoded, and is
refused for its size by no node that could hold a journal itself. -/
structure Transportable (g : Genesis) (h : ClusterHistory) : Prop where
  carried (c : Carrier) : ∃ payload, c.encode h = .ok payload ∧ boundedPayload payload = true ∧
    boundedPayload (peerResponse payload) = true
  requested (c : Carrier) (r : ClusterPeerRequest) (server : Id) (body : Str) :
    c.encode h = .ok r.payload → r.body server = .ok body → r.signature.length = 64 →
      ∃ message, r.encode = .ok message ∧ boundedPayload message = true
  decoded : ∃ es, decodedHistory h g = .ok es ∧ ∀ (tx : Tables) (key : Id) (own : List Entry)
    (s : State), tx.Holds g own s → install tx g key es ≠ .error .limit

theorem checkIdentity_ne_limit (tx : Tables) (g : Genesis) (key : Id) :
    checkIdentity tx g key ≠ .error .limit := by
  unfold checkIdentity
  cases tx.identity with
  | none => exact fun h => nomatch h
  | some identity => exact ensure_ne_error _ _ _ fun _ h => nomatch h

omit [Platform] in
theorem insertEntry_ne_limit (tx : Tables) (e : Entry) : insertEntry tx e ≠ .error .limit :=
  bind_ne_error _ _ _ (ensure_ne_error _ _ _ fun _ h => nomatch h) fun _ _ h => nomatch h

omit [Platform] in
theorem installEntry_ne_limit (key : Id) (tx : Tables) (e : Entry) :
    installEntry key tx e ≠ .error .limit := by
  unfold installEntry
  cases e.mutation with
  | Transfer id target prefixSequence prefixHash acceptance =>
    simp only
    split_ifs
    · exact bind_ne_error _ _ _ (ensure_ne_error _ _ _ fun _ h => by cases h)
        fun _ _ => insertEntry_ne_limit _ e
    · exact insertEntry_ne_limit tx e
  | _ => exact insertEntry_ne_limit tx e

variable [LawfulPlatform]

theorem install_ne_limit (tx : Tables) (g : Genesis) (key : Id) (own es : List Entry) (s s' : State)
    (hold : tx.Holds g own s) (hlen : es.length ≤ maxHistory) (hsize : size es ≤ maxSize)
    (hreplay : replay g es = .ok s') : install tx g key es ≠ .error .limit := by
  unfold install
  simp only [ensure_of _ _ hlen, hold.load, hreplay, ensure_of _ _ hsize, ok_bind]
  refine bind_ne_error _ _ _ (checkIdentity_ne_limit tx g key) fun _ _ => ?_
  refine bind_ne_error _ _ _ (ensure_ne_error _ _ _ fun _ h => by cases h) fun _ _ => ?_
  exact Replay.replay_ne_error _ _ (installEntry_ne_limit key) tx _

/-- The limits of `append`, over a journal that replays. -/
theorem transportable_of_limits (g : Genesis) (hend : validateEndpoint g.rootEndpoint = .ok ())
    (es : List Entry) (s : State) (hreplay : replay g es = .ok s) (hlen : es.length ≤ maxHistory)
    (hsize : size es ≤ maxSize) : Transportable g (wireHistory g es s) := by
  have hendpoint := ((validateEndpoint_eq_ok _ _).mp hend).1
  have hstorage : ∀ e ∈ es, e.mutation.storage.length ≤ maxMutationBytes := fun e he =>
    storage_length e.mutation (replay_storable g es e s hreplay he)
  have hcounters : ∀ e ∈ es, e.epoch ≤ maxCounter ∧ e.sequence ≤ maxCounter := by
    intro e he
    obtain ⟨as, bs, t, u, -, ht, hu⟩ := replay_mem g es e s hreplay he
    have hacc := State.Accepts.of_apply hu
    exact ⟨hacc.epoch ▸ replay_epoch_le g as t ht, hacc.bound⟩
  have hvalue : (wireHistory g es s).encodeValue = .ok (historyValue g es s) := by
    simp [ClusterHistory.encodeValue, wireHistory, encodeJournal_wireEntry es hcounters,
      encodeValue_head s (replay_epoch_le g es s hreplay) (replay_sequence_bound g es s hreplay),
      historyValue]
  have hfits := historyValue_fits g es s hendpoint hstorage
  have hh : maxHistory = 512 := rfl
  have hs : maxSize = 245760 := rfl
  have hr : maxRpcBytes = 524288 := rfl
  -- every carrier is far from the 512 KiB
  have hcarrier : ∀ c : Carrier, ∃ w, c.encode (wireHistory g es s) = .ok w.encode ∧
      Fits w 250000 9000 5 := by
    intro c
    obtain ⟨w, hw, hfit⟩ := carrier_fits c _ _ hvalue hfits
    exact ⟨w, by simp [Carrier.encode, hw], hfit.mono (by omega) (by omega) (by omega)⟩
  constructor
  · intro c
    obtain ⟨w, hw, hfit⟩ := hcarrier c
    have hlen := hfit.length
    have hresponse := peerResponse_fits w.encode (by omega)
    exact ⟨w.encode, hw, hfit.bounded (by omega) (by omega) (by omega),
      hresponse.bounded (by omega) (by omega) (by omega)⟩
  · intro c r server body hc hbody hsig
    obtain ⟨w, hw, hfit⟩ := hcarrier c
    have hpayload : r.payload = w.encode := Except.ok.inj (hc.symm.trans hw)
    have hlen := hfit.length
    obtain ⟨henc, hrequest⟩ := peerRequest_fits r server body hbody hsig
    rw [hpayload] at hrequest
    exact ⟨_, by simp [ClusterPeerRequest.encode, henc],
      hrequest.bounded (by omega) (by omega) (by omega)⟩
  · refine ⟨es, decodedHistory_wireHistory g es s hend hlen hreplay, ?_⟩
    intro tx key own t hold
    exact install_ne_limit tx g key own es t s hold hlen hsize hreplay

omit [Platform] [LawfulPlatform] in
theorem size_mono (p es : List Entry) (h : p <+: es) : size p ≤ size es := by
  obtain ⟨rest, rfl⟩ := h
  simp [size]

/-- `append` and `install` keep the journal within the limits. -/
theorem Store.Step.size_le {g : Genesis} {pair : Platform.Secret} {tx t : Tables}
    (h : Store.Step g pair tx t) (es : List Entry) (s : State) (hold : tx.Holds g es s)
    (hid : checkIdentity tx g (Platform.publicKey pair) = .ok ()) (hsize : size es ≤ maxSize) :
    ∃ es' s', t.Holds g es' s' ∧ size es' ≤ maxSize := by
  obtain ⟨-, es', s', hold', -⟩ := h.grows es s hold hid
  refine ⟨es', s', hold', ?_⟩
  cases h with
  | commit epoch operation mutation e t happ =>
    obtain ⟨-, -, hcase⟩ := (append_eq_ok tx t g _ pair epoch operation mutation es s e hold).mp happ
    rcases hcase with ⟨-, -, rfl⟩ | hnew
    · rw [(hold'.unique hold).1]
      exact hsize
    · obtain ⟨u, -, hadded⟩ := hold.of_append hnew
      rw [(hold'.unique hadded).1]
      exact hnew.size_le
  | prepare operation mutation t hprep =>
    rw [(hold'.unique (hold.of_prepare hprep)).1]
    exact hsize
  | install entries t hinst =>
    obtain ⟨-, s'', hinstalled⟩ := hold.of_install hinst
    rw [(hold'.unique hinstalled).1]
    exact ((install_eq_ok tx t g _ es entries s hold).mp hinst).2.2.2.1
  | reopen =>
    have hopen : (openStore tx g (Platform.publicKey pair)).1 = tx :=
      createIdentity_of_check tx g _ hid
    rw [hopen] at hold'
    rw [(hold'.unique hold).1]
    exact hsize

theorem Store.Reached.size_le {g : Genesis} {pair : Platform.Secret} {tx : Tables}
    (h : Store.Reached g pair tx) : ∃ es s, tx.Holds g es s ∧ size es ≤ maxSize := by
  have hinv := h.invariant (fun t => checkIdentity t g (Platform.publicKey pair) = .ok () ∧
    ∃ es s, t.Holds g es s ∧ size es ≤ maxSize) ?_ ?_
  · exact hinv.2
  · intro t ht
    rw [ht]
    exact ⟨by simp [checkIdentity, createIdentity, Tables.empty], [], State.genesis g,
      ⟨rfl, Nat.zero_le _, rfl⟩, Nat.zero_le _⟩
  · intro t u ht hstep
    obtain ⟨hid, es, s, hold, hsize⟩ := ht
    obtain ⟨hidu, -⟩ := hstep.grows es s hold hid
    exact ⟨hidu, hstep.size_le es s hold hid hsize⟩

theorem committed_transportable (g : Genesis) (hend : validateEndpoint g.rootEndpoint = .ok ()) :
    (∀ es s, replay g es = .ok s → es.length ≤ maxHistory → size es ≤ maxSize →
      Transportable g (wireHistory g es s)) ∧
    ∀ (pair : Platform.Secret) (tx : Tables), Store.Reached g pair tx →
      (∃ history, storeHistory tx g = .ok history ∧ Transportable g history) ∧
      ∀ admission key proof, removalProof tx g admission key = .ok proof → Transportable g proof := by
  refine ⟨transportable_of_limits g hend, ?_⟩
  intro pair tx h
  obtain ⟨es, s, hold, hsize⟩ := h.size_le
  constructor
  · refine ⟨wireHistory g es s, ?_, transportable_of_limits g hend es s hold.replayed hold.bounded hsize⟩
    simp [storeHistory, hold.load, hold.replayed]
  · intro admission key proof hproof
    simp only [removalProof, bind_eq_ok, liftError_eq_ok, hold.load, Except.ok.injEq, exists_eq_left',
      require_eq_ok, exists_unit_iff, pure_eq_ok] at hproof
    obtain ⟨last, -, before, -, -, state, hstate, rfl⟩ := hproof
    have hp := List.take_prefix (last + 1) es
    exact transportable_of_limits g hend _ state hstate (hp.length_le.trans hold.bounded)
      ((size_mono _ es hp).trans hsize)

end

section
attribute [local instance] residuePlatform residuePlatform_lawful

def carriedJournal : List Entry := sampleJournal (State.genesis sampleGenesis)
  [(1, sampleAdmit 3 3), (1, sampleTransfer 3 3), (3, sampleTransfer 1 1),
    (1, fun _ => .Remove (Fixed.fill 32 3)), (1, fun _ => .Revoke (Fixed.fill 32 5))]

/-- Five entries replayed, and a store that committed two. -/
theorem committed_transportable_sample :
    (carriedJournal.length = 5 ∧ ∃ s, replay sampleGenesis carriedJournal = .ok s ∧
      Transportable sampleGenesis (wireHistory sampleGenesis carriedJournal s)) ∧
    ∃ tx history, tx.log.length = 2 ∧ storeHistory tx sampleGenesis = .ok history ∧
      Transportable sampleGenesis history := by
  obtain ⟨hvalid, hstores⟩ := committed_transportable sampleGenesis (by decide +kernel)
  obtain ⟨s, hs, -⟩ := exists_of_any (replay sampleGenesis carriedJournal).toOption
    (fun _ => true) (by decide +kernel)
  have hreplay := eq_ok_of_toOption hs
  refine ⟨⟨rfl, s, hreplay, hvalid carriedJournal s hreplay (by decide) (by decide +kernel)⟩, ?_⟩
  obtain ⟨⟨t, t'⟩, hrun, hlen⟩ := exists_of_any sampleCommits.toOption
    (fun p => p.2.log.length == 2) (by decide +kernel)
  have hrun' := eq_ok_of_toOption hrun
  simp only [sampleCommits, bind_eq_ok, pure_eq_ok, Prod.mk.injEq, Prod.exists] at hrun'
  obtain ⟨e, t1, h1, e', t2, h2, rfl, rfl⟩ := hrun'
  have hreach : Store.Reached sampleGenesis (1 : UInt8) t2 :=
    .next _ _ (.next _ _ (.start _ rfl) (.commit 1 _ _ e t1 h1)) (.commit 1 _ _ e' t2 h2)
  obtain ⟨⟨history, hh, htransport⟩, -⟩ := hstores (1 : UInt8) t2 hreach
  exact ⟨t2, history, by simpa using hlen, hh, htransport⟩

end

end Rieul.Cluster
