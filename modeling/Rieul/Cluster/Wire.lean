import Rieul.Cluster.StoreSpec

/-!
# Histories on the wire (daemon/host/src/cluster/primary/runtime.rs)

Wire messages carry byte strings of any length and signed counters. A history
is decoded against a known genesis: every entry is converted, the journal is
replayed, and the stated head must be the head of the replayed state.
-/

namespace Rieul.Cluster
open Bytes Fallible

inductive RuntimeError where
  | unauthorized
  | invalidProof
  | conflict
  | primaryUnavailable
  | alreadyAffiliated
  | retired
  | limit
  | invalidState
  | storage

/-- `From<Error> for RuntimeError`. -/
def Error.toRuntime : Error → RuntimeError
  | .invalid => .invalidProof
  | .conflict => .conflict
  | .notPrimary => .primaryUnavailable
  | .unprepared => .invalidState
  | .exhausted => .limit
  | .limit => .limit
  | .database => .storage

/-- The `?` operator on a journal operation inside the runtime. -/
abbrev lift {α : Type} (x : Except Error α) : Except RuntimeError α := liftError Error.toRuntime x

structure ClusterGenesis where
  nonce : Str
  rootAdmissionId : Str
  rootPublicKey : Str
  rootEndpoint : String

structure ClusterHead where
  clusterId : Str
  managementEpoch : Int64
  sequence : Int64
  entryHash : Str
  primaryAdmissionId : Str
  deriving DecidableEq

structure ClusterJournalEntry where
  clusterId : Str
  managementEpoch : Int64
  sequence : Int64
  previousHash : Str
  operationId : Str
  requestHash : Str
  mutation : Str
  signature : Str

structure ClusterHistory where
  genesis : ClusterGenesis
  entries : List ClusterJournalEntry
  head : ClusterHead

def maxMutationBytes : ℕ := 2145

/-- `id`. -/
def readId (bytes : Str) : Except RuntimeError Id := require .invalidProof (Fixed.ofStr 32 bytes)

def readSignature (bytes : Str) : Except RuntimeError Signature :=
  require .invalidProof (Fixed.ofStr 64 bytes)

def counter (value : Int64) : Except RuntimeError UInt64 := do
  ensure (¬ (value.toInt ≤ 0 ∨ value.toUInt64 > maxCounter)) .invalidProof
  pure value.toUInt64

def wireGenesis (g : Genesis) : ClusterGenesis :=
  ⟨g.nonce.data, g.root.data, g.rootKey.data, g.rootEndpoint⟩

def head (s : State) : ClusterHead :=
  ⟨s.cluster.data, s.epoch.toInt64, s.sequence.toInt64, s.head.data, s.primary.data⟩

def wireEntry (e : Entry) : ClusterJournalEntry :=
  ⟨e.cluster.data, e.epoch.toInt64, e.sequence.toInt64, e.previous.data, e.operation.data,
    e.request.data, e.mutation.storage, e.signature.data⟩

def entry (w : ClusterJournalEntry) : Except RuntimeError Entry := do
  ensure (w.mutation.length ≤ maxMutationBytes) .limit
  let cluster ← readId w.clusterId
  let epoch ← counter w.managementEpoch
  let sequence ← counter w.sequence
  let previous ← readId w.previousHash
  let operation ← readId w.operationId
  let request ← readId w.requestHash
  let mutation ← lift (Mutation.load w.mutation)
  let signature ← readSignature w.signature
  pure ⟨cluster, epoch, sequence, previous, operation, request, mutation, signature⟩

def readEntries : List ClusterJournalEntry → Except RuntimeError (List Entry)
  | [] => .ok []
  | w :: ws => do
    let e ← entry w
    let es ← readEntries ws
    pure (e :: es)

section
variable [Platform]

def genesis (w : ClusterGenesis) : Except RuntimeError Genesis := do
  let nonce ← readId w.nonce
  let root ← readId w.rootAdmissionId
  let rootKey ← readId w.rootPublicKey
  lift (validateEndpoint w.rootEndpoint)
  pure ⟨nonce, root, rootKey, w.rootEndpoint⟩

def decodedHistory (h : ClusterHistory) (g : Genesis) : Except RuntimeError (List Entry) := do
  ensure (h.entries.length ≤ maxHistory) .limit
  let g' ← genesis h.genesis
  ensure (g' = g) .invalidProof
  let entries ← readEntries h.entries
  let state ← lift (replay g entries)
  ensure (h.head = head state) .invalidProof
  pure entries

/-- The message that `history` answers for a replayed journal. -/
def wireHistory (g : Genesis) (entries : List Entry) (s : State) : ClusterHistory :=
  ⟨wireGenesis g, entries.map wireEntry, head s⟩

end

theorem toInt_toInt64 (n : UInt64) (hmax : n ≤ maxCounter) : n.toInt64.toInt = n.toNat := by
  have hle : n.toNat ≤ maxCounter.toNat := UInt64.le_iff_toNat_le.mp hmax
  have hm : maxCounter.toNat = 9007199254740991 := rfl
  have hb : n.toInt64.toInt = n.toBitVec.toInt := rfl
  have hn : n.toBitVec.toNat = n.toNat := rfl
  rw [hb, BitVec.toInt_eq_toNat_cond, hn, if_pos (by omega)]

theorem counter_toInt64 (n : UInt64) (hpos : 0 < n.toNat) (hmax : n ≤ maxCounter) :
    counter n.toInt64 = .ok n := by
  have hi := toInt_toInt64 n hmax
  have hp : ¬ (n.toInt64.toInt ≤ 0 ∨ n.toInt64.toUInt64 > maxCounter) := by
    rw [not_or, UInt64.toUInt64_toInt64, gt_iff_lt, UInt64.not_lt]
    exact ⟨by omega, hmax⟩
  rw [counter, ensure_of _ _ hp, ok_bind, UInt64.toUInt64_toInt64]
  rfl

theorem storage_length (m : Mutation) (h : m.Storable) : m.storage.length ≤ maxMutationBytes := by
  cases m with
  | Admit id key consent endpoint =>
    have hmax := h.2
    simp only [Mutation.storage, List.length_append, List.length_cons, id.size, key.size,
      consent.size, maxMutationBytes]
    omega
  | Remove id => simp [Mutation.storage, id.size, maxMutationBytes]
  | Adopt grant issuer client expires clientProof issuerProof =>
    simp [Mutation.storage, grant.size, issuer.size, client.size, clientProof.size, issuerProof.size,
      maxMutationBytes]
  | Revoke grant => simp [Mutation.storage, grant.size, maxMutationBytes]
  | Transfer id key prefixSequence prefixHash acceptance =>
    simp [Mutation.storage, id.size, key.size, prefixHash.size, acceptance.size, maxMutationBytes]

theorem entry_wireEntry (e : Entry) (hs : e.mutation.Storable) (hepoch : 0 < e.epoch.toNat)
    (hepoch' : e.epoch ≤ maxCounter) (hseq : 0 < e.sequence.toNat)
    (hseq' : e.sequence ≤ maxCounter) : entry (wireEntry e) = .ok e := by
  have hl : e.mutation.storage.length ≤ maxMutationBytes := storage_length e.mutation hs
  simp [entry, wireEntry, readId, readSignature, counter_toInt64, hl, hepoch, hepoch', hseq, hseq',
    Mutation.load_storage hs]

section
variable [Platform]

omit [Platform] in
theorem State.Counts.epoch_pos {es : List Entry} {s : State} (h : Counts es s) :
    0 < s.epoch.toNat := by
  rw [h.epoch]
  omega

theorem replay_epoch_le (g : Genesis) (es : List Entry) (s : State) (h : replay g es = .ok s) :
    s.epoch ≤ maxCounter := by
  refine Replay.replay_invariant State.apply (fun s => s.epoch ≤ maxCounter) ?_ es _ s ?_ h
  · intro t u e ht ha
    obtain ⟨-, v, hv, rfl⟩ := (State.apply_eq_ok t u e).mp ha
    cases hv with
    | transfers id key acceptance hm hp hmember hepoch hacc =>
      have hlt := UInt64.lt_iff_toNat_lt.mp hepoch
      have hm : maxCounter.toNat = 9007199254740991 := rfl
      apply UInt64.le_iff_toNat_le.mpr
      simp only [State.advance, UInt64.toNat_add, UInt64.toNat_one]
      omega
    | _ => exact ht
  · show (1 : UInt64) ≤ maxCounter
    decide

theorem replay_sequence_bound (g : Genesis) (es : List Entry) (s : State)
    (h : replay g es = .ok s) : s.sequence ≤ maxCounter := by
  refine Replay.replay_invariant State.apply (fun s => s.sequence ≤ maxCounter) ?_ es _ s ?_ h
  · intro t u e _ ha
    obtain ⟨hacc, v, -, rfl⟩ := (State.apply_eq_ok t u e).mp ha
    exact hacc.bound
  · show (0 : UInt64) ≤ maxCounter
    decide

variable [LawfulPlatform]

theorem replay_entry_wire (g : Genesis) (es : List Entry) (s : State) (h : replay g es = .ok s)
    (e : Entry) (he : e ∈ es) : entry (wireEntry e) = .ok e := by
  have hstor := replay_storable g es e s h he
  obtain ⟨as, bs, t, u, -, ht, hu⟩ := replay_mem g es e s h he
  have hacc := State.Accepts.of_apply hu
  have hcounts := replay_counts g as t ht
  refine entry_wireEntry e hstor ?_ ?_ ?_ hacc.bound
  · rw [hacc.epoch]
    exact hcounts.epoch_pos
  · rw [hacc.epoch]
    exact replay_epoch_le g as t ht
  · rw [hacc.sequence]
    omega

omit [Platform] [LawfulPlatform] in
theorem readEntries_map (es : List Entry) (h : ∀ e ∈ es, entry (wireEntry e) = .ok e) :
    readEntries (es.map wireEntry) = .ok es := by
  induction es with
  | nil => rfl
  | cons e es ih =>
    have he := h e List.mem_cons_self
    have hes := ih fun a ha => h a (List.mem_cons_of_mem e ha)
    simp [readEntries, he, hes]

omit [LawfulPlatform] in
theorem genesis_wireGenesis (g : Genesis) (h : validateEndpoint g.rootEndpoint = .ok ()) :
    genesis (wireGenesis g) = .ok g := by
  simp [genesis, wireGenesis, readId, h]

theorem decodedHistory_wireHistory (g : Genesis) (es : List Entry) (s : State)
    (hend : validateEndpoint g.rootEndpoint = .ok ()) (hlen : es.length ≤ maxHistory)
    (h : replay g es = .ok s) : decodedHistory (wireHistory g es s) g = .ok es := by
  have hes := readEntries_map es fun e he => replay_entry_wire g es s h e he
  simp [decodedHistory, wireHistory, hlen, genesis_wireGenesis g hend, hes, h]

omit [Platform] [LawfulPlatform] in
theorem readEntries_length (ws : List ClusterJournalEntry) (es : List Entry)
    (h : readEntries ws = .ok es) : es.length = ws.length := by
  induction ws generalizing es with
  | nil =>
    cases h
    rfl
  | cons w ws ih =>
    simp only [readEntries, bind_eq_ok, pure_eq_ok] at h
    obtain ⟨e, -, as, has, rfl⟩ := h
    simp [ih as has]

omit [LawfulPlatform] in
theorem decodedHistory_ok (h : ClusterHistory) (g : Genesis) (es : List Entry)
    (hd : decodedHistory h g = .ok es) :
    es.length ≤ maxHistory ∧ genesis h.genesis = .ok g ∧ readEntries h.entries = .ok es ∧
      ∃ s, replay g es = .ok s ∧ h.head = head s := by
  simp only [decodedHistory, bind_eq_ok, exists_unit_iff, ensure_eq_ok, liftError_eq_ok, pure_eq_ok]
    at hd
  obtain ⟨hlen, g', hg, rfl, es', hes, s, hs, hhead, rfl⟩ := hd
  exact ⟨readEntries_length _ _ hes ▸ hlen, hg, hes, s, hs, hhead⟩

end

end Rieul.Cluster
