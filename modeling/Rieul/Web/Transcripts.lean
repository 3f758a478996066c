import Rieul.Web.Agreement
import Rieul.Web.Injective

/-!
# A head names its history

Each entry of a verified history is hashed together with the hash of the entry before it.
-/

namespace Rieul.Web
open Bytes Fallible Rieul.Cbor Rieul.Cluster
section
variable [Platform]

def genesisTranscript (g : ClusterGenesis) : Checked Str := do
  let nonce ← checkedId g.nonce
  let root ← checkedId g.rootAdmissionId
  let key ← checkedId g.rootPublicKey
  encodeCbor (.array [.string "rieul.cluster.genesis.v1", .bytes nonce, .bytes root, .bytes key,
    .string g.rootEndpoint])

def entryTranscript (cluster : Str) (s : Progress) (e : ClusterJournalEntry) : Checked Str := do
  let m ← mutation e.mutation
  let request ← hash (.array [.string "rieul.cluster.management-request.v1", .bytes cluster,
    .number s.epoch, .bytes e.operationId, .array m])
  let encoded ← encodeCbor (.array
    (managementBody cluster s.epoch e.sequence.toInt s.previous e.operationId request m))
  encodeCbor (.array [.bytes encoded, .bytes e.signature])

def progress (h : ClusterHistory) : Checked (Str × Progress) := do
  let cluster ← clusterId h.genesis
  let s ← Replay.replay (verifyEntry cluster) (start cluster h.genesis) h.entries
  pure (cluster, s)

def cut (h : ClusterHistory) (n : ℕ) : ClusterHistory := { h with entries := h.entries.take n }

def Extends (earlier later : ClusterHistory) : Prop :=
  earlier.entries.length ≤ later.entries.length ∧
    ∃ p, progress earlier = .ok p ∧ progress (cut later earlier.entries.length) = .ok p

inductive Hashed (h : ClusterHistory) : Str → Prop where
  | genesis (b : Str) (hb : genesisTranscript h.genesis = .ok b) : Hashed h b
  | entry (cluster : Str) (as : List ClusterJournalEntry) (e : ClusterJournalEntry) (s : Progress)
      (b : Str) (hp : as ++ [e] <+: h.entries) (hc : clusterId h.genesis = .ok cluster)
      (hs : Replay.replay (verifyEntry cluster) (start cluster h.genesis) as = .ok s)
      (hb : entryTranscript cluster s e = .ok b) : Hashed h b

def CollisionFree (known : Set ClusterHistory) : Prop :=
  ∀ h ∈ known, ∀ h' ∈ known, ∀ b b', Hashed h b → Hashed h' b' →
    Platform.hash b = Platform.hash b' → b = b'

theorem hash_eq_ok (v : CborValue) (x : Str) :
    hash v = .ok x ↔ ∃ b, encodeCbor v = .ok b ∧ x = (Platform.hash b).data := by
  simp only [hash, bind_eq_ok, pure_eq_ok, eq_comm (a := x)]

theorem clusterId_eq_ok (g : ClusterGenesis) (x : Str) :
    clusterId g = .ok x ↔ ∃ b, genesisTranscript g = .ok b ∧ x = (Platform.hash b).data := by
  simp only [clusterId, genesisTranscript, hash, bind_eq_ok, pure_eq_ok]
  constructor
  · intro h
    obtain ⟨nonce, hn, root, hr, key, hk, b, hb, rfl⟩ := h
    exact ⟨b, ⟨nonce, hn, root, hr, key, hk, hb⟩, rfl⟩
  · intro h
    obtain ⟨b, ⟨nonce, hn, root, hr, key, hk, hb⟩, rfl⟩ := h
    exact ⟨nonce, hn, root, hr, key, hk, b, hb, rfl⟩

theorem verifyEntry_ok (cluster : Str) (s t : Progress) (e : ClusterJournalEntry)
    (h : verifyEntry cluster s e = .ok t) : ∃ m u b, mutation e.mutation = .ok m ∧
      transition cluster s e m = .ok u ∧ entryTranscript cluster s e = .ok b ∧
      e.sequence.toInt = s.sequence + 1 ∧
      t = { u with
        previous := (Platform.hash b).data
        sequence := e.sequence.toInt
        hashes := u.hashes ++ [(Platform.hash b).data]
        operations := insert (hex e.operationId) u.operations } := by
  simp only [verifyEntry, bind_eq_ok, exists_unit_iff, ensure_eq_ok, hash_eq_ok, pure_eq_ok, not_or,
    not_not] at h
  obtain ⟨_, _, ⟨_, _, hseq⟩, _, _, _, _, _, _, m, hm, _, ⟨rb, hrb, rfl⟩, _, _, _, _, _, _, u, hu,
    encoded, hencoded, _, ⟨b, hb, rfl⟩, rfl⟩ := h
  refine ⟨m, u, b, hm, hu, ?_, hseq, rfl⟩
  simp only [entryTranscript, bind_eq_ok, hash_eq_ok]
  exact ⟨m, hm, _, ⟨rb, hrb, rfl⟩, encoded, hencoded, hb⟩

omit [Platform] in
theorem mutation_plain (raw : Str) (m : List CborValue) (h : mutation raw = .ok m) :
    CborValue.PlainItems m := by
  unfold mutation at h
  split at h
  · cases h
  · split_ifs at h with h0 h1 h2 h3
    all_goals
      simp only [bind_eq_ok, pure_eq_ok] at h
      obtain ⟨_, _, h⟩ := h
    · obtain ⟨_, _, rfl⟩ := h
      simp [CborValue.PlainItems, CborValue.Plain]
    · subst h
      simp [CborValue.PlainItems, CborValue.Plain]
    · obtain ⟨_, _, rfl⟩ := h
      simp [CborValue.PlainItems, CborValue.Plain]
    · obtain ⟨_, _, rfl⟩ := h
      simp [CborValue.PlainItems, CborValue.Plain]

theorem entryTranscript_inj (cluster cluster' : Str) (s s' : Progress) (e e' : ClusterJournalEntry)
    (b : Str) (h : entryTranscript cluster s e = .ok b) (h' : entryTranscript cluster' s' e' = .ok b) :
    cluster = cluster' ∧ e.sequence.toInt = e'.sequence.toInt ∧ s.previous = s'.previous ∧
      e.operationId = e'.operationId ∧ mutation e.mutation = mutation e'.mutation := by
  simp only [entryTranscript, bind_eq_ok] at h h'
  obtain ⟨m, hm, r, _, x, hx, hb⟩ := h
  obtain ⟨m', hm', r', _, x', hx', hb'⟩ := h'
  have hpair := encodeCbor_inj _ _ (by simp [CborValue.Plain, CborValue.PlainItems])
    (by simp [CborValue.Plain, CborValue.PlainItems]) b hb hb'
  simp only [CborValue.array.injEq, List.cons.injEq, CborValue.bytes.injEq, and_true] at hpair
  obtain ⟨rfl, _⟩ := hpair
  have hbody := encodeCbor_inj _ _
    (by simpa [managementBody, CborValue.Plain, CborValue.PlainItems] using mutation_plain _ m hm)
    (by simpa [managementBody, CborValue.Plain, CborValue.PlainItems] using mutation_plain _ m' hm')
    x hx hx'
  simp only [managementBody, CborValue.array.injEq, List.cons.injEq, CborValue.bytes.injEq,
    CborValue.number.injEq, and_true, true_and] at hbody
  obtain ⟨hcluster, _, hseq, hprevious, hoperation, _, rfl⟩ := hbody
  exact ⟨hcluster, hseq, hprevious, hoperation, hm.trans hm'.symm⟩

omit [Platform] in
theorem genesisTranscript_inj (g g' : ClusterGenesis) (b : Str) (h : genesisTranscript g = .ok b)
    (h' : genesisTranscript g' = .ok b) : g = g' := by
  simp only [genesisTranscript, bind_eq_ok] at h h'
  obtain ⟨n, hn, r, hr, k, hk, hb⟩ := h
  obtain ⟨n', hn', r', hr', k', hk', hb'⟩ := h'
  have heq := encodeCbor_inj _ _ (by simp [CborValue.Plain, CborValue.PlainItems])
    (by simp [CborValue.Plain, CborValue.PlainItems]) b hb hb'
  simp only [CborValue.array.injEq, List.cons.injEq, CborValue.bytes.injEq, CborValue.string.injEq,
    and_true, true_and] at heq
  obtain ⟨rfl, rfl, rfl, hendpoint⟩ := heq
  have hchecked : ∀ a c, checkedId a = .ok c → a = c := by
    intro a c hac
    obtain ⟨x, rfl, rfl⟩ := checkedId_eq_ok a c hac
    rfl
  cases g
  cases g'
  simp only at hn hr hk hn' hr' hk' hendpoint
  rw [hchecked _ _ hn, hchecked _ _ hr, hchecked _ _ hk, hchecked _ _ hn', hchecked _ _ hr',
    hchecked _ _ hk', hendpoint]

theorem transition_congr (cluster : Str) (s : Progress) (e e' : ClusterJournalEntry)
    (m : List CborValue) (h : e.operationId = e'.operationId) :
    transition cluster s e m = transition cluster s e' m := by
  unfold transition
  rw [h]

theorem transition_keeps (cluster : Str) (s u : Progress) (e : ClusterJournalEntry)
    (m : List CborValue) (h : transition cluster s e m = .ok u) :
    u.hashes = s.hashes ∧ ((∀ k ∈ s.grants, k ∉ s.revoked) → ∀ k ∈ u.grants, k ∉ u.revoked) := by
  unfold transition at h
  split at h
  · simp only [bind_eq_ok, pure_eq_ok] at h
    obtain ⟨_, _, _, _, rfl⟩ := h
    exact ⟨rfl, id⟩
  · simp only [bind_eq_ok, pure_eq_ok] at h
    obtain ⟨_, _, rfl⟩ := h
    exact ⟨rfl, id⟩
  · simp only [bind_eq_ok, pure_eq_ok] at h
    obtain ⟨_, _, _, _, _, _, rfl⟩ := h
    exact ⟨rfl, id⟩
  · simp only [bind_eq_ok, exists_unit_iff, ensure_eq_ok, not_or, pure_eq_ok] at h
    obtain ⟨⟨_, hno⟩, _, _, _, _, _, _, _, _, rfl⟩ := h
    refine ⟨rfl, ?_⟩
    intro hs k hk
    rcases AList.mem_insert _ |>.mp hk with rfl | hk
    · exact hno
    · exact hs k hk
  · cases h
    refine ⟨rfl, ?_⟩
    intro hs k hk
    obtain ⟨hne, hk⟩ := AList.mem_erase.mp hk
    intro hr
    rcases Finset.mem_insert.mp hr with rfl | hr
    · exact hne rfl
    · exact hs k hk hr
  · cases h
    exact ⟨rfl, id⟩

structure Looped (cluster : Str) (g : ClusterGenesis) (as : List ClusterJournalEntry) (s : Progress) :
    Prop where
  sequence : s.sequence = as.length
  length : s.hashes.length = as.length + 1
  hashes : ∀ k ≤ as.length, ∃ t, Replay.replay (verifyEntry cluster) (start cluster g) (as.take k) =
    .ok t ∧ s.hashes[k]? = some t.previous
  grants : ∀ k ∈ s.grants, k ∉ s.revoked

theorem looped (cluster : Str) (g : ClusterGenesis) (as : List ClusterJournalEntry) (s : Progress)
    (h : Replay.replay (verifyEntry cluster) (start cluster g) as = .ok s) :
    Looped cluster g as s := by
  refine Replay.replay_induction _ _ (Looped cluster g) ?_ ?_ as s h
  · refine ⟨rfl, rfl, ?_, ?_⟩
    · intro k hk
      obtain rfl : k = 0 := Nat.le_zero.mp hk
      exact ⟨_, rfl, rfl⟩
    · intro k hk
      cases hk
  · intro as t u e ht hl ha
    obtain ⟨m, v, b, _, htrans, _, hseq, rfl⟩ := verifyEntry_ok cluster t u e ha
    obtain ⟨hhashes, hgrants⟩ := transition_keeps cluster t v e m htrans
    constructor
    · simp only [List.length_append, List.length_singleton, hseq, hl.sequence]
      omega
    · simp only [List.length_append, List.length_singleton, hhashes, hl.length]
    · intro k hk
      rw [List.length_append, List.length_singleton] at hk
      by_cases hlast : k ≤ as.length
      · obtain ⟨w, hw, hget⟩ := hl.hashes k hlast
        refine ⟨w, ?_, ?_⟩
        · rw [List.take_append_of_le_length hlast]
          exact hw
        · rw [List.getElem?_append_left (by rw [hhashes, hl.length]; omega), hhashes]
          exact hget
      · obtain rfl : k = as.length + 1 := by omega
        have hall := (Replay.replay_snoc_eq_ok _ _ _ as e).mpr ⟨t, ht, ha⟩
        rw [List.take_of_length_le (by simp)]
        refine ⟨_, hall, ?_⟩
        rw [List.getElem?_append_right (by rw [hhashes, hl.length]), hhashes, hl.length]
        simp
    · exact hgrants hl.grants

theorem replay_unique {known : Set ClusterHistory} (hfree : CollisionFree known)
    {h h' : ClusterHistory} (hh : h ∈ known) (hh' : h' ∈ known) {cluster cluster' : Str}
    (hc : clusterId h.genesis = .ok cluster) (hc' : clusterId h'.genesis = .ok cluster')
    (as bs : List ClusterJournalEntry) (s t : Progress) (hlen : as.length = bs.length)
    (hp : as <+: h.entries) (hp' : bs <+: h'.entries)
    (hs : Replay.replay (verifyEntry cluster) (start cluster h.genesis) as = .ok s)
    (ht : Replay.replay (verifyEntry cluster') (start cluster' h'.genesis) bs = .ok t)
    (hprev : s.previous = t.previous) : cluster = cluster' ∧ s = t := by
  induction as using List.reverseRecOn generalizing bs s t with
  | nil =>
    obtain rfl : bs = [] := List.length_eq_zero_iff.mp hlen.symm
    cases hs
    cases ht
    have hcluster : cluster = cluster' := hprev
    subst hcluster
    obtain ⟨b, hb, heq⟩ := (clusterId_eq_ok _ _).mp hc
    obtain ⟨b', hb', heq'⟩ := (clusterId_eq_ok _ _).mp hc'
    have hbb := hfree h hh h' hh' b b' (.genesis b hb) (.genesis b' hb')
      (Fixed.ext' (heq.symm.trans heq'))
    subst hbb
    rw [genesisTranscript_inj _ _ b hb hb']
    exact ⟨rfl, rfl⟩
  | append_singleton as e ih =>
    have hne : bs ≠ [] := by
      intro hnil
      simp [hnil] at hlen
    obtain ⟨bs, e', rfl⟩ : ∃ cs e', bs = cs ++ [e'] :=
      ⟨bs.dropLast, bs.getLast hne, (List.dropLast_append_getLast hne).symm⟩
    obtain ⟨s0, hs0, hs⟩ := (Replay.replay_snoc_eq_ok _ _ _ as e).mp hs
    obtain ⟨t0, ht0, ht⟩ := (Replay.replay_snoc_eq_ok _ _ _ bs e').mp ht
    obtain ⟨m, u, b, hm, htrans, hb, _, rfl⟩ := verifyEntry_ok cluster s0 s e hs
    obtain ⟨m', u', b', hm', htrans', hb', _, rfl⟩ := verifyEntry_ok cluster' t0 t e' ht
    have hbb := hfree h hh h' hh' b b' (.entry cluster as e s0 b hp hc hs0 hb)
      (.entry cluster' bs e' t0 b' hp' hc' ht0 hb') (Fixed.ext' hprev)
    subst hbb
    obtain ⟨rfl, hseq, hprevious, hoperation, hmutation⟩ :=
      entryTranscript_inj cluster cluster' s0 t0 e e' b hb hb'
    have hlen0 : as.length = bs.length := by
      simpa using hlen
    obtain ⟨_, rfl⟩ := ih bs s0 t0 hlen0 ((List.prefix_append as [e]).trans hp)
      ((List.prefix_append bs [e']).trans hp') hs0 ht0 hprevious
    have hmm : m = m' := Except.ok.inj (hm.symm.trans (hmutation.trans hm'))
    subst hmm
    rw [transition_congr cluster s0 e e' m hoperation] at htrans
    have huu : u = u' := Except.ok.inj (htrans.symm.trans htrans')
    subst huu
    rw [hoperation, hseq]
    exact ⟨rfl, rfl⟩

theorem progress_eq_ok (h : ClusterHistory) (p : Str × Progress) :
    progress h = .ok p ↔ clusterId h.genesis = .ok p.1 ∧
      Replay.replay (verifyEntry p.1) (start p.1 h.genesis) h.entries = .ok p.2 := by
  simp only [progress, bind_eq_ok, pure_eq_ok]
  constructor
  · intro hp
    obtain ⟨cluster, hc, s, hs, rfl⟩ := hp
    exact ⟨hc, hs⟩
  · intro hp
    exact ⟨p.1, hp.1, p.2, hp.2, rfl⟩

theorem verifyJournal_ok (h : ClusterHistory) (v : VerifiedCluster) (hv : verifyJournal h = .ok v) :
    ∃ cluster s, progress h = .ok (cluster, s) ∧ v.head = .ofWire h.head ∧
      v.head = ⟨cluster, s.epoch, s.sequence, s.previous, s.primary⟩ ∧ v.members = s.members ∧
      v.grants = s.grants ∧ v.hashes = s.hashes := by
  simp only [verifyJournal, bind_eq_ok, exists_unit_iff, ensure_eq_ok, pure_eq_ok] at hv
  obtain ⟨_, _, _, cluster, hc, s, hs, hequal, rfl⟩ := hv
  exact ⟨cluster, s, (progress_eq_ok h _).mpr ⟨hc, hs⟩, (equalHead_iff _ _).mp hequal, rfl, rfl, rfl,
    rfl⟩

section
variable {known : Set ClusterHistory} (hfree : CollisionFree known) {h h' : ClusterHistory}
  (hh : h ∈ known) (hh' : h' ∈ known) {v v' : VerifiedCluster} (hv : verifyJournal h = .ok v)
  (hv' : verifyJournal h' = .ok v')
include known hfree h h' hh hh' v v' hv hv'

theorem extends_of_hash (hle : v.head.sequence ≤ v'.head.sequence)
    (hget : v'.hashes[v.head.sequence.toNat]? = some v.head.entryHash) : Extends h h' := by
  obtain ⟨cluster, s, hp, _, hhead, _⟩ := verifyJournal_ok h v hv
  obtain ⟨cluster', s', hp', _, hhead', _, _, hhashes'⟩ := verifyJournal_ok h' v' hv'
  obtain ⟨hc, hs⟩ := (progress_eq_ok h _).mp hp
  obtain ⟨hc', hs'⟩ := (progress_eq_ok h' _).mp hp'
  have hloop := looped cluster h.genesis h.entries s hs
  have hloop' := looped cluster' h'.genesis h'.entries s' hs'
  simp only [hhead, hhead', hloop.sequence, hloop'.sequence, hhashes', Int.toNat_natCast] at hle hget
  have hle' : h.entries.length ≤ h'.entries.length := by omega
  obtain ⟨t, ht, hget'⟩ := hloop'.hashes h.entries.length hle'
  have hprev : s.previous = t.previous := Option.some.inj (hget.symm.trans hget')
  obtain ⟨rfl, rfl⟩ := replay_unique hfree hh hh' hc hc' h.entries
    (h'.entries.take h.entries.length) s t (by rw [List.length_take, Nat.min_eq_left hle'])
    List.prefix_rfl (List.take_prefix _ _) hs ht hprev
  exact ⟨hle', _, hp, (progress_eq_ok _ _).mpr ⟨hc', ht⟩⟩

theorem progress_of_head (hequal : v.head = v'.head) :
    progress h = progress h' := by
  obtain ⟨cluster, s, hp, _, hhead, _⟩ := verifyJournal_ok h v hv
  obtain ⟨cluster', s', hp', _, hhead', _⟩ := verifyJournal_ok h' v' hv'
  obtain ⟨hc, hs⟩ := (progress_eq_ok h _).mp hp
  obtain ⟨hc', hs'⟩ := (progress_eq_ok h' _).mp hp'
  rw [hhead, hhead', Head.mk.injEq] at hequal
  obtain ⟨_, _, hseq, hprev, _⟩ := hequal
  rw [(looped _ _ _ _ hs).sequence, (looped _ _ _ _ hs').sequence] at hseq
  obtain ⟨rfl, rfl⟩ := replay_unique hfree hh hh' hc hc' h.entries h'.entries s s' (by omega)
    List.prefix_rfl List.prefix_rfl hs hs' hprev
  rw [hp, hp']

end

def Revoked (h : ClusterHistory) (grant : Str) : Prop :=
  ∃ p, progress h = .ok p ∧ hex grant ∈ p.2.revoked

theorem not_revoked (h : ClusterHistory) (v : VerifiedCluster) (hv : verifyJournal h = .ok v)
    (grant : Str) (hg : hex grant ∈ v.grants) : ¬ Revoked h grant := by
  intro hr
  obtain ⟨p, hp, hr⟩ := hr
  obtain ⟨cluster, s, hp', _, _, _, hgrants, _⟩ := verifyJournal_ok h v hv
  cases hp'.symm.trans hp
  obtain ⟨_, hs⟩ := (progress_eq_ok h _).mp hp
  rw [hgrants] at hg
  exact (looped _ _ _ _ hs).grants _ hg hr

end
end Rieul.Web
