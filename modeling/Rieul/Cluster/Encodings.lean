import Rieul.Cluster.Wire

/-!
# One encoding of every entry (daemon/host/src/cluster/primary.rs, primary/runtime.rs)

What `load` accepts is the storage form of the mutation that it yields, and what `entry`
accepts is the wire form of its entry: nothing on the way between nodes can change the
bytes that a signature covers.
-/

namespace Rieul.Cluster
open Bytes Fallible Cbor

namespace Mutation

theorem field_eq_ok {n start : ℕ} {bytes : Str} {x : Fixed n} (h : field n start bytes = .ok x) :
    x.data = (bytes.drop start).take n := by
  unfold field at h
  rw [require_eq_ok, Fixed.ofStr_eq_some] at h
  exact h.symm

theorem counter_bytes {start : ℕ} {bytes : Str} (h : start + 8 ≤ bytes.length) :
    beBytes 8 (counter start bytes).toNat = (bytes.drop start).take 8 := by
  have hlength : ((bytes.drop start).take 8).length = 8 := by
    rw [List.length_take, List.length_drop]
    omega
  have hlt := beNat_lt ((bytes.drop start).take 8)
  rw [hlength] at hlt
  have hback := beBytes_beNat ((bytes.drop start).take 8)
  rw [hlength] at hback
  rw [counter, UInt64.toNat_ofNat_of_lt' hlt, hback]

theorem of_head {bytes : Str} {tag : UInt8} (h : bytes.head? = some tag) :
    bytes = tag :: bytes.drop 1 := by
  cases bytes with
  | nil => cases h
  | cons b bytes =>
    cases h
    rfl

theorem drop_take (bytes : Str) (start n stop : ℕ) (h : start + n = stop) :
    bytes.drop start = (bytes.drop start).take n ++ bytes.drop stop := by
  rw [← h, ← List.drop_drop, List.take_append_drop]

theorem storage_load {bytes : Str} {m : Mutation} (h : load bytes = .ok m) : m.storage = bytes := by
  unfold load at h
  split at h
  · rename_i hshape
    simp only [bind_eq_ok, pure_eq_ok, require_eq_ok] at h
    obtain ⟨id, hid, key, hkey, consent, hconsent, endpoint, hendpoint, rfl⟩ := h
    rw [storage, field_eq_ok hid, field_eq_ok hkey, field_eq_ok hconsent,
      fromUTF8_eq_some _ _ hendpoint]
    conv_rhs => rw [of_head hshape.1, drop_take bytes 1 32 33 rfl, drop_take bytes 33 32 65 rfl,
      drop_take bytes 65 32 97 rfl]
    simp only [List.cons_append, List.append_assoc]
  split at h
  · rename_i hshape
    simp only [bind_eq_ok, pure_eq_ok] at h
    obtain ⟨id, hid, rfl⟩ := h
    have hend : (bytes.drop 1).take 32 = bytes.drop 1 := List.take_of_length_le (by simp [hshape.2])
    rw [storage, field_eq_ok hid, hend]
    exact (of_head hshape.1).symm
  split at h
  · rename_i hshape
    simp only [bind_eq_ok, pure_eq_ok] at h
    obtain ⟨id, hid, key, hkey, prefixHash, hprefix, acceptance, hacceptance, rfl⟩ := h
    have hend : (bytes.drop 105).take 64 = bytes.drop 105 :=
      List.take_of_length_le (by simp [hshape.2])
    rw [storage, field_eq_ok hid, field_eq_ok hkey, counter_bytes (by omega),
      field_eq_ok hprefix, field_eq_ok hacceptance, hend]
    conv_rhs => rw [of_head hshape.1, drop_take bytes 1 32 33 rfl, drop_take bytes 33 32 65 rfl,
      drop_take bytes 65 8 73 rfl, drop_take bytes 73 32 105 rfl]
    simp only [List.cons_append, List.append_assoc]
  split at h
  · rename_i hshape
    simp only [bind_eq_ok, pure_eq_ok] at h
    obtain ⟨grant, hgrant, issuer, hissuer, client, hclient, clientProof, hproof, issuerProof,
      hissued, rfl⟩ := h
    have hend : (bytes.drop 169).take 64 = bytes.drop 169 :=
      List.take_of_length_le (by simp [hshape.2])
    rw [storage, field_eq_ok hgrant, field_eq_ok hissuer, field_eq_ok hclient,
      counter_bytes (by omega), field_eq_ok hproof, field_eq_ok hissued, hend]
    conv_rhs => rw [of_head hshape.1, drop_take bytes 1 32 33 rfl, drop_take bytes 33 32 65 rfl,
      drop_take bytes 65 32 97 rfl, drop_take bytes 97 8 105 rfl, drop_take bytes 105 64 169 rfl]
    simp only [List.cons_append, List.append_assoc]
  split at h
  · rename_i hshape
    simp only [bind_eq_ok, pure_eq_ok] at h
    obtain ⟨grant, hgrant, rfl⟩ := h
    have hend : (bytes.drop 1).take 32 = bytes.drop 1 := List.take_of_length_le (by simp [hshape.2])
    rw [storage, field_eq_ok hgrant, hend]
    exact (of_head hshape.1).symm
  · cases h

theorem load_storage_iff (m : Mutation) : load m.storage = .ok m ↔ m.Storable := by
  constructor
  · intro h
    cases m with
    | Admit id key consent endpoint =>
      have hl : (storage (.Admit id key consent endpoint)).length =
          97 + (textBytes endpoint).length := by
        simp [storage, id.size, key.size, consent.size]
        omega
      have hhead : (storage (.Admit id key consent endpoint)).head? = some 0 := rfl
      unfold load at h
      simp only [hhead, hl, Option.some.injEq, true_and] at h
      split at h
      · rename_i hbounds
        exact ⟨by omega, by omega⟩
      · simp at h
    | _ => trivial
  · exact load_storage

end Mutation

theorem counter_eq_ok {value : Int64} {n : UInt64} (h : counter value = .ok n) :
    n.toInt64 = value ∧ 0 < n.toNat ∧ n ≤ maxCounter := by
  unfold counter at h
  simp only [bind_unit_eq_ok, ensure_eq_ok, pure_eq_ok, not_or, gt_iff_lt, UInt64.not_lt] at h
  obtain ⟨⟨hpos, hmax⟩, rfl⟩ := h
  refine ⟨by simp, ?_, hmax⟩
  have hint := toInt_toInt64 value.toUInt64 hmax
  rw [Int64.toInt64_toUInt64] at hint
  omega

theorem wireEntry_entry {w : ClusterJournalEntry} {e : Entry} (h : entry w = .ok e) :
    wireEntry e = w := by
  unfold entry readId readSignature at h
  simp only [bind_eq_ok, exists_const, ensure_eq_ok, require_eq_ok, Fixed.ofStr_eq_some,
    liftError_eq_ok, pure_eq_ok] at h
  obtain ⟨_, cluster, hcluster, epoch, hepoch, sequence, hsequence, previous, hprevious,
    operation, hoperation, request, hrequest, mutation, hmutation, signature, hsignature, rfl⟩ := h
  cases w
  simp only [wireEntry, ClusterJournalEntry.mk.injEq]
  exact ⟨hcluster.symm, (counter_eq_ok hepoch).1, (counter_eq_ok hsequence).1, hprevious.symm,
    hoperation.symm, hrequest.symm, Mutation.storage_load hmutation, hsignature.symm⟩

def transfer (e : Entry) : Except RuntimeError Entry := do
  let stored ← lift (e.row.load e.cluster)
  entry (wireEntry stored)

def transfers : ℕ → Entry → Except RuntimeError Entry
  | 0, e => .ok e
  | n + 1, e => do
    let received ← transfer e
    transfers n received

theorem transfers_of_storable {e : Entry} (hs : e.mutation.Storable) (h : entry (wireEntry e) = .ok e)
    (n : ℕ) : transfers n e = .ok e := by
  induction n with
  | zero => rfl
  | succ n ih =>
    have hrow : transfer e = .ok e := by
      simp [transfer, Entry.row_load e hs, h]
    simp [transfers, hrow, ih]

section
variable [Platform]

theorem apply_transfers [LawfulPlatform] {g : Genesis} {es : List Entry} {s t : State} {e : Entry}
    (hs : replay g es = .ok s) (ha : s.apply e = .ok t) : entry (wireEntry e) = .ok e := by
  have hreplay : replay g (es ++ [e]) = .ok t :=
    (Replay.replay_snoc_eq_ok State.apply _ t es e).mpr ⟨s, hs, ha⟩
  exact replay_entry_wire g (es ++ [e]) t hreplay e (by simp)

theorem encodings_canonical [LawfulPlatform] :
    (∀ (s t : State) (e : Entry), s.apply e = .ok t → e.mutation.Storable) ∧
    (∀ m : Mutation, Mutation.load m.storage = .ok m ↔ m.Storable) ∧
    (∀ bytes m, Mutation.load bytes = .ok m → m.storage = bytes) ∧
    (∀ (g : Genesis) es s t e, replay g es = .ok s → s.apply e = .ok t →
      entry (wireEntry e) = .ok e ∧ ∀ n received, transfers n e = .ok received ↔ received = e) ∧
    ∀ w e, entry w = .ok e → wireEntry e = w := by
  refine ⟨?_, Mutation.load_storage_iff, fun bytes m => Mutation.storage_load, ?_,
    fun w e => wireEntry_entry⟩
  · intro s t e ha
    obtain ⟨-, u, hu, -⟩ := (State.apply_eq_ok s t e).mp ha
    exact hu.storable
  · intro g es s t e hs ha
    have hwire := apply_transfers hs ha
    obtain ⟨-, u, hu, -⟩ := (State.apply_eq_ok s t e).mp ha
    refine ⟨hwire, fun n received => ?_⟩
    rw [transfers_of_storable hu.storable hwire n, Except.ok.injEq, eq_comm]

end

section
attribute [local instance] residuePlatform

theorem encodings_canonical_sample :
    (∃ t, (State.genesis sampleGenesis).apply sampleRemove = .ok t) ∧
      entry (wireEntry sampleRemove) = .ok sampleRemove ∧
      transfers 3 sampleRemove = .ok sampleRemove := by
  obtain ⟨t, ht⟩ := exists_of_toBool ((State.genesis sampleGenesis).apply sampleRemove)
    (by decide +kernel)
  obtain ⟨_, _, _, htravel, _⟩ := @encodings_canonical residuePlatform residuePlatform_lawful
  obtain ⟨hwire, htransfers⟩ := htravel sampleGenesis [] _ t sampleRemove rfl ht
  exact ⟨⟨t, ht⟩, hwire, (htransfers 3 sampleRemove).mpr rfl⟩

end

end Rieul.Cluster
