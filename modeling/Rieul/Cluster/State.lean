import Mathlib.Data.List.AList
import Mathlib.Data.Finset.Card
import Rieul.Lib.Replay
import Rieul.Cluster.Entry

/-!
# The replayed cluster state (daemon/host/src/cluster/primary.rs)

`State.apply` checks one signed entry against the state before it and
performs its mutation. `State.Effect` says once what a mutation can do.
-/

namespace Rieul.Cluster
open Bytes Fallible

abbrev IdMap (β : Type) := AList (fun _ : Id => β)

structure Grant where
  client : Id
  expires : UInt64

structure State where
  cluster : Id
  epoch : UInt64
  sequence : UInt64
  head : Id
  primary : Id
  members : IdMap Id
  endpoints : IdMap String
  seen : Finset Id
  operations : Finset Id
  grants : IdMap Grant
  revoked : Finset Id

/-- `values().any(|k| k == key)`. -/
def hasValue (m : IdMap Id) (key : Id) : Bool := m.entries.any fun p => p.2 = key

theorem IdMap.lookup_insert {β : Type} (m : IdMap β) (i j : Id) (b : β) :
    (m.insert i b).lookup j = if j = i then some b else m.lookup j := by
  by_cases h : j = i
  · rw [if_pos h, h]
    exact AList.lookup_insert m
  · rw [if_neg h]
    exact AList.lookup_insert_ne h

theorem IdMap.lookup_erase {β : Type} (m : IdMap β) (i j : Id) :
    (m.erase i).lookup j = if j = i then none else m.lookup j := by
  by_cases h : j = i
  · rw [if_pos h, h]
    exact AList.lookup_erase i m
  · rw [if_neg h]
    exact AList.lookup_erase_ne h

theorem IdMap.mem_iff {β : Type} (m : IdMap β) (i : Id) : i ∈ m ↔ ∃ b, m.lookup i = some b := by
  rw [← AList.lookup_isSome, Option.isSome_iff_exists]

variable [Platform]

namespace State

def genesis (g : Genesis) : State where
  cluster := g.cluster
  epoch := 1
  sequence := 0
  head := g.cluster
  primary := g.root
  members := (∅ : IdMap Id).insert g.root g.rootKey
  endpoints := (∅ : IdMap String).insert g.root g.rootEndpoint
  seen := {g.root}
  operations := ∅
  grants := ∅
  revoked := ∅

def mutate (s : State) (e : Entry) : Except Error State :=
  match e.mutation with
  | .Admit id key _ endpoint => do
    validateEndpoint endpoint
    ensure (¬ (id ∈ s.seen ∨ hasValue s.members key = true)) .invalid
    pure { s with
      members := s.members.insert id key
      endpoints := s.endpoints.insert id endpoint
      seen := insert id s.seen }
  | .Remove id => do
    ensure (id ≠ s.primary) .invalid
    pure { s with
      members := s.members.erase id
      endpoints := s.endpoints.erase id
      seen := insert id s.seen }
  | .Adopt grant issuer client expires clientProof issuerProof => do
    let issuerKey ← require .invalid (s.members.lookup issuer)
    ensure (¬ (grant ∈ s.grants ∨ grant ∈ s.revoked ∨ expires > maxCounter)) .invalid
    verify client (clientAdoptionBody s.cluster grant issuer client expires) clientProof
    verify issuerKey (issuerAdoptionBody s.cluster grant issuer client expires clientProof)
      issuerProof
    pure { s with grants := s.grants.insert grant ⟨client, expires⟩ }
  | .Revoke grant =>
    pure { s with revoked := insert grant s.revoked, grants := s.grants.erase grant }
  | .Transfer id key prefixSequence prefixHash acceptance => do
    ensure (¬ (id = s.primary ∨ s.members.lookup id ≠ some key ∨ s.epoch ≥ maxCounter ∨
      prefixSequence ≠ s.sequence ∨ prefixHash ≠ s.head)) .invalid
    verify key (acceptanceBody s.cluster s.epoch e.operation id key prefixSequence prefixHash)
      acceptance
    pure { s with primary := id, epoch := s.epoch + 1 }

def apply (s : State) (e : Entry) : Except Error State := do
  ensure (e.cluster = s.cluster ∧ e.epoch = s.epoch) .invalid
  let next ← require .exhausted (checkedAdd s.sequence 1)
  ensure (e.sequence = next ∧ e.sequence ≤ maxCounter ∧ e.previous = s.head ∧
    e.operation ∉ s.operations ∧
    e.request = requestHash e.cluster e.epoch e.operation e.mutation) .invalid
  let primaryKey ← require .invalid (s.members.lookup s.primary)
  verify primaryKey e.body e.signature
  let t ← s.mutate e
  pure { t with
    sequence := e.sequence
    head := e.hash
    operations := insert e.operation t.operations }

end State

def replay (g : Genesis) (entries : List Entry) : Except Error State :=
  Replay.replay State.apply (State.genesis g) entries

omit [Platform] in
theorem hasValue_eq_true (m : IdMap Id) (key : Id) :
    hasValue m key = true ↔ ∃ id, m.lookup id = some key := by
  constructor
  · intro h
    obtain ⟨p, hp, hk⟩ := List.any_eq_true.mp h
    refine ⟨p.1, AList.mem_lookup_iff.mpr ?_⟩
    rwa [← of_decide_eq_true hk]
  · rintro ⟨id, hid⟩
    exact List.any_eq_true.mpr ⟨⟨id, key⟩, AList.mem_lookup_iff.mp hid, by simp⟩

namespace State

structure Accepts (s : State) (e : Entry) : Prop where
  cluster : e.cluster = s.cluster
  epoch : e.epoch = s.epoch
  sequence : e.sequence.toNat = s.sequence.toNat + 1
  bound : e.sequence ≤ maxCounter
  previous : e.previous = s.head
  operation : e.operation ∉ s.operations
  request : e.request = requestHash e.cluster e.epoch e.operation e.mutation
  signed : ∃ k, s.members.lookup s.primary = some k ∧
    Platform.verify k e.body e.signature = true

/-- The mutation of `e`, with its checks, takes `s` to the third argument. -/
inductive Effect (s : State) (e : Entry) : State → Prop where
  | admits (id key consent : Id) (endpoint : String)
      (hm : e.mutation = .Admit id key consent endpoint)
      (hendpoint : validateEndpoint endpoint = .ok ())
      (hseen : id ∉ s.seen) (hkey : ∀ j, s.members.lookup j ≠ some key) :
      Effect s e { s with
        members := s.members.insert id key
        endpoints := s.endpoints.insert id endpoint
        seen := insert id s.seen }
  | removes (id : Id) (hm : e.mutation = .Remove id) (hprimary : id ≠ s.primary) :
      Effect s e { s with
        members := s.members.erase id
        endpoints := s.endpoints.erase id
        seen := insert id s.seen }
  | adopts (grant issuer client : Id) (expires : UInt64) (clientProof issuerProof : Signature)
      (issuerKey : Id) (hm : e.mutation = .Adopt grant issuer client expires clientProof issuerProof)
      (hissuer : s.members.lookup issuer = some issuerKey)
      (hgrant : grant ∉ s.grants) (hrevoked : grant ∉ s.revoked) (hexpires : expires ≤ maxCounter)
      (hclient : Platform.verify client
        (clientAdoptionBody s.cluster grant issuer client expires) clientProof = true)
      (hproof : Platform.verify issuerKey
        (issuerAdoptionBody s.cluster grant issuer client expires clientProof) issuerProof = true) :
      Effect s e { s with grants := s.grants.insert grant ⟨client, expires⟩ }
  | revokes (grant : Id) (hm : e.mutation = .Revoke grant) :
      Effect s e { s with revoked := insert grant s.revoked, grants := s.grants.erase grant }
  | transfers (id key : Id) (acceptance : Signature)
      (hm : e.mutation = .Transfer id key s.sequence s.head acceptance)
      (hprimary : id ≠ s.primary) (hmember : s.members.lookup id = some key)
      (hepoch : s.epoch < maxCounter)
      (haccepted : Platform.verify key (acceptanceBody s.cluster s.epoch e.operation id key
        s.sequence s.head) acceptance = true) :
      Effect s e { s with primary := id, epoch := s.epoch + 1 }

def advance (t : State) (e : Entry) : State :=
  { t with sequence := e.sequence, head := e.hash, operations := insert e.operation t.operations }

theorem mutate_eq_ok (s t : State) (e : Entry) : s.mutate e = .ok t ↔ Effect s e t := by
  constructor
  · intro h
    cases hm : e.mutation with
    | Admit id key consent endpoint =>
      simp only [mutate, hm, bind_unit_eq_ok, ensure_eq_ok, pure_eq_ok, hasValue_eq_true, not_or,
        not_exists] at h
      obtain ⟨hend, ⟨hseen, hkey⟩, rfl⟩ := h
      exact .admits id key consent endpoint hm hend hseen hkey
    | Remove id =>
      simp only [mutate, hm, bind_unit_eq_ok, ensure_eq_ok, pure_eq_ok] at h
      obtain ⟨hp, rfl⟩ := h
      exact .removes id hm hp
    | Adopt grant issuer client expires clientProof issuerProof =>
      simp only [mutate, hm, bind_eq_ok, exists_const, ensure_eq_ok, require_eq_ok, pure_eq_ok,
        verify_eq_ok, not_or, gt_iff_lt, UInt64.not_lt] at h
      obtain ⟨issuerKey, hissuer, ⟨hgrant, hrevoked, hexpires⟩, hclient, hproof, rfl⟩ := h
      exact .adopts grant issuer client expires clientProof issuerProof issuerKey hm hissuer hgrant
        hrevoked hexpires hclient hproof
    | Revoke grant =>
      simp only [mutate, hm, pure_eq_ok] at h
      subst h
      exact .revokes grant hm
    | Transfer id key prefixSequence prefixHash acceptance =>
      simp only [mutate, hm, bind_unit_eq_ok, ensure_eq_ok, pure_eq_ok, verify_eq_ok, not_or,
        ne_eq, not_not, ge_iff_le, UInt64.not_le] at h
      obtain ⟨⟨hp, hmember, hepoch, rfl, rfl⟩, haccepted, rfl⟩ := h
      exact .transfers id key acceptance hm hp hmember hepoch haccepted
  · intro h
    cases h with
    | admits id key consent endpoint hm hend hseen hkey =>
      simp [mutate, hm, hend, hseen, hasValue_eq_true, hkey]
    | removes id hm hp => simp [mutate, hm, hp]
    | adopts grant issuer client expires clientProof issuerProof issuerKey hm hissuer hgrant hrevoked
        hexpires hclient hproof =>
      simp [mutate, hm, hissuer, hgrant, hrevoked, hexpires, hclient, hproof]
    | revokes grant hm => simp [mutate, hm]
    | transfers id key acceptance hm hp hmember hepoch haccepted =>
      simp [mutate, hm, hp, hmember, hepoch, haccepted]

theorem apply_eq_ok (s t : State) (e : Entry) :
    s.apply e = .ok t ↔ s.Accepts e ∧ ∃ u, Effect s e u ∧ t = u.advance e := by
  simp only [apply, bind_eq_ok, exists_const, ensure_eq_ok, require_eq_ok, pure_eq_ok, verify_eq_ok,
    mutate_eq_ok]
  constructor
  · rintro ⟨⟨hcluster, hepoch⟩, next, hnext, ⟨hseq, hbound, hprev, hop, hreq⟩, k, hk, hv, u, hu, rfl⟩
    have hn := checkedAdd_eq_some s.sequence 1 next hnext
    exact ⟨⟨hcluster, hepoch, by rw [hseq, hn]; rfl, hbound, hprev, hop, hreq, k, hk, hv⟩, u, hu, rfl⟩
  · rintro ⟨hacc, u, hu, rfl⟩
    obtain ⟨k, hk, hv⟩ := hacc.signed
    have hnext := checkedAdd_one_of_toNat s.sequence e.sequence hacc.sequence
    exact ⟨⟨hacc.cluster, hacc.epoch⟩, e.sequence, hnext, ⟨rfl, hacc.bound, hacc.previous,
      hacc.operation, hacc.request⟩, k, hk, hv, u, hu, rfl⟩

end State
end Rieul.Cluster
