import Rieul.Cluster.Transport

/-!
# Who a request is authorized as (daemon/host/src/cluster/primary/runtime/client.rs)

A client proves that it holds the key of a grant and pins the head that it knows;
a connection keeps the principal and checks it again, and a peer forwards requests
in the name of a grant (peer.rs). Each reads the journal at its own time.
-/

namespace Rieul.Cluster
open Bytes Fallible Cbor
open Mutation (blob)

structure AuthenticateClusterClientReq where
  knownHead : ClusterHead
  serverAdmissionId : Str
  serverPublicKey : Str
  grantId : Str
  clientPublicKey : Str
  nonce : Str
  connectionId : Int64
  signature : Str

/-- The id of `GetClusterRemovalProof`. -/
def getClusterRemovalProof : Int64 := 95

section
variable [Platform]

/-- `proof_body`. -/
def AuthenticateClusterClientReq.proofBody (r : AuthenticateClusterClientReq) :
    Except RuntimeError Str := do
  ensure (¬ (r.knownHead.sequence.toInt < 0 ∨ r.knownHead.sequence.toUInt64 > maxCounter))
    .invalidProof
  let cluster ← readId r.knownHead.clusterId
  let epoch ← counter r.knownHead.managementEpoch
  let entryHash ← readId r.knownHead.entryHash
  let primary ← readId r.knownHead.primaryAdmissionId
  let admission ← readId r.serverAdmissionId
  let key ← readId r.serverPublicKey
  let grant ← readId r.grantId
  let client ← readId r.clientPublicKey
  let nonce ← readId r.nonce
  let connection ← counter r.connectionId
  pure (Value.array [.text "rieul.cluster.client-session.v1", blob cluster, .u64 epoch,
    .u64 r.knownHead.sequence.toUInt64, blob entryHash, blob primary, blob admission, blob key,
    blob grant, blob client, blob nonce, .u64 connection]).encode

def AuthenticateClusterClientReq.principal (r : AuthenticateClusterClientReq) :
    Except RuntimeError Principal := do
  let cluster ← readId r.knownHead.clusterId
  let node ← readId r.serverAdmissionId
  let nodeKey ← readId r.serverPublicKey
  let grant ← readId r.grantId
  let client ← readId r.clientPublicKey
  let epoch ← counter r.knownHead.managementEpoch
  ensure (0 ≤ r.knownHead.sequence.toInt) .invalidProof
  pure ⟨cluster, node, nodeKey, grant, client, epoch, r.knownHead.sequence.toUInt64⟩

/-- `client::authenticate` on the node that `opened` read. -/
def authenticate (n : Node) (tx : Database) (r : AuthenticateClusterClientReq) (now : Int64) :
    Except RuntimeError (Principal × ClusterHistory) := do
  let entries ← lift (load tx.tables n.g.cluster)
  let state ← lift (replay n.g entries)
  let principal ← r.principal
  principal.check n state now
  -- the prefix that the client has pinned
  ensure (principal.sequence.toNat ≤ entries.length) .invalidProof
  let pinned ← lift (replay n.g (entries.take principal.sequence.toNat))
  ensure (r.knownHead = head pinned) .invalidProof
  let body ← r.proofBody
  let signature ← readSignature r.signature
  lift (verify principal.client body signature)
  pure (principal, wireHistory n.g entries state)

def authorizationSnapshot (db : Database) : Except RuntimeError (Node × State) := do
  let n ← currentNode db
  let identity ← require .storage db.tables.identity
  ensure (identity.cluster = n.g.cluster.data ∧ identity.localKey = n.key.data) .invalidProof
  let state ← journalState db n.g
  pure (n, state)

/-- `client::validate`: when the grant expires. -/
def validate (db : Database) (p : Principal) (now : Int64) : Except RuntimeError Int64 := do
  let (n, state) ← authorizationSnapshot db
  p.check n state now
  let grant ← require .unauthorized (state.grants.lookup p.grant)
  pure grant.expires.toInt64

def forwarded (n : Node) (cluster grant client : Id) : Principal :=
  ⟨cluster, n.admission, n.key, grant, client, 1, 0⟩

def originalGrant (n : Node) (tx : Database) (now : Int64) :
    ClusterOriginalPrincipal → Except RuntimeError (Option Principal)
  | .LocalPairing _ => pure none
  | .Node => pure none
  | .ClusterGrant clusterId grantId clientPublicKey => do
    let cluster ← readId clusterId
    let grant ← readId grantId
    let client ← readId clientPublicKey
    let principal := forwarded n cluster grant client
    let state ← journalState tx n.g
    principal.check n state now
    pure (some principal)

def checkSender (n : Node) (members proof : Database) (r : ClusterPeerRequest) (sender key : Id) :
    Except RuntimeError Unit := do
  let state ← journalState members n.g
  if state.members.lookup sender ≠ some key then do
    ensure (r.procedureId = getClusterRemovalProof) .unauthorized
    let _ ← removalProof proof.tables n.g sender key
    pure ()
  else pure ()

/-- `peer::authenticate`: `members`, `proof` and `tx` are what its reads find. -/
def authenticatePeer (n : Node) (members proof tx : Database) (r : ClusterPeerRequest)
    (now : Int64) : Except RuntimeError Authorized := do
  requireMember n
  let cluster ← readId r.clusterId
  ensure (cluster = n.g.cluster) .unauthorized
  let sender ← readId r.senderAdmissionId
  let key ← readId r.senderPublicKey
  checkSender n members proof r sender key
  let body ← r.body n.key
  let signature ← readSignature r.signature
  lift (verify key body signature)
  let grant ← originalGrant n tx now r.originalPrincipal
  pure ⟨now + 10, some (sender, key), grant⟩

def journalHash (g : Genesis) (es : List Entry) : Id :=
  (es.getLast?.map Entry.hash).getD g.cluster

def Pinned (g : Genesis) (es : List Entry) (w : ClusterHead) : Prop :=
  ∃ first s, first <+: es ∧ replay g first = .ok s ∧ w = head s ∧
    w.sequence.toUInt64.toNat = first.length ∧ w.entryHash = (journalHash g first).data

structure Granted (g : Genesis) (es : List Entry) (grant client : Id) (now : Int64) : Prop where
  valid : ∃ s expires, replay g es = .ok s ∧ s.grants.lookup grant = some ⟨client, expires⟩ ∧
    grant ∉ s.revoked ∧ now.toUInt64 < expires
  adopted : ∃ e ∈ es, ∃ issuer expires clientProof issuerProof,
    e.mutation = .Adopt grant issuer client expires clientProof issuerProof ∧
      now.toUInt64 < expires
  unrevoked : ∀ e ∈ es, e.mutation ≠ .Revoke grant

theorem replay_head (g : Genesis) (es : List Entry) (s : State) (h : replay g es = .ok s) :
    s.head = journalHash g es := by
  refine Replay.replay_induction State.apply _ (fun es (s : State) => s.head = journalHash g es)
    rfl ?_ es s h
  intro as t u e _ _ ha
  obtain ⟨_, v, _, rfl⟩ := (State.apply_eq_ok t u e).mp ha
  simp [journalHash, State.advance]

theorem adopted_of_lookup (g : Genesis) (es : List Entry) (s : State) (h : replay g es = .ok s)
    (grant : Id) (value : Grant) (hg : s.grants.lookup grant = some value) :
    ∃ e ∈ es, ∃ issuer clientProof issuerProof, e.mutation =
      .Adopt grant issuer value.client value.expires clientProof issuerProof := by
  revert hg
  refine Replay.replay_induction State.apply _ (fun es (s : State) =>
    s.grants.lookup grant = some value → ∃ e ∈ es, ∃ issuer clientProof issuerProof, e.mutation =
      .Adopt grant issuer value.client value.expires clientProof issuerProof) ?_ ?_ es s h
  · intro hg
    cases hg
  · intro as t u e _ ih ha hg
    have hold : t.grants.lookup grant = some value → ∃ e' ∈ as ++ [e], ∃ issuer clientProof
        issuerProof, e'.mutation =
          .Adopt grant issuer value.client value.expires clientProof issuerProof := by
      intro hg
      obtain ⟨e', he', hadopts⟩ := ih hg
      exact ⟨e', List.mem_append_left _ he', hadopts⟩
    obtain ⟨_, v, hv, rfl⟩ := (State.apply_eq_ok t u e).mp ha
    cases hv with
    | admits | removes | transfers => exact hold hg
    | adopts grant' issuer client expires clientProof issuerProof issuerKey hm =>
      have hlookup : (if grant = grant' then some ⟨client, expires⟩ else t.grants.lookup grant) =
          some value := (IdMap.lookup_insert _ _ _ _).symm.trans hg
      split at hlookup
      · next heq =>
        cases hlookup
        exact ⟨e, List.mem_append_right _ List.mem_cons_self, issuer, clientProof, issuerProof,
          heq ▸ hm⟩
      · exact hold hlookup
    | revokes grant' hm =>
      have hlookup : (if grant = grant' then none else t.grants.lookup grant) = some value :=
        (IdMap.lookup_erase _ _ _).symm.trans hg
      split at hlookup
      · cases hlookup
      · exact hold hlookup

theorem Principal.check_eq_ok (p : Principal) (n : Node) (s : State) (now : Int64) :
    p.check n s now = .ok () ↔ n.phase = .member ∧ (p.cluster = n.g.cluster ∧
      p.node = n.admission ∧ p.nodeKey = n.key ∧ s.members.lookup p.node = some p.nodeKey ∧
      p.epoch ≤ s.epoch ∧ p.sequence ≤ s.sequence ∧ p.grant ∉ s.revoked) ∧
      ∃ expires, s.grants.lookup p.grant = some ⟨p.client, expires⟩ ∧ now.toUInt64 < expires := by
  simp only [Principal.check, requireMember, bind_eq_ok, exists_unit_iff, ensure_eq_ok,
    require_eq_ok, not_or, ne_eq, not_not, UInt64.not_lt, UInt64.not_le]
  constructor
  · rintro ⟨hmember, hsame, ⟨client, expires⟩, hlookup, rfl, hnow⟩
    exact ⟨hmember, hsame, expires, hlookup, hnow⟩
  · rintro ⟨hmember, hsame, expires, hlookup, hnow⟩
    exact ⟨hmember, hsame, _, hlookup, rfl, hnow⟩

theorem Principal.granted {p : Principal} {n : Node} {es : List Entry} {s : State} {now : Int64}
    (hs : replay n.g es = .ok s) (h : p.check n s now = .ok ()) :
    Granted n.g es p.grant p.client now := by
  obtain ⟨_, ⟨_, _, _, _, _, _, hrevoked⟩, expires, hlookup, hnow⟩ :=
    (Principal.check_eq_ok p n s now).mp h
  obtain ⟨e, he, issuer, clientProof, issuerProof, hm⟩ :=
    adopted_of_lookup n.g es s hs p.grant _ hlookup
  refine ⟨⟨s, expires, hs, hlookup, hrevoked, hnow⟩,
    ⟨e, he, issuer, expires, clientProof, issuerProof, hm, hnow⟩, ?_⟩
  intro e' he' hm'
  exact hrevoked (revoked_of_mem n.g es s hs e' he' p.grant hm')

end

end Rieul.Cluster
