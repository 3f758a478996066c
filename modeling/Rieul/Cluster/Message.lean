import Rieul.Cluster.Wire
import Rieul.Cluster.Size
import Rieul.Cluster.Payload

/-!
# Messages that carry a history (protocol/schemas/rpc/cluster.bdl)

A generated structure encodes as a CBOR map from field ids, a union as the pair
of a variant id and a map, and an `i53` is checked against its range. Peers wrap
the encoding of an inner request or response in a byte string
(daemon/host/src/cluster/primary/runtime/peer.rs).
-/

namespace Rieul.Cluster
open Bytes Fallible Cbor
open Mutation (blob)

inductive CodecError where
  | integerOutOfRange

def maxI53 : ℤ := 9007199254740991

def encodeI53 (value : Int64) : Except CodecError Value := do
  ensure (-maxI53 ≤ value.toInt ∧ value.toInt ≤ maxI53) .integerOutOfRange
  pure (.i64 value)

def ClusterGenesis.encodeValue (g : ClusterGenesis) : Value :=
  .map [(1, .bytes g.nonce), (2, .bytes g.rootAdmissionId), (3, .bytes g.rootPublicKey),
    (4, .text g.rootEndpoint)]

def ClusterHead.encodeValue (h : ClusterHead) : Except CodecError Value := do
  let epoch ← encodeI53 h.managementEpoch
  let sequence ← encodeI53 h.sequence
  pure (.map [(1, .bytes h.clusterId), (2, epoch), (3, sequence), (4, .bytes h.entryHash),
    (5, .bytes h.primaryAdmissionId)])

def ClusterJournalEntry.encodeValue (e : ClusterJournalEntry) : Except CodecError Value := do
  let epoch ← encodeI53 e.managementEpoch
  let sequence ← encodeI53 e.sequence
  pure (.map [(1, .bytes e.clusterId), (2, epoch), (3, sequence), (4, .bytes e.previousHash),
    (5, .bytes e.operationId), (6, .bytes e.requestHash), (7, .bytes e.mutation),
    (8, .bytes e.signature)])

def encodeJournal : List ClusterJournalEntry → Except CodecError (List Value)
  | [] => .ok []
  | e :: es => do
    let v ← e.encodeValue
    let vs ← encodeJournal es
    pure (v :: vs)

def ClusterHistory.encodeValue (h : ClusterHistory) : Except CodecError Value := do
  let entries ← encodeJournal h.entries
  let head ← h.head.encodeValue
  pure (.map [(1, h.genesis.encodeValue), (2, .array entries), (3, head)])

inductive Carrier where
  /-- The response of `ReadClusterHistory`, `GetClusterRemovalProof`, `ReadClusterJoinHistory`
  and `AuthenticateClusterClient`. -/
  | clusterHistory
  | finishClusterJoinReq (operationId : Id)
  | activateClusterPrimaryReq (operationId : Id)
  | applyClusterHistoryReq
  | configureClusterJoinSyncReq (operationId : Id)
  /-- `ClusterClientAdoptionState::Accepted`. -/
  | accepted

def Carrier.encodeValue (c : Carrier) (h : ClusterHistory) : Except CodecError Value := do
  let history ← h.encodeValue
  match c with
  | .clusterHistory => pure history
  | .finishClusterJoinReq operationId => pure (.map [(1, blob operationId), (2, history)])
  | .activateClusterPrimaryReq operationId => pure (.map [(1, blob operationId), (2, history)])
  | .applyClusterHistoryReq => pure (.map [(1, history)])
  | .configureClusterJoinSyncReq operationId => pure (.map [(1, blob operationId), (2, history)])
  | .accepted => pure (.array [.u64 1, .map [(1, history)]])

def Carrier.encode (c : Carrier) (h : ClusterHistory) : Except CodecError Str := do
  let value ← c.encodeValue h
  pure value.encode

inductive ClusterOriginalPrincipal where
  | LocalPairing (clientId : String)
  | ClusterGrant (clusterId grantId clientPublicKey : Str)
  | Node

def ClusterOriginalPrincipal.encodeValue : ClusterOriginalPrincipal → Value
  | .LocalPairing clientId => .array [.u64 1, .map [(1, .text clientId)]]
  | .ClusterGrant clusterId grantId clientPublicKey =>
    .array [.u64 2, .map [(1, .bytes clusterId), (2, .bytes grantId), (3, .bytes clientPublicKey)]]
  | .Node => .array [.u64 3, .map []]

structure ClusterPeerRequest where
  clusterId : Str
  senderAdmissionId : Str
  senderPublicKey : Str
  nonce : Str
  connectionId : Int64
  procedureId : Int64
  payload : Str
  originalPrincipal : ClusterOriginalPrincipal
  signature : Str

def ClusterPeerRequest.encodeValue (r : ClusterPeerRequest) : Except CodecError Value := do
  let connection ← encodeI53 r.connectionId
  let procedure ← encodeI53 r.procedureId
  pure (.map [(1, .bytes r.clusterId), (2, .bytes r.senderAdmissionId),
    (3, .bytes r.senderPublicKey), (4, .bytes r.nonce), (5, connection), (6, procedure),
    (7, .bytes r.payload), (8, r.originalPrincipal.encodeValue), (9, .bytes r.signature)])

def ClusterPeerRequest.encode (r : ClusterPeerRequest) : Except CodecError Str := do
  let value ← r.encodeValue
  pure value.encode

/-- The encoding of a `ClusterPeerResponse`. -/
def peerResponse (payload : Str) : Str := (Value.map [(1, .bytes payload)]).encode

/-- `original_body`. -/
def ClusterOriginalPrincipal.body : ClusterOriginalPrincipal → Except RuntimeError Value
  | .LocalPairing clientId => do
    ensure (¬ (clientId = "" ∨ (textBytes clientId).length > 256)) .invalidProof
    pure (.array [.u64 0, .text clientId])
  | .ClusterGrant clusterId grantId clientPublicKey => do
    let cluster ← readId clusterId
    let grant ← readId grantId
    let client ← readId clientPublicKey
    pure (.array [.u64 1, blob cluster, blob grant, blob client])
  | .Node => pure (.array [.u64 2])

/-- `request_body`, what the sender signs and the receiver verifies. -/
def ClusterPeerRequest.body [Platform] (r : ClusterPeerRequest) (server : Id) :
    Except RuntimeError Str := do
  ensure (r.payload.length ≤ maxRpcBytes) .limit
  let cluster ← readId r.clusterId
  let sender ← readId r.senderAdmissionId
  let key ← readId r.senderPublicKey
  let nonce ← readId r.nonce
  let connection ← counter r.connectionId
  let procedure ← counter r.procedureId
  let original ← r.originalPrincipal.body
  pure (Value.array [.text "rieul.cluster.peer-request.v2", blob cluster, blob server, blob sender,
    blob key, blob nonce, .u64 connection, .u64 procedure, blob (Platform.hash r.payload),
    original]).encode

end Rieul.Cluster
