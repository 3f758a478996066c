import Rieul.Cluster.Node
import Rieul.Web.Cbor

/-!
# The browser's verifier (web/src/cluster/trust.ts)

`verifyHistory` replays a signed history without the node's help: it rebuilds
every transcript from the wire and keeps its sets and maps under hex strings.
Numbers are the integers they stand for: the decoder admits no other than safe
ones, on which the arithmetic of a double is exact.
-/

namespace Rieul.Web
open Bytes Fallible Rieul.Cbor Rieul.Cluster

def hexByte (b : UInt8) : List Char := [Nat.digitChar (b.toNat / 16), Nat.digitChar (b.toNat % 16)]

def hex (bytes : Str) : String := String.ofList (bytes.flatMap hexByte)

def same (a b : Str) : Prop := hex a = hex b

instance (a b : Str) : Decidable (same a b) := by
  unfold same
  infer_instance

/-- A `Map` or the entries of one, keyed by hex strings. -/
abbrev HexMap (β : Type) := AList (fun _ : String => β)

/-- `id`. -/
def checkedId (b : Str) : Checked Str := do
  ensure (b.length = 32) .invalid
  pure b

def count (n : ℤ) : Checked ℤ := do
  ensure (IsSafeInteger n ∧ 0 ≤ n) .invalid
  pure n

/-- `raw.slice(start, end)`. -/
def slice (raw : Str) (start stop : ℕ) : Str := (raw.drop start).take (stop - start)

/-- `getBigUint64`, refused beyond the safe integers. -/
def readNumber (raw : Str) (start : ℕ) : Checked ℤ := do
  ensure ((beNat (slice raw start (start + 8)) : ℤ) ≤ maxSafeInteger) .invalid
  pure (beNat (slice raw start (start + 8)))

def mutation (raw : Str) : Checked (List CborValue) :=
  match raw.head? with
  | none => .error .invalid
  | some tag =>
    if tag = 0 then do
      ensure (¬ (raw.length < 98 ∨ raw.length > 2145)) .invalid
      let address ← decodeText (slice raw 97 raw.length)
      pure [.number 0, .bytes (slice raw 1 33), .bytes (slice raw 33 65), .bytes (slice raw 65 97),
        .string address]
    else if tag = 1 ∨ tag = 4 then do
      ensure (raw.length = 33) .invalid
      pure [.number tag.toNat, .bytes (slice raw 1 33)]
    else if tag = 2 then do
      ensure (raw.length = 169) .invalid
      let sequence ← readNumber raw 65
      pure [.number 2, .bytes (slice raw 1 33), .bytes (slice raw 33 65), .number sequence,
        .bytes (slice raw 73 105), .bytes (slice raw 105 169)]
    else if tag = 3 then do
      ensure (raw.length = 233) .invalid
      let expires ← readNumber raw 97
      pure [.number 3, .bytes (slice raw 1 33), .bytes (slice raw 33 65), .bytes (slice raw 65 97),
        .number expires, .bytes (slice raw 105 169), .bytes (slice raw 169 233)]
    else .error .invalid

structure ClusterClientAdoptionChallenge where
  clusterId : Str
  grantId : Str
  issuerAdmissionId : Str
  clientPublicKey : Str
  expiresAtUnix : ℤ

def adoptionBody (c : ClusterClientAdoptionChallenge) : Checked (List CborValue) := do
  let clusterId ← checkedId c.clusterId
  let grantId ← checkedId c.grantId
  let issuerAdmissionId ← checkedId c.issuerAdmissionId
  let clientPublicKey ← checkedId c.clientPublicKey
  let expiresAtUnix ← count c.expiresAtUnix
  pure [.string "rieul.cluster.client-possession.v1", .bytes clusterId, .bytes grantId,
    .bytes issuerAdmissionId, .bytes clientPublicKey, .number expiresAtUnix]

structure Head where
  clusterId : Str
  managementEpoch : ℤ
  sequence : ℤ
  entryHash : Str
  primaryAdmissionId : Str

def Head.ofWire (h : ClusterHead) : Head :=
  ⟨h.clusterId, h.managementEpoch.toInt, h.sequence.toInt, h.entryHash, h.primaryAdmissionId⟩

def equalHead (a b : Head) : Prop :=
  a.managementEpoch = b.managementEpoch ∧ a.sequence = b.sequence ∧ same a.clusterId b.clusterId ∧
    same a.entryHash b.entryHash ∧ same a.primaryAdmissionId b.primaryAdmissionId

instance (a b : Head) : Decidable (equalHead a b) := by
  unfold equalHead
  infer_instance

structure VerifiedGrant where
  client : Str
  expires : ℤ
  issuer : Str

structure VerifiedCluster where
  head : Head
  members : HexMap ClusterMember
  grants : HexMap VerifiedGrant
  hashes : List Str

/-- What the loop of `verifyHistory` carries. -/
structure Progress where
  members : HexMap ClusterMember
  grants : HexMap VerifiedGrant
  seen : Finset String
  revoked : Finset String
  operations : Finset String
  primary : Str
  epoch : ℤ
  sequence : ℤ
  previous : Str
  hashes : List Str

variable [Platform]

def hash (v : CborValue) : Checked Str := do
  let body ← encodeCbor v
  pure (Platform.hash body).data

def verify (key : Str) (body : List CborValue) (signature : Str) : Checked Unit := do
  let signature ← require .invalid (Fixed.ofStr 64 signature)
  let key ← require .invalid (Fixed.ofStr 32 key)
  let body ← encodeCbor (.array body)
  ensure (Platform.verify key body signature = true) .invalid

def endpoint (raw : String) : Checked String := do
  let url ← require .url (Platform.parseUrl raw)
  ensure (¬ ((textBytes raw).length > 2048 ∨ url.scheme ≠ "https" ∨ url.username ≠ "" ∨
    url.password.getD "" ≠ "" ∨ url.query.getD "" ≠ "" ∨ url.fragment.getD "" ≠ "" ∨
    url.path ≠ "/rieul/rpc")) .invalid
  pure url.origin

/-- The `switch` on the kind of mutation. -/
def transition (cluster : Str) (s : Progress) (e : ClusterJournalEntry) :
    List CborValue → Checked Progress
  | [.number 0, .bytes target, .bytes key, .bytes _, .string address] => do
    let _ ← endpoint address
    ensure (¬ (hex target ∈ s.seen ∨ ∃ x ∈ s.members.entries, same x.2.nodePublicKey key)) .invalid
    pure { s with
      members := s.members.insert (hex target) ⟨target, key, address⟩
      seen := insert (hex target) s.seen }
  | [.number 1, .bytes target] => do
    ensure (¬ same target s.primary) .invalid
    pure { s with
      members := s.members.erase (hex target)
      seen := insert (hex target) s.seen }
  | [.number 2, .bytes target, .bytes key, .number prefixSequence, .bytes prefixHash,
      .bytes acceptance] => do
    ensure (¬ (same target s.primary ∨
      ¬ same (((s.members.lookup (hex target)).map ClusterMember.nodePublicKey).getD []) key ∨
      prefixSequence ≠ s.sequence ∨ ¬ same prefixHash s.previous)) .invalid
    verify key [.string "rieul.cluster.transfer-acceptance.v1", .bytes cluster, .number s.epoch,
      .number (s.epoch + 1), .bytes e.operationId, .bytes target, .bytes key, .number s.sequence,
      .bytes s.previous] acceptance
    let epoch ← count (s.epoch + 1)
    pure { s with primary := target, epoch := epoch }
  | [.number 3, .bytes target, .bytes key, .bytes client, .number expires, .bytes proof,
      .bytes issuerProof] => do
    ensure (¬ (hex target ∈ s.grants ∨ hex target ∈ s.revoked)) .invalid
    let member ← require .invalid (s.members.lookup (hex key))
    let possession ← adoptionBody ⟨cluster, target, key, client, expires⟩
    verify client possession proof
    let encoded ← encodeCbor (.array possession)
    verify member.nodePublicKey
      [.string "rieul.cluster.pairing-adoption.v1", .bytes encoded, .bytes proof] issuerProof
    pure { s with grants := s.grants.insert (hex target) ⟨client, expires, key⟩ }
  | [.number 4, .bytes target] =>
    .ok { s with
      revoked := insert (hex target) s.revoked
      grants := s.grants.erase (hex target) }
  | _ => .ok s

def managementBody (cluster : Str) (epoch sequence : ℤ) (previous operation request : Str)
    (m : List CborValue) : List CborValue :=
  [.string "rieul.cluster.management.v1", .bytes cluster, .number epoch, .number sequence,
    .bytes previous, .bytes operation, .bytes request, .array m]

/-- The loop body of `verifyHistory`. -/
def verifyEntry (cluster : Str) (s : Progress) (e : ClusterJournalEntry) : Checked Progress := do
  let clusterId ← checkedId e.clusterId
  ensure (¬ (¬ same clusterId cluster ∨ e.managementEpoch.toInt ≠ s.epoch ∨
    e.sequence.toInt ≠ s.sequence + 1)) .invalid
  let previousHash ← checkedId e.previousHash
  ensure (same previousHash s.previous) .invalid
  let operationId ← checkedId e.operationId
  ensure (hex operationId ∉ s.operations) .invalid
  let m ← mutation e.mutation
  let request ← hash (.array [.string "rieul.cluster.management-request.v1", .bytes cluster,
    .number s.epoch, .bytes e.operationId, .array m])
  let requestHash ← checkedId e.requestHash
  ensure (same request requestHash) .invalid
  let body := managementBody cluster s.epoch e.sequence.toInt s.previous e.operationId request m
  let issuer ← require .invalid (s.members.lookup (hex s.primary))
  verify issuer.nodePublicKey body e.signature
  let t ← transition cluster s e m
  let encoded ← encodeCbor (.array body)
  let previous ← hash (.array [.bytes encoded, .bytes e.signature])
  pure { t with
    previous := previous
    sequence := e.sequence.toInt
    hashes := t.hashes ++ [previous]
    operations := insert (hex e.operationId) t.operations }

/-- The locals of `verifyHistory` before its loop. -/
def start (cluster : Str) (g : ClusterGenesis) : Progress where
  members := (∅ : HexMap ClusterMember).insert (hex g.rootAdmissionId)
    ⟨g.rootAdmissionId, g.rootPublicKey, g.rootEndpoint⟩
  grants := ∅
  seen := {hex g.rootAdmissionId}
  revoked := ∅
  operations := ∅
  primary := g.rootAdmissionId
  epoch := 1
  sequence := 0
  previous := cluster
  hashes := [cluster]

def clusterId (g : ClusterGenesis) : Checked Str := do
  let nonce ← checkedId g.nonce
  let root ← checkedId g.rootAdmissionId
  let key ← checkedId g.rootPublicKey
  hash (.array [.string "rieul.cluster.genesis.v1", .bytes nonce, .bytes root, .bytes key,
    .string g.rootEndpoint])

/-- `verifyHistory` without a pinned history. -/
def verifyJournal (history : ClusterHistory) : Checked VerifiedCluster := do
  ensure (¬ (history.entries.length > 512 ∨
    (history.entries.map fun e => e.mutation.length + 256).sum > 512 * 1024)) .invalid
  let _ ← endpoint history.genesis.rootEndpoint
  let cluster ← clusterId history.genesis
  let s ← Replay.replay (verifyEntry cluster) (start cluster history.genesis) history.entries
  let head : Head := ⟨cluster, s.epoch, s.sequence, s.previous, s.primary⟩
  ensure (equalHead head (.ofWire history.head)) .invalid
  pure ⟨head, s.members, s.grants, s.hashes⟩

def checkPinned (v : VerifiedCluster) (pinned : ClusterHistory) : Checked Unit := do
  let known ← verifyJournal pinned
  ensure (same known.head.clusterId v.head.clusterId ∧ known.head.sequence ≤ v.head.sequence)
    .invalid
  let entryHash ← require .invalid v.hashes[known.head.sequence.toNat]?
  ensure (same entryHash known.head.entryHash) .invalid

def verifyHistory (history : ClusterHistory) (pinned : Option ClusterHistory) :
    Checked VerifiedCluster := do
  let v ← verifyJournal history
  match pinned with
  | none => pure v
  | some known => do
    checkPinned v known
    pure v

end Rieul.Web
