import Rieul.Cluster.Runtime
import Rieul.Server.Credentials

/-!
# The adoption outbox (daemon/host/src/cluster/primary/runtime/adoption.rs)

A paired client may ask for a grant of its own. The node keeps the request in its
outbox until the journal has settled it; a request whose owner was revoked is
marked cancelled instead, and stays until its revocation is in the journal.
-/

namespace Rieul.Cluster
open Bytes Fallible
open Rieul.Server (ClientCredentials)

structure Adoption where
  grant : Id
  owner : String
  cluster : Id
  issuer : Id
  client : Id
  expires : Int64
  deriving DecidableEq

structure OutboxRow where
  adoption : Adoption
  clientProof : Option Signature
  issuerProof : Option Signature
  deriving DecidableEq

structure Adoptions where
  outbox : List OutboxRow
  cancelled : List Id
  receipts : List OutboxRow
  deriving DecidableEq

def Adoptions.empty : Adoptions := ⟨[], [], []⟩

def maxOutbox : ℕ := 128

/-- The owners that may still act: `expires_at_unix > now()`. -/
def activeClients (records : ClientCredentials) (now : Int64) : List String :=
  (records.filter fun r => now.toInt < r.expiresAtUnix).map (·.clientId)

namespace Adoptions

/-- `INSERT OR IGNORE INTO adoption_cancelled`. -/
def mark (cancelled : List Id) (r : OutboxRow) : List Id :=
  if r.adoption.grant ∈ cancelled then cancelled else cancelled ++ [r.adoption.grant]

/-- The rows of the outbox that `p` selects are marked cancelled. -/
def cancel (t : Adoptions) (p : OutboxRow → Bool) : Adoptions :=
  { t with cancelled := (t.outbox.filter p).foldl mark t.cancelled }

def archive (t : Adoptions) (grant : Id) : Adoptions where
  outbox := t.outbox.filter fun r => r.adoption.grant ≠ grant
  cancelled := t.cancelled.filter fun g => g ≠ grant
  receipts := if t.receipts.any fun r => r.adoption.grant = grant then t.receipts
    else t.receipts ++ t.outbox.filter fun r => r.adoption.grant = grant

/-- One round of the loop of `maintain`. -/
def settle (state : State) (t : Adoptions) (grant : Id) : Adoptions :=
  if grant ∈ state.revoked ∨ grant ∈ state.grants ∧ grant ∉ t.cancelled then t.archive grant else t

section
variable [Platform]

def stale (t : Adoptions) (n : Node) (now : Int64) (r : OutboxRow) : Bool :=
  r.adoption.expires ≤ now ∨
    (r.adoption.cluster ≠ n.g.cluster ∨ r.adoption.issuer ≠ n.admission) ∧
      r.adoption.grant ∉ t.cancelled

def maintain (t : Adoptions) (n : Node) (state : State) (now : Int64) :
    Except RuntimeError Adoptions := do
  let t := { t with
    outbox := t.outbox.filter fun r => t.stale n now r = false
    receipts := t.receipts.filter fun r =>
      ¬ (r.adoption.expires ≤ now ∨ r.adoption.cluster ≠ n.g.cluster) }
  let rows := t.outbox.filter fun r => r.adoption.cluster = n.g.cluster
  let t := (rows.map fun r => r.adoption.grant).foldl (settle state) t
  let t := { t with
    cancelled := t.cancelled.filter fun g => t.outbox.any fun r => r.adoption.grant = g }
  ensure (t.receipts.length ≤ maxHistory) .limit
  pure t

def cancelInactive (t : Adoptions) (n : Node) (state : State) (active : List String)
    (now : Int64) : Except RuntimeError Adoptions := do
  let t ← t.maintain n state now
  pure (t.cancel fun r => r.adoption.owner ∉ active)

def cancelOwner (t : Adoptions) (n : Node) (state : State) (owner : String) (now : Int64) :
    Except RuntimeError Adoptions := do
  let t ← t.maintain n state now
  pure (t.cancel fun r => r.adoption.owner = owner)

/-- `pending`: the request of an owner, settled or not. -/
def pending (t : Adoptions) (owner : String) (grant : Id) : Option OutboxRow :=
  (t.outbox ++ t.receipts).find? fun r => r.adoption.grant = grant ∧ r.adoption.owner = owner

end

end Adoptions

def Adoption.challenge (a : Adoption) : ClientAdoptionChallenge where
  clusterId := a.cluster.data
  grantId := a.grant.data
  issuerAdmissionId := a.issuer.data
  clientPublicKey := a.client.data
  expiresAtUnix := a.expires

def OutboxRow.intent (r : OutboxRow) : Option ClusterPairingIntent :=
  match r.clientProof, r.issuerProof with
  | some client, some issuer => some ⟨r.adoption.challenge, client.data, issuer.data⟩
  | _, _ => none

namespace Adoptions
section
variable [Platform]

def candidates (t : Adoptions) (n : Node) (owner : String) (client : Id) (now : Int64) :
    List OutboxRow :=
  ((t.outbox ++ t.receipts).filter fun r => r.adoption.owner = owner ∧ r.adoption.client = client ∧
    r.adoption.cluster = n.g.cluster ∧ r.adoption.issuer = n.admission ∧
      now < r.adoption.expires).mergeSort fun r r' => r'.adoption.expires ≤ r.adoption.expires

/-- The row of a new request; `grant_id` is the primary key. -/
def insert (t : Adoptions) (a : Adoption) : Except RuntimeError Adoptions := do
  ensure (t.outbox.all (fun r => r.adoption.grant ≠ a.grant) = true) .storage
  pure { t with outbox := t.outbox ++ [⟨a, none, none⟩] }

/-- `begin`; `grant` is drawn by the caller. -/
def begin (t : Adoptions) (tx : Database) (n : Node) (state : State) (owner : String)
    (expiresAtUnix : Int64) (client : Id) (now : Int64) (grant : Id) :
    Except RuntimeError (ClientAdoptionChallenge × Adoptions) := do
  let current ← currentNode tx
  requireMember current
  ensure (isLeaving tx current = false) .invalidState
  ensure (current.g = n.g ∧ current.admission = n.admission) .conflict
  let t ← t.maintain n state now
  match (t.candidates n owner client now).find? fun r =>
      r.adoption.grant ∉ state.revoked ∧ r.adoption.grant ∉ t.cancelled with
  | some r => pure (r.adoption.challenge, t)
  | none => do
    ensure (t.outbox.length < maxOutbox) .limit
    let a : Adoption := ⟨grant, owner, n.g.cluster, n.admission, client,
      min expiresAtUnix (now + 30 * 24 * 3600)⟩
    let t ← t.insert a
    pure (a.challenge, t)

def prove (t : Adoptions) (grant : Id) (clientProof issuerProof : Signature) : Adoptions :=
  { t with outbox := t.outbox.map fun r => if r.adoption.grant = grant
      then { r with clientProof := some clientProof, issuerProof := some issuerProof } else r }

/-- `complete`, up to the `get` it ends with. -/
def complete (t : Adoptions) (tx : Database) (n : Node) (owner : String) (grantId clientProof : Str)
    (now : Int64) : Except RuntimeError Adoptions := do
  let grant ← readId grantId
  let current ← currentNode tx
  requireMember current
  ensure (isLeaving tx current = false) .invalidState
  let p ← require .unauthorized (t.pending owner grant)
  let a := p.adoption
  ensure (grant ∉ t.cancelled) .retired
  ensure (¬ (a.cluster ≠ current.g.cluster ∨ a.issuer ≠ current.admission ∨
    current.admission ≠ n.admission ∨ a.expires ≤ now)) .retired
  let proof ← readSignature clientProof
  lift (verify a.client
    (clientAdoptionBody n.g.cluster grant n.admission a.client a.expires.toUInt64) proof)
  ensure (∀ old ∈ p.clientProof, old = proof) .conflict
  pure (t.prove grant proof (Platform.sign n.pair
    (issuerAdoptionBody n.g.cluster grant n.admission a.client a.expires.toUInt64 proof)))

/-- The intent that `get` may commit: that of a request of the owner which is not cancelled. -/
def getIntent (t : Adoptions) (owner : String) (grant : Id) :
    Except RuntimeError (Option ClusterPairingIntent) := do
  let p ← require .unauthorized (t.pending owner grant)
  pure (if grant ∈ t.cancelled then none else p.intent)

/-- A row that `pending_intents` passes on. -/
def ready (n : Node) (state : State) (r : OutboxRow) : Option (String × ClusterPairingIntent) :=
  if r.adoption.grant ∈ state.grants ∨ r.adoption.grant ∈ state.revoked ∨
    r.adoption.cluster ≠ n.g.cluster ∨ r.adoption.issuer ≠ n.admission then none
  else r.intent.map fun intent => (r.adoption.owner, intent)

/-- The read of `pending_intents`, when `maintain` has been committed. -/
def intents (t : Adoptions) (n : Node) (state : State) (now : Int64) :
    List (String × ClusterPairingIntent) :=
  let rows := (t.outbox.filter fun r => r.clientProof.isSome ∧ now < r.adoption.expires ∧
    r.adoption.grant ∉ t.cancelled).take 128
  (rows.filterMap (ready n state)).take 8

/-- `pending_intents`: the requests to dispatch. -/
def pendingIntents (t : Adoptions) (n : Node) (state : State) (now : Int64) :
    Except RuntimeError (Adoptions × List (String × ClusterPairingIntent)) := do
  let t ← t.maintain n state now
  let rows := (t.outbox.filter fun r => r.clientProof.isSome ∧ now < r.adoption.expires ∧
    r.adoption.grant ∉ t.cancelled).take 128
  pure (t, (rows.filterMap (ready n state)).take 8)

end
end Adoptions
end Rieul.Cluster
