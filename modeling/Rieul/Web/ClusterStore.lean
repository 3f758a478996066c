import Rieul.Lib.System
import Rieul.Web.Trust

/-!
# The browser's cluster store (web/src/cluster/storage.ts)

One record for each cluster: the key pair of this browser, the longest history it
has seen and the grant it uses. A call verifies first and then makes one atomic
change, so that the calls of all tabs are tasks that commit in any order.
-/

namespace Rieul.Web
open Bytes Fallible System Rieul.Cluster
section
variable [Platform]

/-- What `validate` reads of a key, and the key. -/
structure CryptoKey where
  type : String
  extractable : Bool
  algorithm : String
  usages : List String
  secret : Platform.Secret

structure ClusterRecord where
  id : String
  privateKey : CryptoKey
  publicKey : Str
  history : Option ClusterHistory
  grantId : Option Str

inductive StoreError where
  | thrown (e : Thrown)
  | error (message : String)

/-- The records of the object store, by their key path `id`. -/
abbrev Records := String → Option ClusterRecord

abbrev Update (α : Type) :=
  Option ClusterRecord → Except StoreError (Option ClusterRecord × α)

def transaction {α : Type} (records : Records) (id : String) (update : Update α) :
    Except StoreError (Records × α) := do
  let (next, value) ← update (records id)
  match next with
  | some r => pure (Function.update records r.id (some r), value)
  | none => pure (records, value)

def validate (r : ClusterRecord) : Except StoreError ClusterRecord := do
  ensure (¬ (r.privateKey.type ≠ "private" ∨ r.privateKey.extractable = true ∨
    r.privateKey.algorithm ≠ "Ed25519" ∨ "sign" ∉ r.privateKey.usages ∨ r.publicKey.length ≠ 32))
    (.error "Invalid cluster key storage")
  pure r

/-- `/^[a-f0-9]{64}$/`. -/
def isClusterId (id : String) : Prop :=
  id.toList.length = 64 ∧ ∀ c ∈ id.toList, 'a' ≤ c ∧ c ≤ 'f' ∨ '0' ≤ c ∧ c ≤ '9'

/-- The second transaction of `clusterKey`, with the keys that it has generated. -/
def clusterKey (candidate : ClusterRecord) : Update ClusterRecord
  | some current => do
    let current ← validate current
    pure (none, current)
  | none => pure (some candidate, candidate)

/-- A grant of the record's key that has not expired; `now` is in milliseconds. -/
def VerifiedGrant.Valid (grant : VerifiedGrant) (r : ClusterRecord) (now : ℤ) : Prop :=
  ¬ (¬ same grant.client r.publicKey ∨ grant.expires * 1000 ≤ now)

instance (grant : VerifiedGrant) (r : ClusterRecord) (now : ℤ) : Decidable (grant.Valid r now) := by
  unfold VerifiedGrant.Valid
  infer_instance

def checkGrantId (verified : VerifiedCluster) (current : ClusterRecord) (now : ℤ) :
    Option Str → Except StoreError Unit
  | some grantId => do
    let invalid := StoreError.error "Cluster grant is not valid for this browser"
    let grant ← require invalid (verified.grants.lookup (hex grantId))
    ensure (grant.Valid current now) invalid
  | none => pure ()

def checkSaved (verified : VerifiedCluster) (old : Head) : Except StoreError Unit := do
  let entryHash ← require (.thrown .invalid) verified.hashes[old.sequence.toNat]?
  ensure (same entryHash old.entryHash) (.error "Cluster history conflicts with saved history")

/-- The last part of `storeHistory`. -/
def replaceHistory (history : ClusterHistory) (verified : VerifiedCluster) (grantId : Option Str)
    (now : ℤ) (current : ClusterRecord) :
    Except StoreError (Option ClusterRecord × ClusterRecord) := do
  let selected := grantId.or current.grantId
  checkGrantId verified current now grantId
  let next := { current with history := some history, grantId := selected }
  pure (some next, next)

def storeHistory (history : ClusterHistory) (verified : VerifiedCluster) (grantId : Option Str)
    (now : ℤ) : Update ClusterRecord
  | none => .error (.error "Cluster key is missing")
  | some current => do
    let current ← validate current
    match current.history with
    | some saved =>
      let old := Head.ofWire saved.head
      if verified.head.sequence < old.sequence then pure (none, current) else do
        checkSaved verified old
        replaceHistory history verified grantId now current
    | none => replaceHistory history verified grantId now current

def resetGrantAfterPairing (expected : Str) : Update Unit
  | some current =>
    if ∃ grantId ∈ current.grantId, same grantId expected
    then pure (some { current with grantId := none }, ())
    else pure (none, ())
  | none => pure (none, ())

/-- What `resetExpiredGrant` decides before its transaction: nothing, or that the grant of the
verified history has expired. -/
def expiredGrant (expected : ClusterRecord) (now : ℤ) : Checked (Option VerifiedCluster) :=
  match expected.history, expected.grantId with
  | some history, some grantId => do
    let verified ← verifyHistory history none
    match verified.grants.lookup (hex grantId) with
    | some grant =>
      if ¬ same grant.client expected.publicKey ∨ grant.expires * 1000 > now then pure none
      else pure (some verified)
    | none => pure none
  | _, _ => pure none

def resetExpiredGrant (expected : ClusterRecord) (verified : VerifiedCluster) : Update Bool
  | some current =>
    match current.history, current.grantId with
    | some saved, some grantId =>
      if (∃ g ∈ expected.grantId, same grantId g) ∧ equalHead (.ofWire saved.head) verified.head
      then pure (some { current with grantId := none }, true)
      else pure (none, false)
    | _, _ => pure (none, false)
  | none => pure (none, false)

inductive Task where
  | clusterKey (candidate : ClusterRecord)
  | storeHistory (history : ClusterHistory) (verified : VerifiedCluster) (grantId : Option Str)
  | resetGrantAfterPairing (id : String) (expected : Str)
  | resetExpiredGrant (expected : ClusterRecord) (verified : VerifiedCluster)

def Task.run (records : Records) (now : ℤ) : Task → Except StoreError Records
  | .clusterKey candidate =>
    Prod.fst <$> transaction records candidate.id (Web.clusterKey candidate)
  | .storeHistory history verified grantId =>
    Prod.fst <$> transaction records (hex verified.head.clusterId)
      (Web.storeHistory history verified grantId now)
  | .resetGrantAfterPairing id expected =>
    Prod.fst <$> transaction records id (Web.resetGrantAfterPairing expected)
  | .resetExpiredGrant expected verified =>
    Prod.fst <$> transaction records expected.id (Web.resetExpiredGrant expected verified)

def Task.commit (task : Task) (records : Records) (now : ℤ) : Records :=
  match task.run records now with
  | .ok records => records
  | .error _ => records

structure Browser where
  records : Records
  tasks : List Task

inductive Browser.Step (known : Set ClusterHistory) (b : Browser) : Browser → Prop where
  /-- No record is there yet and keys are generated. -/
  | clusterKey (candidate : ClusterRecord) (hid : isClusterId candidate.id)
      (hread : b.records candidate.id = none) (hkeys : validate candidate = .ok candidate)
      (hhistory : candidate.history = none) (hgrant : candidate.grantId = none) :
      Step known b { b with tasks := b.tasks ++ [.clusterKey candidate] }
  | storeHistory (history : ClusterHistory) (verified : VerifiedCluster) (grantId : Option Str)
      (hknown : history ∈ known) (hverified : verifyHistory history none = .ok verified) :
      Step known b { b with tasks := b.tasks ++ [.storeHistory history verified grantId] }
  | resetGrantAfterPairing (id : String) (expected : Str) :
      Step known b { b with tasks := b.tasks ++ [.resetGrantAfterPairing id expected] }
  | resetExpiredGrant (expected : ClusterRecord) (verified : VerifiedCluster) (now : ℤ)
      (hknown : ∀ h ∈ expected.history, h ∈ known)
      (hexpired : expiredGrant expected now = .ok (some verified)) :
      Step known b { b with tasks := b.tasks ++ [.resetExpiredGrant expected verified] }
  | commit (before after : List Task) (task : Task) (now : ℤ)
      (htasks : b.tasks = before ++ task :: after) :
      Step known b ⟨task.commit b.records now, before ++ after⟩

def Browser.Reached (known : Set ClusterHistory) : Browser → Prop :=
  Reachable (fun b => b = ⟨fun _ => none, []⟩) (Browser.Step known)

end
end Rieul.Web
