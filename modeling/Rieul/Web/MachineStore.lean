import Rieul.Web.ClusterStore

/-!
# The machine list (web/src/state/machine-store.ts)

`applyCluster` verifies the history of a cluster record and then rewrites the list
in one updater: it binds the source machine, drops what the history no longer
allows and adds the members that are missing.
-/

namespace Rieul.Web
open Bytes Fallible Rieul.Cluster

structure Binding where
  id : String
  admissionId : String
  deriving DecidableEq

structure Machine where
  id : String
  name : String
  baseUrl : String
  cluster : Option Binding := none
  clientId : Option String := none
  clientSecret : Option String := none
  clientCredentialExpiresAtUnix : Option ℤ := none

/-- `Boolean(m.clientSecret)`. -/
def Machine.Paired (m : Machine) : Prop := ∃ s ∈ m.clientSecret, s ≠ ""

/-- `m.cluster` names the cluster and the admission. -/
def Machine.Bound (m : Machine) (id admissionId : String) : Prop := m.cluster = some ⟨id, admissionId⟩

instance (m : Machine) : Decidable m.Paired := by
  unfold Machine.Paired
  infer_instance

instance (m : Machine) (id admissionId : String) : Decidable (m.Bound id admissionId) := by
  unfold Machine.Bound
  infer_instance

structure AppliedHead where
  sequence : ℤ
  hash : String

structure MachineStore where
  machines : List Machine
  selectedId : Option String
  appliedClusterHeads : String → Option AppliedHead

/-- `new URL(origin).host` for the origin of an `https` URL. -/
def host (origin : String) : String := (origin.drop 8).toString

/-- `id && !next.some(...) ? next[0]?.id : id`. -/
def reselect (next : List Machine) : Option String → Option String
  | some id =>
    if id ≠ "" ∧ ¬ ∃ m ∈ next, m.id = id then next.head?.map Machine.id else some id
  | none => none

section
variable [Platform]

/-- The arguments, and `Date.now()` when the updater runs. -/
structure ApplyCluster where
  record : ClusterRecord
  sourceId : Option String := none
  sourceAdmission : Option String := none
  now : ℤ

inductive Applied where
  /-- Nothing to apply, or stale. -/
  | ignored
  | thrown (e : Thrown)
  | applied (verified : VerifiedCluster)

variable (call : ApplyCluster) (verified : VerifiedCluster)

def authorized : Prop :=
  ∃ grantId ∈ call.record.grantId, ∃ valid ∈ verified.grants.lookup (hex grantId),
    valid.expires * 1000 > call.now ∧ hex valid.client = hex call.record.publicKey

instance : Decidable (authorized call verified) := by
  unfold authorized
  infer_instance

def bindSource (m : Machine) : Checked Machine :=
  match call.sourceAdmission with
  | some sourceAdmission =>
    if call.sourceId = some m.id ∧ sourceAdmission ≠ "" ∧ sourceAdmission ∈ verified.members then do
      let url ← require .url (Platform.parseUrl m.baseUrl)
      if url.path = "/" then do
        let member ← require .invalid (verified.members.lookup sourceAdmission)
        let origin ← endpoint member.endpoint
        if origin = url.origin ∧ (∀ c ∈ m.cluster, c.id = call.record.id) ∧
            ∀ c ∈ m.cluster, c.admissionId ≠ sourceAdmission then
          pure { m with cluster := some ⟨call.record.id, sourceAdmission⟩ }
        else pure m
      else pure m
    else pure m
  | none => pure m

def keeps (m : Machine) : Prop :=
  match m.cluster with
  | some c => c.id ≠ call.record.id ∨ (authorized call verified ∧ c.admissionId ∈ verified.members) ∨
      m.Paired
  | none => True

instance (m : Machine) : Decidable (keeps call verified m) := by
  unfold keeps
  split <;> infer_instance

def discovered (member : ClusterMember) (baseUrl : String) : Machine where
  id := s!"cluster:{call.record.id}:{hex member.admissionId}"
  name := host baseUrl
  baseUrl := baseUrl
  cluster := some ⟨call.record.id, hex member.admissionId⟩

def discover (next : List Machine) (member : ClusterMember) : Checked (List Machine) := do
  let baseUrl ← endpoint member.endpoint
  if ∃ m ∈ next, m.Bound call.record.id (hex member.admissionId) then pure next
  else pure (next ++ [discovered call member baseUrl])

def VerifiedCluster.values : List ClusterMember := (verified.members.entries.map fun x => x.2).reverse

def nextMachines (current : List Machine) : Checked (List Machine) := do
  let bound ← current.mapM (bindSource call verified)
  let next := bound.filter fun m => keeps call verified m
  if authorized call verified then verified.values.foldlM (discover call) next else pure next

def stale (s : MachineStore) : Prop :=
  ∃ prior ∈ s.appliedClusterHeads call.record.id, prior.sequence > verified.head.sequence ∨
    (prior.sequence = verified.head.sequence ∧ prior.hash ≠ hex verified.head.entryHash)

instance (s : MachineStore) : Decidable (stale call verified s) := by
  unfold stale
  infer_instance

def update (s : MachineStore) : MachineStore × Applied :=
  if stale call verified s then (s, .ignored)
  else
    let heads := Function.update s.appliedClusterHeads call.record.id
      (some ⟨verified.head.sequence, hex verified.head.entryHash⟩)
    match nextMachines call verified s.machines with
    | .ok next => (⟨next, reselect next s.selectedId, heads⟩, .applied verified)
    | .error e => ({ s with appliedClusterHeads := heads }, .thrown e)

def applyCluster (s : MachineStore) : MachineStore × Applied :=
  match call.record.history, call.record.grantId with
  | some history, some _ =>
    match verifyHistory history none with
    | .ok verified => update call verified s
    | .error e => (s, .thrown e)
  | _, _ => (s, .ignored)

end
end Rieul.Web
