import Rieul.Cluster.Runtime
import Rieul.Server.Credentials
import Rieul.Web.Trust

/-!
# Sessions and their authorization (daemon/host/src/server.rs)

A session is authenticated once, by a paired client's secret or by a cluster
grant. Dispatch asks for the session's authentication, which validates a grant
again; some handlers also look the paired client's record up again.
-/

namespace Rieul.Server
open Bytes Fallible Rieul.Cbor Rieul.Cluster

inductive ProcId where
  | GetDaemonInfo | GetDesktopCapabilities | AttachDesktop | AttachExistingDesktop
  | QueryDesktopQualitySupport | SetDesktopQuality | ConfigureDesktopViewports | SetDesktopControl
  | RenewDesktopLease | DetachDesktop | WriteDesktopInput | CheckForUpdates
  | InstallUpdateConfirmed | SubscribeUpdateStatus | GetDaemonEnvironment | StartPairing
  | CompletePairing | RenewClientCredential | RemoveClient | SubscribeRoots | SubscribeDirectory
  | ReadFile | WriteFile | CreateNodes | RenamePaths | DeletePaths | CreateTerminalSession
  | SubscribeTerminalSessions | SubscribeAvailableShells | AttachTerminalSession
  | TakeTerminalControl | WriteTerminalInput | CloseTerminalSession | SubscribeClients
  | SubscribeTrashItems | RestoreTrashItems | PurgeTrashItems | SubscribeProcesses | KillProcess
  | SubscribeProcessDetail | RunCommand | CreateJob | SubscribeJobs | SubscribeJobOutput | KillJob
  | DeleteJobs | ClearJobs | CreateSchedule | UpdateSchedule | SubscribeSchedules | DeleteSchedules
  | GetScheduleNextRuns | SubscribeAgentProviders | CreateAgentProject | SubscribeAgentProjects
  | ListAgentSessions | CreateAgentSession | AttachAgentSession | SubscribeAgentSession
  | CreateAgentTurn | ListAgentSessionTurns | SetAgentSessionConfig | UpdateAgentSession
  | RemoveAgentProject | AuthenticateClusterClient | GetClusterRevocationIssues
  | ReadClusterJoinHistory | ConfigureClusterJoinSync | LeaveCluster | GetClusterRemovalProof
  | GetClusterPeerChallenge | ExecuteClusterPeerRequest | GetClusterState
  | BeginClusterClientAdoption | CompleteClusterClientAdoption | GetClusterClientAdoption
  | AdoptClusterClient | RevokeClusterClientGrant | CreateCluster | PrepareClusterJoin
  | AdmitClusterMember | FinishClusterJoin | CancelClusterJoin | RemoveClusterMember
  | ReadClusterHistory | PreparePrimaryTransfer | SealPrimaryTransfer | ActivateClusterPrimary
  | ApplyClusterHistory | SubscribeProcessResourcesInUse | SubscribeProcessSocketsInUse
  | SubscribeProcessModules | SubscribeWindows | SubscribeWindowDetail
  deriving DecidableEq

def requiresAuthentication : ProcId → Bool
  | .GetDaemonInfo | .GetClusterPeerChallenge | .AuthenticateClusterClient
  | .ExecuteClusterPeerRequest | .ReadClusterJoinHistory | .StartPairing | .CompletePairing => false
  | _ => true

/-- The handlers of `cluster_call`. -/
def isClusterCall : ProcId → Bool
  | .GetClusterRevocationIssues | .ConfigureClusterJoinSync | .LeaveCluster
  | .GetClusterRemovalProof | .GetClusterState | .BeginClusterClientAdoption
  | .CompleteClusterClientAdoption | .GetClusterClientAdoption | .AdoptClusterClient
  | .RevokeClusterClientGrant | .CreateCluster | .PrepareClusterJoin | .AdmitClusterMember
  | .FinishClusterJoin | .CancelClusterJoin | .RemoveClusterMember | .ReadClusterHistory
  | .PreparePrimaryTransfer | .SealPrimaryTransfer | .ActivateClusterPrimary
  | .ApplyClusterHistory => true
  | _ => false

/-- The handlers that ask `updater_authorized`. -/
def isUpdateCall : ProcId → Bool
  | .CheckForUpdates | .InstallUpdateConfirmed | .SubscribeUpdateStatus => true
  | _ => false

/-- The handlers that ask `desktop_auth`. -/
def isDesktopCall : ProcId → Bool
  | .GetDesktopCapabilities | .AttachDesktop | .AttachExistingDesktop
  | .QueryDesktopQualitySupport | .SetDesktopQuality | .ConfigureDesktopViewports
  | .SetDesktopControl | .RenewDesktopLease | .DetachDesktop | .WriteDesktopInput => true
  | _ => false

structure RpcSessionState where
  authenticatedClientId : Option String
  clusterPrincipal : Option Principal

/-- `subject`. -/
def subject (p : Principal) : String :=
  "cluster:" ++ Web.hex p.cluster.data ++ ":" ++ Web.hex p.node.data ++ ":" ++ Web.hex p.grant.data

def verifyClientCredential (record : ClientCredentialRecord) (secretSha256 : String) (now : ℤ) :
    Bool :=
  now < record.expiresAtUnix ∧ record.secretSha256 = secretSha256

structure AuthenticateClusterClientReq where
  knownHead : ClusterHead
  serverAdmissionId : Str
  serverPublicKey : Str
  grantId : Str
  clientPublicKey : Str
  nonce : Str
  connectionId : Int64
  signature : Str

section
variable [Platform]

def proofBody (r : AuthenticateClusterClientReq) : Except RuntimeError Str := do
  ensure (¬ (r.knownHead.sequence < 0 ∨ r.knownHead.sequence.toUInt64 > maxCounter)) .invalidProof
  let cluster ← readId r.knownHead.clusterId
  let epoch ← counter r.knownHead.managementEpoch
  let entryHash ← readId r.knownHead.entryHash
  let primary ← readId r.knownHead.primaryAdmissionId
  let server ← readId r.serverAdmissionId
  let serverKey ← readId r.serverPublicKey
  let grant ← readId r.grantId
  let client ← readId r.clientPublicKey
  let nonce ← readId r.nonce
  let connection ← counter r.connectionId
  pure (Value.array [.text "rieul.cluster.client-session.v1", .bytes cluster.data, .u64 epoch,
    .u64 r.knownHead.sequence.toUInt64, .bytes entryHash.data, .bytes primary.data,
    .bytes server.data, .bytes serverKey.data, .bytes grant.data, .bytes client.data,
    .bytes nonce.data, .u64 connection]).encode

/-- `authenticate`: the principal of a proven client whose pinned head is a prefix of the log. -/
def clientAuthenticate (db : Database) (r : AuthenticateClusterClientReq) (now : Int64) :
    Except RuntimeError Principal := do
  let (n, _) ← opened db
  let entries ← lift (load db.tables n.g.cluster)
  let state ← lift (replay n.g entries)
  let cluster ← readId r.knownHead.clusterId
  let node ← readId r.serverAdmissionId
  let nodeKey ← readId r.serverPublicKey
  let grant ← readId r.grantId
  let client ← readId r.clientPublicKey
  let epoch ← counter r.knownHead.managementEpoch
  ensure (0 ≤ r.knownHead.sequence) .invalidProof
  let principal : Principal :=
    ⟨cluster, node, nodeKey, grant, client, epoch, r.knownHead.sequence.toUInt64⟩
  principal.check n state now
  ensure (principal.sequence.toNat ≤ entries.length) .invalidProof
  let pinned ← lift (replay n.g (entries.take principal.sequence.toNat))
  ensure (r.knownHead = head pinned) .invalidProof
  let body ← proofBody r
  let signature ← readSignature r.signature
  lift (verify principal.client body signature)
  pure principal

/-- `authorization_snapshot`. -/
def authorizationSnapshot (db : Database) : Except RuntimeError (Node × State) := do
  let n ← currentNode db
  let identity ← require .storage db.tables.identity
  ensure (identity.cluster = n.g.cluster.data ∧ identity.localKey = n.key.data) .invalidProof
  let s ← journalState db n.g
  pure (n, s)

def validate (db : Database) (p : Principal) (now : Int64) : Except RuntimeError Unit := do
  let (n, s) ← authorizationSnapshot db
  p.check n s now

/-- `subjects`: the subjects of the grants that would be valid now. -/
def subjects (db : Database) (now : Int64) : List String :=
  match authorizationSnapshot db with
  | .error _ => []
  | .ok (n, s) => s.grants.entries.filterMap fun g =>
    let p : Principal := ⟨n.g.cluster, n.admission, n.key, g.1, g.2.client, s.epoch, s.sequence⟩
    if (p.check n s now).toBool then some (subject p) else none

/-- Memory and file hold the same credentials; `cluster` is the cluster database. -/
structure Daemon (σ : Type) where
  credentials : ClientCredentials
  cluster : Database
  now : Int64
  sessions : σ → Option RpcSessionState

section
variable {σ : Type} (d : Daemon σ)

def Daemon.live (clientId : String) : Bool :=
  d.credentials.any fun record => record.clientId = clientId ∧ d.now.toInt < record.expiresAtUnix

def Daemon.isAuthenticated (st : RpcSessionState) : Bool :=
  match st.clusterPrincipal with
  | some p => (validate d.cluster p d.now).toBool
  | none => st.authenticatedClientId.isSome

def Daemon.authenticatedClientId (st : RpcSessionState) : Option String :=
  if d.isAuthenticated st then st.authenticatedClientId else none

/-- `authenticate_session_control` with a decoded credential. -/
def Daemon.authenticateSession (st : RpcSessionState) (credentialId secretSha256 : String) :
    Option RpcSessionState :=
  if d.isAuthenticated st then none
  else if d.credentials.any fun record =>
      record.clientId = credentialId ∧ verifyClientCredential record secretSha256 d.now.toInt then
    if st.authenticatedClientId.isSome || st.clusterPrincipal.isSome then none
    else some { st with authenticatedClientId := some credentialId }
  else none

/-- The session after `authenticate_cluster_client_rpc` proved the principal. -/
def authenticateGrant (st : RpcSessionState) (p : Principal) : Option RpcSessionState :=
  if st.authenticatedClientId.isSome || st.clusterPrincipal.isSome then none
  else some ⟨some (subject p), some p⟩

def Daemon.clusterCall (st : RpcSessionState) : Bool :=
  match d.authenticatedClientId st with
  | none => false
  | some client =>
    match st.clusterPrincipal with
    | some p => (validate d.cluster p d.now).toBool
    | none => d.live client

def Daemon.updaterAuthorized (st : RpcSessionState) : Bool :=
  if st.clusterPrincipal.isSome then d.isAuthenticated st
  else match d.authenticatedClientId st with
    | none => false
    | some client => d.live client

def Daemon.desktopAuth (st : RpcSessionState) : Bool :=
  match st.authenticatedClientId with
  | none => false
  | some client => client ∈ subjects d.cluster d.now ∨ d.live client

/-- `renew_client_credential` finds a record of its client. -/
def Daemon.renews (st : RpcSessionState) : Bool :=
  match d.authenticatedClientId st with
  | none => false
  | some client => (lookup d.credentials client).isSome

def Daemon.handlerAdmits (st : RpcSessionState) (proc : ProcId) : Bool :=
  if isClusterCall proc then d.clusterCall st
  else if isUpdateCall proc then d.updaterAuthorized st
  else if isDesktopCall proc then d.desktopAuth st
  else if proc = .RenewClientCredential then d.renews st
  else if proc = .CreateTerminalSession then (d.authenticatedClientId st).isSome
  else true

def Daemon.admits (st : RpcSessionState) (proc : ProcId) : Bool :=
  (!requiresAuthentication proc || d.isAuthenticated st) && d.handlerAdmits st proc

end

end

end Rieul.Server
