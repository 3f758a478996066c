import Rieul.Cluster.Node

/-!
# The cluster procedures (daemon/host/src/cluster/primary/runtime.rs)

Every procedure reads a snapshot with `opened` and then runs one immediate
transaction. The second part takes the snapshot as arguments: other procedures
may run between the two. An error rolls the transaction back.
-/

namespace Rieul.Cluster
open Bytes Fallible Cbor
open Mutation (blob)

structure Principal where
  cluster : Id
  node : Id
  nodeKey : Id
  grant : Id
  client : Id
  epoch : UInt64
  sequence : UInt64

structure Authorized where
  expiresAtUnix : Int64
  peer : Option (Id × Id)
  grant : Option Principal

structure ClientAdoptionChallenge where
  clusterId : Str
  grantId : Str
  issuerAdmissionId : Str
  clientPublicKey : Str
  expiresAtUnix : Int64

structure ClusterPairingIntent where
  challenge : ClientAdoptionChallenge
  clientProof : Str
  issuerProof : Str

structure ClusterTransferAcceptance where
  operationId : Str
  expectedHead : ClusterHead
  targetAdmissionId : Str
  targetPublicKey : Str
  signature : Str

section
variable [Platform]

def requireMember (n : Node) : Except RuntimeError Unit := ensure (n.phase = .member) .invalidState

/-- `replay(g, load(tx))`. -/
def journalState (tx : Database) (g : Genesis) : Except RuntimeError State := do
  let entries ← lift (load tx.tables g.cluster)
  lift (replay g entries)

/-- `load_node(&tx)?.ok_or(InvalidState)`. -/
def currentNode (tx : Database) : Except RuntimeError Node := do
  let node ← loadNode tx
  require .invalidState node

def Principal.check (p : Principal) (n : Node) (s : State) (now : Int64) :
    Except RuntimeError Unit := do
  requireMember n
  ensure (¬ (p.cluster ≠ n.g.cluster ∨ p.node ≠ n.admission ∨ p.nodeKey ≠ n.key ∨
    s.members.lookup p.node ≠ some p.nodeKey ∨ s.epoch < p.epoch ∨ s.sequence < p.sequence ∨
    p.grant ∈ s.revoked)) .unauthorized
  let grant ← require .unauthorized (s.grants.lookup p.grant)
  ensure (¬ (grant.client ≠ p.client ∨ grant.expires ≤ now.toUInt64)) .unauthorized

def checkGrant (tx : Database) (n : Node) (grant : Option Principal) (now : Int64) :
    Except RuntimeError Unit :=
  match grant with
  | some principal => do
    let s ← journalState tx n.g
    principal.check n s now
  | none => pure ()

def checkPeer (tx : Database) (n : Node) (peer : Option (Id × Id)) : Except RuntimeError Unit :=
  match peer with
  | some (admission, key) => do
    let s ← journalState tx n.g
    ensure (s.members.lookup admission = some key) .unauthorized
  | none => pure ()

def authorizeTransaction (tx : Database) (n : Node) (auth : Authorized) (now : Int64) :
    Except RuntimeError Unit := do
  ensure (¬ auth.expiresAtUnix ≤ now) .unauthorized
  checkGrant tx n auth.grant now
  checkPeer tx n auth.peer

/-- `append` inside the transaction of a handler, on the node of its snapshot. -/
def appendTransaction (n : Node) (tx : Database) (epoch : UInt64) (operation : Id)
    (mutation : Mutation) : Except RuntimeError (Entry × Database) := do
  let (e, tables) ← lift (append tx.tables n.g n.key n.pair epoch operation mutation)
  pure (e, { tx with tables := tables })

def commitAuthorized (n : Node) (tx : Database) (auth : Authorized) (now : Int64) (epoch : UInt64)
    (operation : Id) (mutation : Mutation) : Except RuntimeError (Entry × Database) := do
  authorizeTransaction tx n auth now
  appendTransaction n tx epoch operation mutation

def checkReceipt (n : Node) (entries : List Entry) (epoch : UInt64) (operation : Id)
    (mutation : Mutation) (expires now : Int64) : Except RuntimeError Unit :=
  match entries.find? fun e => e.operation = operation with
  | some receipt =>
    ensure (receipt.request = requestHash n.g.cluster epoch operation mutation) .conflict
  | none => ensure (¬ expires ≤ now) .retired

def commitAdmission (n : Node) (tx : Database) (auth : Authorized) (now : Int64) (epoch : UInt64)
    (operation : Id) (mutation : Mutation) (expires : Int64) :
    Except RuntimeError (Entry × Database) := do
  authorizeTransaction tx n auth now
  lift (checkIdentity tx.tables n.g n.key)
  let entries ← lift (load tx.tables n.g.cluster)
  checkReceipt n entries epoch operation mutation expires now
  appendTransaction n tx epoch operation mutation

def requestLeave (n : Node) (tx : Database) (auth : Authorized) (now : Int64) (operation : Id) :
    Except RuntimeError Database := do
  let current ← currentNode tx
  ensure (current.g = n.g ∧ current.admission = n.admission) .conflict
  authorizeTransaction tx current auth now
  ensure (∀ r ∈ tx.leaving, r.operation = operation →
    r.cluster = current.g.cluster ∧ r.admission = current.admission) .conflict
  match tx.leaving.find? fun r => r.cluster = current.g.cluster ∧ r.admission = current.admission with
  | some old => do
    ensure (old.operation = operation) .conflict
    pure tx
  | none => do
    requireMember current
    let s ← journalState tx current.g
    ensure (operation ∉ s.operations) .conflict
    ensure (tx.leaving.length < maxHistory) .limit
    let prepared := tx.tables.prepared.any fun p => p.epoch = s.epoch ∧
      p.prefixSequence = s.sequence ∧ p.prefixHash = s.head.data
    ensure (¬ (s.primary = current.admission ∨ prepared = true)) .invalidState
    pure { tx with leaving := tx.leaving ++ [⟨operation, current.g.cluster, current.admission⟩] }

def setPhase (tx : Database) (phase : Phase) : Database :=
  { tx with node := tx.node.map fun row => { row with phase := phase } }

def cancelClusterJoin (n : Node) (tx : Database) (auth : Authorized) (now : Int64) (operation : Str) :
    Except RuntimeError Database := do
  let operation ← readId operation
  ensure (operation = n.operation) .invalidState
  let current ← currentNode tx
  ensure (current.operation = n.operation ∧ current.admission = n.admission ∧ current.g = n.g)
    .conflict
  authorizeTransaction tx current auth now
  let latest ← journalState tx current.g
  let prepared := tx.tables.prepared.any fun p => latest.epoch ≤ p.epoch
  ensure (¬ (current.phase = .member ∨ latest.primary = current.admission ∨ prepared = true))
    .invalidState
  let tx := { tx with
    retiredLocal := insertLife tx.retiredLocal ⟨n.operation, n.g.cluster, n.admission⟩ }
  pure (if current.phase = .joining then setPhase tx .removalPending else tx)

/-- `consent_digest`: the consent that an Admit entry names. -/
def consentDigest (c : ClusterJoinConsent) : Except RuntimeError Id := do
  let g ← genesis c.genesis
  let operation ← readId c.operationId
  let admission ← readId c.admissionId
  let key ← readId c.nodePublicKey
  pure (Platform.hash (Value.array [
    .bytes (consentBody g operation admission key c.endpoint c.expiresAtUnix),
    .bytes c.signature]).encode)

def verifyAdmission (n : Node) (entries : List Entry) : Except RuntimeError Unit := do
  let expected ← consentDigest (consent n)
  ensure (entries.any (fun e => match e.mutation with
    | .Admit id key consent _ => id = n.admission ∧ key = n.key ∧ consent = expected
    | _ => false) = true) .invalidProof

/-- The entry that hands the primary over to `admission` under `operation`. -/
def isTransferTo (admission operation : Id) (e : Entry) : Bool :=
  e.operation = operation && match e.mutation with
    | .Transfer id _ _ _ _ => id = admission
    | _ => false

def importedPhase (current : Node) (key : Id) (admission : Id) (next : State) : Phase :=
  if current.phase = .removalPending ∨ current.phase = .removed then
    if admission ∈ next.seen ∧ admission ∉ next.members then .removed else current.phase
  else if next.members.lookup admission = some key then .member
  else .removed

/-- The checks of `finish` on the snapshot; without it the node must not be joining. -/
def checkFinish (n : Node) (finish : Option Id) (now : Int64) : Except RuntimeError Unit :=
  match finish with
  | some op => do
    ensure (¬ (n.phase = .joining ∧ n.consentExpires ≤ now)) .retired
    ensure (¬ (n.operation ≠ op ∨ n.phase ≠ .joining ∧ n.phase ≠ .member)) .invalidState
  | none =>
    if n.phase ≠ .removalPending ∧ n.phase ≠ .removed then requireMember n else pure ()

def checkMember (n : Node) (entries : List Entry) (next : State) (finish : Option Id) :
    Except RuntimeError Unit := do
  ensure (¬ (finish.isSome ∧ next.members.lookup n.admission ≠ some n.key)) .retired
  if finish.isSome ∧ n.phase = .joining then verifyAdmission n entries else pure ()

def checkActivation (n : Node) (before next : State) (entries : List Entry)
    (activation : Option Id) : Except RuntimeError Unit := do
  ensure (¬ (activation = none ∧ next.primary = n.admission ∧ before.primary ≠ n.admission))
    .invalidState
  match activation with
  | some op => ensure (¬ (next.primary ≠ n.admission ∨
      entries.any (isTransferTo n.admission op) = false)) .invalidProof
  | none => pure ()

def authorizeExternal (tx : Database) (n : Node) (external : Option Authorized) (now : Int64) :
    Except RuntimeError Unit :=
  match external with
  | some auth => authorizeTransaction tx n auth now
  | none => pure ()

/-- `import`. -/
def importHistory (n : Node) (before : State) (tx : Database) (h : ClusterHistory)
    (finish activation : Option Id) (external : Option Authorized) (now : Int64) :
    Except RuntimeError Database := do
  ensure (¬ ((n.phase = .removalPending ∨ n.phase = .removed) ∧
    (finish.isSome ∨ activation.isSome))) .retired
  checkFinish n finish now
  let entries ← decodedHistory h n.g
  let next ← lift (replay n.g entries)
  checkMember n entries next finish
  checkActivation n before next entries activation
  let current ← currentNode tx
  ensure (current.g = n.g ∧ current.admission = n.admission ∧ current.operation = n.operation)
    .conflict
  ensure (¬ (finish.isSome ∧ current.phase = .joining ∧ current.consentExpires ≤ now)) .retired
  ensure (¬ ((current.phase = .removalPending ∨ current.phase = .removed) ∧
    (finish.isSome ∨ activation.isSome))) .retired
  authorizeExternal tx n external now
  let tables ← lift (install tx.tables n.g n.key entries)
  pure (setPhase { tx with tables := tables } (importedPhase current n.key n.admission next))

/-- `apply_sync`: the worker activates with the last transfer to the node, when there is one. -/
def applySync (n : Node) (before : State) (tx : Database) (h : ClusterHistory) (now : Int64) :
    Except RuntimeError Database := do
  let entries ← decodedHistory h n.g
  let next ← lift (replay n.g entries)
  let activation := if next.primary = n.admission ∧ before.primary ≠ n.admission then
    entries.reverse.findSome? fun e => match e.mutation with
      | .Transfer id _ _ _ _ => if id = n.admission then some e.operation else none
      | _ => none
    else none
  importHistory n before tx h none activation none now

def applyRemovalProof (n : Node) (before : State) (tx : Database) (proof : ClusterHistory)
    (now : Int64) : Except RuntimeError Database := do
  let entries ← decodedHistory proof n.g
  let last ← require .invalidProof entries.getLast?
  ensure (last.mutation = .Remove n.admission) .invalidProof
  let earlier ← lift (replay n.g entries.dropLast)
  ensure (earlier.members.lookup n.admission = some n.key) .invalidProof
  importHistory n before tx proof none none none now

/-- `live`: a joining reservation whose consent has not expired. -/
def live (n : Node) (now : Int64) : Except RuntimeError Unit :=
  ensure (¬ (n.phase ≠ .joining ∨ n.consentExpires ≤ now)) .retired

def checkBootstrap (n : Node) (entries : List Entry) (next : State) : Except RuntimeError Unit :=
  if n.admission ∈ next.members then verifyAdmission n entries else pure ()

/-- `join::configure`. -/
def configure (n : Node) (tx : Database) (auth : Authorized) (now : Int64) (operation : Str)
    (bootstrapHistory : ClusterHistory) : Except RuntimeError Database := do
  let entries ← decodedHistory bootstrapHistory n.g
  let next ← lift (replay n.g entries)
  let current ← currentNode tx
  ensure (current.g = n.g ∧ current.admission = n.admission) .conflict
  let operation ← readId operation
  ensure (current.operation = operation) .conflict
  live current now
  authorizeTransaction tx current auth now
  checkBootstrap current entries next
  let tables ← lift (install tx.tables current.g current.key entries)
  let tx := { tx with tables := tables }
  if current.admission ∈ next.seen ∧ current.admission ∉ next.members then
    let row : LifeRow := ⟨current.operation, current.g.cluster, current.admission⟩
    pure (setPhase { tx with retiredLocal := insertLife tx.retiredLocal row } .removed)
  else pure { tx with scope := tx.scope.map fun scope => { scope with syncEnabled := true } }

def preparedReceipt (n : Node) (tx : Database) (operation : Id) (expectedHead : ClusterHead)
    (old : Prepared) : Except RuntimeError ClusterTransferAcceptance := do
  let entries ← lift (load tx.tables n.g.cluster)
  ensure (old.prefixSequence.toNat ≤ entries.length) .storage
  let original ← lift (replay n.g (entries.take old.prefixSequence.toNat))
  ensure (¬ (original.epoch ≠ old.epoch ∨ original.head.data ≠ old.prefixHash ∨
    expectedHead ≠ head original)) .conflict
  pure ⟨operation.data, head original, old.target, n.key.data, old.acceptance⟩

def preparePrimaryTransfer (n : Node) (tx : Database) (auth : Authorized) (now : Int64)
    (operation : Str) (expectedHead : ClusterHead) :
    Except RuntimeError (ClusterTransferAcceptance × Database) := do
  let operation ← readId operation
  let current ← currentNode tx
  requireMember current
  authorizeTransaction tx current auth now
  ensure (isLeaving tx current = false) .invalidState
  match tx.tables.prepared.find? fun p => p.operation = operation.data with
  | some old => do
    let receipt ← preparedReceipt n tx operation expectedHead old
    pure (receipt, tx)
  | none => do
    let s ← journalState tx n.g
    ensure (expectedHead = head s) .invalidProof
    let (mutation, tables) ← lift (prepare tx.tables n.g n.key n.pair operation)
    match mutation with
    | .Transfer target key _ _ acceptance =>
      pure (⟨operation.data, head s, target.data, key.data, acceptance.data⟩,
        { tx with tables := tables })
    | _ => .error .storage

def acceptedTransfer (a : ClusterTransferAcceptance) :
    Except RuntimeError (UInt64 × Id × Mutation) := do
  let epoch ← counter a.expectedHead.managementEpoch
  let operation ← readId a.operationId
  let target ← readId a.targetAdmissionId
  let key ← readId a.targetPublicKey
  let prefixHash ← readId a.expectedHead.entryHash
  let acceptance ← readSignature a.signature
  pure (epoch, operation,
    .Transfer target key a.expectedHead.sequence.toUInt64 prefixHash acceptance)

def sealPrimaryTransfer (n : Node) (tx : Database) (auth : Authorized) (now : Int64)
    (a : ClusterTransferAcceptance) : Except RuntimeError (Entry × Database) := do
  requireMember n
  let cluster ← readId a.expectedHead.clusterId
  ensure (cluster = n.g.cluster) .invalidProof
  ensure (¬ a.expectedHead.sequence.toInt < 0) .invalidProof
  let (epoch, operation, mutation) ← acceptedTransfer a
  commitAuthorized n tx auth now epoch operation mutation

def admitClusterMember (n : Node) (tx : Database) (auth : Authorized) (now : Int64)
    (operation : Str) (expectedEpoch : Int64) (c : ClusterJoinConsent) :
    Except RuntimeError (Entry × Database) := do
  requireMember n
  let g ← genesis c.genesis
  ensure (g = n.g) .invalidProof
  let admission ← readId c.admissionId
  let key ← readId c.nodePublicKey
  let consentOperation ← readId c.operationId
  let body := consentBody n.g consentOperation admission key c.endpoint c.expiresAtUnix
  -- signature lengths other than 64 never verify
  let signature ← readSignature c.signature
  lift (verify key body signature)
  let epoch ← counter expectedEpoch
  let operation ← readId operation
  commitAdmission n tx auth now epoch operation
    (.Admit admission key (Platform.hash (Value.array [.bytes body, .bytes c.signature]).encode)
      c.endpoint) c.expiresAtUnix

def removeClusterMember (n : Node) (tx : Database) (auth : Authorized) (now : Int64)
    (operation : Str) (expectedEpoch : Int64) (admission : Str) :
    Except RuntimeError (Entry × Database) := do
  requireMember n
  let epoch ← counter expectedEpoch
  let operation ← readId operation
  let admission ← readId admission
  commitAuthorized n tx auth now epoch operation (.Remove admission)

def revokeClusterClientGrant (n : Node) (tx : Database) (auth : Authorized) (now : Int64)
    (operation : Str) (expectedEpoch : Int64) (grant : Str) :
    Except RuntimeError (Entry × Database) := do
  requireMember n
  let epoch ← counter expectedEpoch
  let operation ← readId operation
  let grant ← readId grant
  commitAuthorized n tx auth now epoch operation (.Revoke grant)

/-- `adoption::mutation`. -/
def adoptionMutation (intent : ClusterPairingIntent) : Except RuntimeError Mutation := do
  let grant ← readId intent.challenge.grantId
  let issuer ← readId intent.challenge.issuerAdmissionId
  let client ← readId intent.challenge.clientPublicKey
  let expires ← counter intent.challenge.expiresAtUnix
  let clientProof ← readSignature intent.clientProof
  let issuerProof ← readSignature intent.issuerProof
  pure (.Adopt grant issuer client expires clientProof issuerProof)

def adoptClusterClient (n : Node) (tx : Database) (auth : Authorized) (now : Int64)
    (expectedEpoch : Int64) (intent : ClusterPairingIntent) :
    Except RuntimeError (Entry × Database) := do
  requireMember n
  let cluster ← readId intent.challenge.clusterId
  ensure (cluster = n.g.cluster) .invalidProof
  let mutation ← adoptionMutation intent
  let operation ← readId intent.challenge.grantId
  let entries ← lift (load tx.tables n.g.cluster)
  ensure (¬ (entries.all (fun e => e.operation ≠ operation) = true ∧
    intent.challenge.expiresAtUnix ≤ now)) .retired
  let epoch ← counter expectedEpoch
  commitAuthorized n tx auth now epoch operation mutation

/-- `adoption::get` on an intent of the outbox that is not cancelled: the primary commits it. The
epoch is that of an earlier attempt or of the snapshot. -/
def getAdoption (n : Node) (before : State) (tx : Database) (now : Int64) (epoch : UInt64)
    (grant : Id) (intent : ClusterPairingIntent) : Except RuntimeError Database := do
  let cluster ← readId intent.challenge.clusterId
  if cluster ≠ n.g.cluster ∨ intent.challenge.expiresAtUnix ≤ now then pure tx
  else if grant ∈ before.grants then pure tx
  else do
    let issuer ← readId intent.challenge.issuerAdmissionId
    if grant ∈ before.revoked ∨ issuer ∉ before.members then pure tx
    else if n.phase = .member ∧ before.primary = n.admission then do
      let mutation ← adoptionMutation intent
      let (_, tx) ← appendTransaction n tx epoch grant mutation
      pure tx
    else pure tx

inductive Call where
  | admitMember (auth : Authorized) (operation : Str) (expectedEpoch : Int64)
      (consent : ClusterJoinConsent)
  | removeMember (auth : Authorized) (operation : Str) (expectedEpoch : Int64) (admission : Str)
  | revokeGrant (auth : Authorized) (operation : Str) (expectedEpoch : Int64) (grant : Str)
  | adoptClient (auth : Authorized) (expectedEpoch : Int64) (intent : ClusterPairingIntent)
  | sealTransfer (auth : Authorized) (acceptance : ClusterTransferAcceptance)
  | getAdoption (epoch : UInt64) (grant : Id) (intent : ClusterPairingIntent)
  | leave (auth : Authorized) (operation : Id)
  | cancelJoin (auth : Authorized) (operation : Str)
  | configureJoin (auth : Authorized) (operation : Str) (history : ClusterHistory)
  | finishJoin (auth : Authorized) (operation : Id) (history : ClusterHistory)
  | joinTick (history : ClusterHistory)
  | applyHistory (auth : Authorized) (history : ClusterHistory)
  | activate (auth : Authorized) (operation : Id) (history : ClusterHistory)
  | synchronize (history : ClusterHistory)
  | removalProof (history : ClusterHistory)
  /-- The import of one of the last three, when the read before it was an older one. -/
  | workerImport (finish activation : Option Id) (history : ClusterHistory)
  | prepareTransfer (auth : Authorized) (operation : Str) (expectedHead : ClusterHead)

/-- The second part of a call, on the snapshot `n`, `before` of its first part. -/
def Call.run (c : Call) (n : Node) (before : State) (tx : Database) (now : Int64) :
    Except RuntimeError Database :=
  match c with
  | .admitMember auth operation epoch consent =>
    Prod.snd <$> admitClusterMember n tx auth now operation epoch consent
  | .removeMember auth operation epoch admission =>
    Prod.snd <$> removeClusterMember n tx auth now operation epoch admission
  | .revokeGrant auth operation epoch grant =>
    Prod.snd <$> revokeClusterClientGrant n tx auth now operation epoch grant
  | .adoptClient auth epoch intent => Prod.snd <$> adoptClusterClient n tx auth now epoch intent
  | .sealTransfer auth acceptance => Prod.snd <$> sealPrimaryTransfer n tx auth now acceptance
  | .getAdoption epoch grant intent => Cluster.getAdoption n before tx now epoch grant intent
  | .leave auth operation => requestLeave n tx auth now operation
  | .cancelJoin auth operation => cancelClusterJoin n tx auth now operation
  | .configureJoin auth operation history => configure n tx auth now operation history
  | .finishJoin auth operation history =>
    importHistory n before tx history (some operation) none (some auth) now
  | .joinTick history => importHistory n before tx history (some n.operation) none none now
  | .applyHistory auth history => importHistory n before tx history none none (some auth) now
  | .activate auth operation history =>
    importHistory n before tx history none (some operation) (some auth) now
  | .synchronize history => applySync n before tx history now
  | .removalProof history => applyRemovalProof n before tx history now
  | .workerImport finish activation history =>
    importHistory n before tx history finish activation none now
  | .prepareTransfer auth operation expectedHead =>
    Prod.snd <$> preparePrimaryTransfer n tx auth now operation expectedHead

end

section
attribute [local instance] residuePlatform

def sampleLocal : Authorized := ⟨1000, none, none⟩

def sampleTarget : Node :=
  ⟨sampleGenesis, (2 : UInt8), Fixed.fill 32 2, Fixed.fill 32 50, .joining, "endpoint", 1000⟩

def sampleConsent : Id := ((consentDigest (consent sampleTarget)).toOption).getD sampleGenesis.cluster

def rootRemoved : List Entry := sampleJournal (State.genesis sampleGenesis)
  [(1, fun _ => .Admit (Fixed.fill 32 2) (Fixed.fill 32 2) sampleConsent "endpoint"),
    (1, sampleTransfer 2 2), (2, fun _ => .Remove (Fixed.fill 32 1))]

def sampleState (n : ℕ) : State :=
  ((replay sampleGenesis (rootRemoved.take n)).toOption).getD (State.genesis sampleGenesis)

def sampleAcceptance : ClusterTransferAcceptance where
  operationId := (sampleOperation (sampleState 1)).data
  expectedHead := head (sampleState 1)
  targetAdmissionId := (Fixed.fill 32 2).data
  targetPublicKey := (Fixed.fill 32 2).data
  signature := match sampleTransfer 2 2 (sampleState 1) with
    | .Transfer _ _ _ _ acceptance => acceptance.data
    | _ => []

end

end Rieul.Cluster
