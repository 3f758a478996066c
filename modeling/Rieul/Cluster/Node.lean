import Rieul.Cluster.Wire

/-!
# The node row and its phases (daemon/host/src/cluster/primary/runtime.rs)

One SQLite file holds the journal of `Store` and the node's own row: its key
pair, the cluster it belongs to, its admission and the phase of its membership.
`initializeNode` starts a new life of the node, `opened` is the first read of every
procedure.
-/

namespace Rieul.Cluster
open Bytes Fallible Cbor
open Mutation (blob)

/-- The `phase` column: 1 joining, 2 member, 3 removal pending, 4 removed. -/
inductive Phase where
  | joining
  | member
  | removalPending
  | removed
  deriving DecidableEq

structure JoinScope where
  expires : Int64
  syncEnabled : Bool

structure Endpoints where
  own : String
  root : String

/-- A row of `leaving` or of `retired_local`. -/
structure LifeRow where
  operation : Id
  cluster : Id
  admission : Id

structure ClusterJoinConsent where
  expiresAtUnix : Int64
  genesis : ClusterGenesis
  endpoint : String
  operationId : Str
  admissionId : Str
  nodePublicKey : Str
  signature : Str

structure ClusterMember where
  admissionId : Str
  nodePublicKey : Str
  endpoint : String

section
variable [Platform]

structure NodeRow where
  pkcs8 : Platform.Secret
  nonce : Id
  root : Id
  rootKey : Id
  admission : Id
  operation : Id
  phase : Phase

structure Database where
  node : Option NodeRow
  scope : Option JoinScope
  endpoint : Option Endpoints
  leaving : List LifeRow
  retiredLocal : List LifeRow
  tables : Tables

structure Node where
  g : Genesis
  pair : Platform.Secret
  admission : Id
  operation : Id
  phase : Phase
  endpoint : String
  consentExpires : Int64

def Node.key (n : Node) : Id := Platform.publicKey n.pair

def Database.empty : Database := ⟨none, none, none, [], [], Tables.empty⟩

def consentBody (g : Genesis) (operation admission key : Id) (endpoint : String) (expires : Int64) :
    Str :=
  (Value.array [.text "rieul.cluster.target-consent.v2", blob g.cluster, blob operation,
    blob admission, blob key, .bool true, .text endpoint, .i64 expires]).encode

def consent (n : Node) : ClusterJoinConsent where
  expiresAtUnix := n.consentExpires
  genesis := wireGenesis n.g
  endpoint := n.endpoint
  operationId := n.operation.data
  admissionId := n.admission.data
  nodePublicKey := n.key.data
  signature := (Platform.sign n.pair
    (consentBody n.g n.operation n.admission n.key n.endpoint n.consentExpires)).data

def loadNode (db : Database) : Except RuntimeError (Option Node) :=
  match db.node with
  | none => .ok none
  | some row => do
    let endpoints ← require .storage db.endpoint
    lift (validateEndpoint endpoints.own)
    lift (validateEndpoint endpoints.root)
    pure (some {
      g := ⟨row.nonce, row.root, row.rootKey, endpoints.root⟩
      pair := row.pkcs8
      admission := row.admission
      operation := row.operation
      phase := row.phase
      endpoint := endpoints.own
      consentExpires := (db.scope.map JoinScope.expires).getD 0 })

def readTarget : Option ClusterGenesis → Except RuntimeError (Option Genesis)
  | some w => do
    let g ← genesis w
    pure (some g)
  | none => pure none

/-- What `SystemRandom` supplies to one call of `initializeNode`. -/
structure Randomness where
  pair : Platform.Secret
  admission : Id
  nonce : Id

/-- `INSERT OR IGNORE`: the operation is the primary key. -/
def insertLife (rows : List LifeRow) (row : LifeRow) : List LifeRow :=
  if rows.any fun r => r.operation = row.operation then rows else rows ++ [row]

def newLife (target : Option Genesis) (key : Id) (endpoint : String) (random : Randomness) :
    Genesis × Phase :=
  match target with
  | some g => (g, .joining)
  | none => (⟨random.nonce, random.admission, key, endpoint⟩, .member)

def sameLife (old : Node) : Option Genesis → Prop
  | some g => g = old.g ∧ (old.phase = .joining ∨ old.phase = .member)
  | none => old.g.rootKey = old.key ∧ old.g.root = old.admission

instance (old : Node) (target : Option Genesis) : Decidable (sameLife old target) := by
  cases target <;> unfold sameLife <;> infer_instance

/-- `expires` of a fresh join scope. -/
def joinScope (phase : Phase) (now : Int64) : JoinScope :=
  ⟨if phase = .joining then now + 300 else 0, false⟩

/-- `initialize`. -/
def initializeNode (db : Database) (operation : Id) (target : Option Genesis) (endpoint : String)
    (now : Int64) (random : Randomness) : Except RuntimeError Database := do
  lift (validateEndpoint endpoint)
  ensure (∀ r ∈ db.retiredLocal, r.operation ≠ operation) .retired
  match ← loadNode db with
  | some old =>
    if old.operation = operation then do
      ensure (old.endpoint = endpoint) .conflict
      ensure (sameLife old target) .conflict
      pure db
    else do
      ensure (old.phase = .removed) .alreadyAffiliated
      let (g, phase) := newLife target old.key endpoint random
      pure { db with
        retiredLocal := insertLife db.retiredLocal ⟨old.operation, old.g.cluster, old.admission⟩
        scope := some (joinScope phase now)
        node := some ⟨old.pair, g.nonce, g.root, g.rootKey, random.admission, operation, phase⟩
        endpoint := some ⟨endpoint, g.rootEndpoint⟩
        tables := Tables.empty }
  | none => do
    let (g, phase) := newLife target (Platform.publicKey random.pair) endpoint random
    pure { db with
      scope := some (joinScope phase now)
      node := some ⟨random.pair, g.nonce, g.root, g.rootKey, random.admission, operation, phase⟩
      endpoint := some ⟨endpoint, g.rootEndpoint⟩ }

/-- The write of `opened`: `Store::open` creates the identity row when there is none. -/
def openDatabase (db : Database) : Database :=
  match loadNode db with
  | .ok (some n) => { db with tables := createIdentity db.tables n.g n.key }
  | _ => db

/-- `opened`: the node row and the replayed journal of an opened database. -/
def opened (db : Database) : Except RuntimeError (Node × State) := do
  let node ← loadNode db
  let n ← require .invalidState node
  let s ← lift (openStore db.tables n.g n.key).2
  pure (n, s)

def isLeaving (db : Database) (n : Node) : Bool :=
  db.leaving.any fun r => r.cluster = n.g.cluster ∧ r.admission = n.admission

theorem loadNode_of (db : Database) (row : NodeRow) (endpoints : Endpoints)
    (hrow : db.node = some row) (hend : db.endpoint = some endpoints)
    (hown : validateEndpoint endpoints.own = .ok ())
    (hroot : validateEndpoint endpoints.root = .ok ()) :
    loadNode db = .ok (some ⟨⟨row.nonce, row.root, row.rootKey, endpoints.root⟩, row.pkcs8,
      row.admission, row.operation, row.phase, endpoints.own,
      (db.scope.map JoinScope.expires).getD 0⟩) := by
  unfold loadNode
  rw [hrow, hend]
  simp only [require_some, ok_bind, hown, hroot, liftError]
  rfl

section
variable (db : Database) (n : Node) (h : loadNode db = .ok (some n))
include db n h

theorem loadNode_eq_some :
    ∃ row endpoints, db.node = some row ∧ db.endpoint = some endpoints ∧
      validateEndpoint endpoints.own = .ok () ∧ validateEndpoint endpoints.root = .ok () ∧
      n = ⟨⟨row.nonce, row.root, row.rootKey, endpoints.root⟩, row.pkcs8, row.admission,
        row.operation, row.phase, endpoints.own, (db.scope.map JoinScope.expires).getD 0⟩ := by
  cases hrow : db.node with
  | none => simp [loadNode, hrow] at h
  | some row =>
    simp only [loadNode, hrow, bind_eq_ok, exists_unit_iff, require_eq_ok, liftError_eq_ok,
      pure_eq_ok, Option.some.injEq] at h
    obtain ⟨endpoints, hend, hown, hroot, rfl⟩ := h
    exact ⟨row, endpoints, rfl, hend, hown, hroot, rfl⟩

theorem loadNode_root :
    validateEndpoint n.g.rootEndpoint = .ok () := by
  obtain ⟨row, endpoints, -, -, -, hroot, rfl⟩ := loadNode_eq_some db n h
  exact hroot

theorem openDatabase_of :
    openDatabase db = { db with tables := createIdentity db.tables n.g n.key } := by
  rw [openDatabase, h]

end

/-- Creating the identity row changes nothing that `loadNode` reads. -/
theorem loadNode_openDatabase (db : Database) : loadNode (openDatabase db) = loadNode db := by
  unfold openDatabase
  split <;> rfl

theorem readTarget_root {w : Option ClusterGenesis} {g : Genesis}
    (h : readTarget w = .ok (some g)) : validateEndpoint g.rootEndpoint = .ok () := by
  cases w with
  | none => simp [readTarget] at h
  | some w =>
    simp only [readTarget, genesis, bind_eq_ok, exists_unit_iff, liftError_eq_ok, pure_eq_ok,
      Option.some.injEq] at h
    obtain ⟨_, ⟨_, _, _, _, _, _, hend, rfl⟩, rfl⟩ := h
    exact hend

theorem newLife_cases (target : Option Genesis) (key : Id) (endpoint : String)
    (random : Randomness) :
    (∃ g, target = some g ∧ newLife target key endpoint random = (g, .joining)) ∨
      (target = none ∧ newLife target key endpoint random =
        (⟨random.nonce, random.admission, key, endpoint⟩, .member)) := by
  cases target with
  | some g => exact Or.inl ⟨g, rfl, rfl⟩
  | none => exact Or.inr ⟨rfl, rfl⟩

theorem newLife_root (target : Option Genesis) (key : Id) (endpoint : String) (random : Randomness)
    (htarget : ∀ g, target = some g → validateEndpoint g.rootEndpoint = .ok ())
    (hend : validateEndpoint endpoint = .ok ()) :
    validateEndpoint (newLife target key endpoint random).1.rootEndpoint = .ok () := by
  rcases newLife_cases target key endpoint random with ⟨g, htg, hnew⟩ | ⟨-, hnew⟩
  · rw [hnew]
    exact htarget g htg
  · rw [hnew]
    exact hend

def newNode (target : Option Genesis) (pair : Platform.Secret) (operation : Id) (endpoint : String)
    (now : Int64) (random : Randomness) : Node :=
  let life := newLife target (Platform.publicKey pair) endpoint random
  ⟨life.1, pair, random.admission, operation, life.2, endpoint, (joinScope life.2 now).expires⟩

section
variable (db db' : Database) (old : Node) (operation : Id) (target : Option Genesis)
  (endpoint : String) (now : Int64) (random : Randomness) (hold : loadNode db = .ok (some old))
include db db' old operation target endpoint now random hold

theorem initializeNode_repeat (hop : old.operation = operation)
    (h : initializeNode db operation target endpoint now random = .ok db') : db' = db := by
  simp only [initializeNode, bind_eq_ok, exists_unit_iff, liftError_eq_ok, ensure_eq_ok, hold,
    Except.ok.injEq, exists_eq_left', if_pos hop, pure_eq_ok] at h
  obtain ⟨-, -, -, -, rfl⟩ := h
  rfl

theorem initializeNode_again (hop : old.operation ≠ operation)
    (h : initializeNode db operation target endpoint now random = .ok db') :
    validateEndpoint endpoint = .ok () ∧ (∀ r ∈ db.retiredLocal, r.operation ≠ operation) ∧
      old.phase = .removed ∧ db' = { db with
        retiredLocal := insertLife db.retiredLocal ⟨old.operation, old.g.cluster, old.admission⟩
        scope := some (joinScope (newLife target old.key endpoint random).2 now)
        node := some ⟨old.pair, (newLife target old.key endpoint random).1.nonce,
          (newLife target old.key endpoint random).1.root,
          (newLife target old.key endpoint random).1.rootKey, random.admission, operation,
          (newLife target old.key endpoint random).2⟩
        endpoint := some ⟨endpoint, (newLife target old.key endpoint random).1.rootEndpoint⟩
        tables := Tables.empty } := by
  simp only [initializeNode, bind_eq_ok, exists_unit_iff, liftError_eq_ok, ensure_eq_ok, hold,
    Except.ok.injEq, exists_eq_left', if_neg hop, pure_eq_ok] at h
  obtain ⟨hend, hret, hphase, rfl⟩ := h
  exact ⟨hend, hret, hphase, rfl⟩

end

theorem initializeNode_first (db db' : Database) (operation : Id) (target : Option Genesis)
    (endpoint : String) (now : Int64) (random : Randomness) (hold : loadNode db = .ok none)
    (h : initializeNode db operation target endpoint now random = .ok db') :
    validateEndpoint endpoint = .ok () ∧ db' = { db with
      scope := some (joinScope (newLife target (Platform.publicKey random.pair) endpoint random).2 now)
      node := some ⟨random.pair,
        (newLife target (Platform.publicKey random.pair) endpoint random).1.nonce,
        (newLife target (Platform.publicKey random.pair) endpoint random).1.root,
        (newLife target (Platform.publicKey random.pair) endpoint random).1.rootKey,
        random.admission, operation,
        (newLife target (Platform.publicKey random.pair) endpoint random).2⟩
      endpoint := some ⟨endpoint,
        (newLife target (Platform.publicKey random.pair) endpoint random).1.rootEndpoint⟩ } := by
  simp only [initializeNode, bind_eq_ok, exists_unit_iff, liftError_eq_ok, ensure_eq_ok, hold,
    Except.ok.injEq, exists_eq_left', pure_eq_ok] at h
  obtain ⟨hend, -, rfl⟩ := h
  exact ⟨hend, rfl⟩

theorem initializeNode_begins (db db' : Database) (old : Option Node) (operation : Id)
    (target : Option Genesis) (endpoint : String) (now : Int64) (random : Randomness)
    (hold : loadNode db = .ok old) (hop : old.map Node.operation ≠ some operation)
    (htarget : ∀ g, target = some g → validateEndpoint g.rootEndpoint = .ok ())
    (h : initializeNode db operation target endpoint now random = .ok db') :
    ∃ pair, loadNode db' = .ok (some (newNode target pair operation endpoint now random)) ∧
      ((old = none ∧ pair = random.pair ∧ db'.tables = db.tables) ∨
        ∃ n, old = some n ∧ n.phase = .removed ∧ pair = n.pair ∧ db'.tables = Tables.empty) := by
  cases old with
  | none =>
    obtain ⟨hend, rfl⟩ := initializeNode_first db db' operation target endpoint now random hold h
    have hroot := newLife_root target (Platform.publicKey random.pair) endpoint random htarget hend
    exact ⟨random.pair, (loadNode_of _ _ _ rfl rfl hend hroot).trans rfl, Or.inl ⟨rfl, rfl, rfl⟩⟩
  | some n =>
    have hne : n.operation ≠ operation := fun heq => hop (congrArg some heq)
    obtain ⟨hend, -, hphase, rfl⟩ :=
      initializeNode_again db db' n operation target endpoint now random hold hne h
    have hroot := newLife_root target n.key endpoint random htarget hend
    exact ⟨n.pair, (loadNode_of _ _ _ rfl rfl hend hroot).trans rfl,
      Or.inr ⟨n, rfl, hphase, rfl, rfl⟩⟩

end

end Rieul.Cluster
