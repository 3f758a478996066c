import Mathlib.Data.List.Sort
import Rieul.Cluster.StateInvariant

/-!
# The durable journal of one node (daemon/host/src/cluster/primary.rs)

The SQLite tables are a record of lists. A transaction that fails is rolled
back, so every operation returns the tables after it or an error.
-/

namespace Rieul.Cluster
open Bytes Fallible

structure Identity where
  cluster : Str
  localKey : Str
  sealed : Bool
  deriving DecidableEq

structure Row where
  sequence : UInt64
  epoch : UInt64
  previous : Str
  operation : Str
  request : Str
  payload : Str
  signature : Str
  deriving DecidableEq

structure Prepared where
  operation : Str
  epoch : UInt64
  target : Str
  acceptance : Str
  prefixSequence : UInt64
  prefixHash : Str
  deriving DecidableEq

structure Tables where
  identity : Option Identity
  log : List Row
  prepared : List Prepared
  deriving DecidableEq

def Tables.empty : Tables := ⟨none, [], []⟩

def Row.load (cluster : Id) (r : Row) : Except Error Entry := do
  let previous ← require .invalid (Fixed.ofStr 32 r.previous)
  let operation ← require .invalid (Fixed.ofStr 32 r.operation)
  let request ← require .invalid (Fixed.ofStr 32 r.request)
  let mutation ← Mutation.load r.payload
  let signature ← require .invalid (Fixed.ofStr 64 r.signature)
  pure ⟨cluster, r.epoch, r.sequence, previous, operation, request, mutation, signature⟩

def Entry.row (e : Entry) : Row :=
  ⟨e.sequence, e.epoch, e.previous.data, e.operation.data, e.request.data, e.mutation.storage,
    e.signature.data⟩

def loadRows (cluster : Id) : List Row → Except Error (List Entry)
  | [] => .ok []
  | r :: rs => do
    let e ← r.load cluster
    let es ← loadRows cluster rs
    pure (e :: es)

def load (db : Tables) (cluster : Id) : Except Error (List Entry) := do
  ensure (db.log.length ≤ maxHistory) .limit
  loadRows cluster db.log

/-- `INSERT INTO log`: the sequence is the primary key, operations are unique. -/
def insertEntry (tx : Tables) (e : Entry) : Except Error Tables := do
  ensure (∀ r ∈ tx.log, r.sequence ≠ e.sequence ∧ r.operation ≠ e.operation.data) .database
  pure { tx with log := tx.log.orderedInsert (fun a b => a.sequence ≤ b.sequence) e.row }

def setSealed (tx : Tables) (flag : Bool) : Tables :=
  { tx with identity := tx.identity.map fun i => { i with sealed := flag } }

def size (entries : List Entry) : ℕ := (entries.map fun e => e.body.length + 128).sum

def maxSize : ℕ := 240 * 1024

variable [Platform]

def checkIdentity (db : Tables) (g : Genesis) (localKey : Id) : Except Error Unit := do
  let identity ← require .database db.identity
  ensure (identity.cluster = g.cluster.data ∧ identity.localKey = localKey.data) .invalid

/-- `INSERT OR IGNORE INTO identity`, the write of `Store::open`. -/
def createIdentity (db : Tables) (g : Genesis) (localKey : Id) : Tables :=
  { db with identity := some (db.identity.getD ⟨g.cluster.data, localKey.data, false⟩) }

/-- `Store::open` on the created tables: the identity is checked and the journal replayed. -/
def openStore (db : Tables) (g : Genesis) (localKey : Id) : Tables × Except Error State :=
  let db := createIdentity db g localKey
  (db, do
    checkIdentity db g localKey
    let entries ← load db g.cluster
    replay g entries)

def prepare (tx : Tables) (g : Genesis) (localKey : Id) (pair : Platform.Secret) (operation : Id) :
    Except Error (Mutation × Tables) := do
  checkIdentity tx g localKey
  ensure (Platform.publicKey pair = localKey) .invalid
  let entries ← load tx g.cluster
  let state ← replay g entries
  let member ← require .invalid (state.members.entries.find? fun p => p.2 = localKey)
  let target := member.1
  ensure (¬ (target = state.primary ∨ state.epoch ≥ maxCounter)) .invalid
  let signature := Platform.sign pair (acceptanceBody state.cluster state.epoch operation target
    localKey state.sequence state.head)
  let transfer := Mutation.Transfer target localKey state.sequence state.head signature
  match tx.prepared.find? fun p => p.operation = operation.data with
  | some old => do
    ensure (old.epoch = state.epoch ∧ old.target = target.data ∧ old.acceptance = signature.data)
      .conflict
    pure (transfer, tx)
  | none => do
    let active := tx.prepared.countP fun p => p.epoch = state.epoch ∧
      p.prefixSequence = state.sequence ∧ p.prefixHash = state.head.data
    ensure (¬ (active ≥ 16 ∨ tx.prepared.length ≥ maxHistory)) .limit
    pure (transfer, { tx with prepared := tx.prepared ++ [⟨operation.data, state.epoch, target.data,
      signature.data, state.sequence, state.head.data⟩] })

def Mutation.isTransfer : Mutation → Bool
  | .Transfer .. => true
  | _ => false

/-- The entry that `append` signs after `state`. -/
def signEntry (g : Genesis) (state : State) (pair : Platform.Secret) (epoch : UInt64)
    (operation : Id) (mutation : Mutation) (sequence : UInt64) : Entry :=
  let entry : Entry := {
    cluster := g.cluster
    epoch := epoch
    sequence := sequence
    previous := state.head
    operation := operation
    request := requestHash g.cluster epoch operation mutation
    mutation := mutation
    signature := Fixed.fill 64 0 }
  { entry with signature := Platform.sign pair entry.body }

def append (tx : Tables) (g : Genesis) (localKey : Id) (pair : Platform.Secret) (epoch : UInt64)
    (operation : Id) (mutation : Mutation) : Except Error (Entry × Tables) := do
  checkIdentity tx g localKey
  ensure (Platform.publicKey pair = localKey) .invalid
  let history ← load tx g.cluster
  let state ← replay g history
  let request := requestHash g.cluster epoch operation mutation
  match history.find? fun e => e.operation = operation with
  | some entry => do
    ensure (entry.request = request) .conflict
    pure (entry, tx)
  | none => do
    let identity ← require .database tx.identity
    ensure (¬ (identity.sealed = true ∨ state.members.lookup state.primary ≠ some localKey ∨
      state.epoch ≠ epoch)) .notPrimary
    ensure (history.length < maxHistory) .limit
    let sequence ← require .exhausted ((checkedAdd state.sequence 1).filter (· ≤ maxCounter))
    let entry := signEntry g state pair epoch operation mutation sequence
    let _ ← state.apply entry
    ensure (size history + (entry.body.length + 128) ≤ maxSize) .limit
    let tx ← insertEntry tx entry
    pure (entry, if mutation.isTransfer then setSealed tx true else tx)

/-- The loop body of `install`. -/
def installEntry (localKey : Id) (tx : Tables) (e : Entry) : Except Error Tables :=
  match e.mutation with
  | .Transfer id key _ _ acceptance =>
    if key = localKey then do
      let prepared := (tx.prepared.find? fun p => p.operation = e.operation.data).map
        fun p => (p.epoch, p.target, p.acceptance)
      ensure (prepared = some (e.epoch, id.data, acceptance.data)) .unprepared
      insertEntry (setSealed tx false) e
    else insertEntry tx e
  | _ => insertEntry tx e

def install (tx : Tables) (g : Genesis) (localKey : Id) (entries : List Entry) :
    Except Error Tables := do
  checkIdentity tx g localKey
  ensure (entries.length ≤ maxHistory) .limit
  let existing ← load tx g.cluster
  ensure (¬ (entries.length < existing.length ∨ entries.take existing.length ≠ existing)) .invalid
  ensure (size entries ≤ maxSize) .limit
  let _ ← replay g entries
  Replay.replay (installEntry localKey) tx (entries.drop existing.length)

end Rieul.Cluster
