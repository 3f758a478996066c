import Rieul.Cluster.AdoptionSpec
import Rieul.Cluster.Fleet

/-!
# Who touches the outbox (daemon/host/src/cluster/primary/runtime/worker.rs, server/cluster_rpc.rs)

The outbox and the credentials of one node of a fleet. Handlers, imports and
dispatches hold the lock of the credentials, and all but the dispatch cancel what
revoked owners still wait for before they go on. The worker reads the outbox
without the lock, so that the node row it has read may be an old one.
-/

namespace Rieul.Cluster
open Bytes Fallible System
open Rieul.Server (ClientCredentials)

def Present (records : ClientCredentials) (owner : String) : Prop :=
  ∃ r ∈ records, r.clientId = owner

def Mutation.Adopts (m : Mutation) (grant issuer : Id) : Prop :=
  ∃ client expires clientProof issuerProof,
    m = .Adopt grant issuer client expires clientProof issuerProof

def Tables.Adopts (t : Tables) (grant : Id) : Prop :=
  ∃ r ∈ t.log, ∃ m issuer, Mutation.load r.payload = .ok m ∧ m.Adopts grant issuer

def Tables.Revokes (t : Tables) (grant : Id) : Prop :=
  ∃ r ∈ t.log, Mutation.load r.payload = .ok (.Revoke grant)

/-- Who holds the lock: somebody that is to cancel first, with the owners it found active; a
handler or an import after that, for the paired client that called; or a dispatch. -/
inductive Purpose where
  | worker
  | handler (client : Option String)

inductive Holder where
  | reconciling (active : List String) (purpose : Purpose)
  | running (client : Option String)
  | dispatching (owner : String) (intent : ClusterPairingIntent)

section
variable [Platform] {ι : Type} [DecidableEq ι]

/-- The worker between two ticks, after it has read the node row for `pending_intents` or for
`cancel_owner`, before its next dispatch, or about to cancel an owner. -/
inductive Worker where
  | idle
  | reading (n : Node) (owner : Option String) (rest : List (String × ClusterPairingIntent))
  | dispatching (rest : List (String × ClusterPairingIntent))
  | refusing (owner : String) (rest : List (String × ClusterPairingIntent))

/-- What has happened so far: the times read, the requests begun, the grants whose acceptance or
revocation the node's journal has recorded, those whose proofs have left the node; the requests
whose owner was removed before an acceptance was recorded, and which of them a reconcile of the
worker has seen since. -/
structure Past where
  times : Set Int64
  begun : Set Adoption
  recorded : Set Id
  revoked : Set Id
  released : Set Id
  covered : Set Adoption
  reconciled : Set Adoption

structure Adopting (ι : Type) where
  fleet : Fleet ι
  adoptions : Adoptions
  credentials : ClientCredentials
  lock : Option Holder
  worker : Worker
  past : Past

def Database.Accepts (db : Database) (a : Adoption) : Prop :=
  ∃ n es, loadNode db = .ok (some n) ∧ n.g.cluster = a.cluster ∧
    load db.tables n.g.cluster = .ok es ∧ ∃ e ∈ es, e.mutation.Adopts a.grant a.issuer

def Fleet.Accepts (w : Fleet ι) (a : Adoption) : Prop := ∃ j, (w.node j).Accepts a

/-- A call of the node, as in `Fleet.Step`. -/
def Fleet.Called (w : Fleet ι) (i : ι) (c : Call) (w' : Fleet ι) : Prop :=
  ∃ now n before db, opened (openDatabase (w.node i)) = .ok (n, before) ∧ w.Genuine n.g c.inputs ∧
    c.run n before (openDatabase (w.node i)) now = .ok db ∧
    w' = ⟨Function.update w.node i db, w.issued ∪ signed n (openDatabase (w.node i)).tables db.tables,
      w.lives⟩

theorem Fleet.Called.step {w w' : Fleet ι} {i : ι} {c : Call} (h : w.Called i c w') :
    w.Step w' := by
  obtain ⟨now, n, before, db, hopen, hg, hrun, rfl⟩ := h
  exact .call i c now n before db hopen hg hrun

namespace Adopting

def saw (s : Adopting ι) (i : ι) (w : Fleet ι) : Adopting ι :=
  { s with
    fleet := w
    past := { s.past with
      recorded := s.past.recorded ∪ {g | (w.node i).tables.Adopts g}
      revoked := s.past.revoked ∪ {g | (w.node i).tables.Revokes g} } }

def reads (s : Adopting ι) (now : Int64) : Adopting ι :=
  { s with past := { s.past with times := insert now s.past.times } }

/-- The credentials are written. What removed clients still wait for is covered, unless its
acceptance was recorded before. -/
def write (s : Adopting ι) (records : ClientCredentials) : Adopting ι :=
  { s with
    credentials := records
    past := { s.past with
      covered := {a | ¬ Present records a.owner ∧ (a ∈ s.past.covered ∨
        a ∈ s.past.begun ∧ Present s.credentials a.owner ∧ a.grant ∉ s.past.recorded)}
      reconciled := {a | ¬ Present records a.owner ∧ a ∈ s.past.reconciled} } }

def reconciled (s : Adopting ι) (tables : Adoptions) : Purpose → Adopting ι
  | .worker => { s with
      adoptions := tables
      lock := none
      past := { s.past with reconciled := s.past.covered } }
  | .handler client => { s with adoptions := tables, lock := some (.running client) }

def Proved (s : Adopting ι) (w : Fleet ι) : Prop :=
  ∀ a ∈ s.past.begun, w.Accepts a → a.grant ∈ s.past.released

def Fresh (s : Adopting ι) (grant : Id) : Prop :=
  ∀ a : Adoption, a.grant = grant → a ∉ s.past.begun ∧ ¬ s.fleet.Accepts a ∧
    grant ∉ s.past.released

def ActsFor (s : Adopting ι) (owner : String) : Prop :=
  s.lock = some (.running (some owner)) ∨ ∃ intent, s.lock = some (.dispatching owner intent)

def Dispatching (s : Adopting ι) : Prop :=
  ∃ owner intent, s.lock = some (.dispatching owner intent)

inductive Step (i : ι) (s : Adopting ι) : Adopting ι → Prop where
  /-- Other nodes, and reads of this one. -/
  | elsewhere (w : Fleet ι) (h : s.fleet.Step w)
      (hi : w.node i = s.fleet.node i ∨ w.node i = openDatabase (s.fleet.node i))
      (hproved : s.Proved w) : Step i s (s.saw i w)
  | write (records : ClientCredentials) (hlock : s.lock = none) : Step i s (s.write records)
  | enter (purpose : Purpose) (now : Int64) (hlock : s.lock = none)
      (hclient : ∀ client, purpose = .handler (some client) →
        client ∈ activeClients s.credentials now) :
      Step i s { s.reads now with
        lock := some (.reconciling (activeClients s.credentials now) purpose) }
  /-- `cancel_inactive`. -/
  | reconcile (active : List String) (purpose : Purpose) (n : Node) (state : State)
      (tables : Adoptions) (now : Int64) (hlock : s.lock = some (.reconciling active purpose))
      (hopen : opened (openDatabase (s.fleet.node i)) = .ok (n, state))
      (h : s.adoptions.cancelInactive n state active now = .ok tables) :
      Step i s ((s.reads now).reconciled tables purpose)
  /-- `path.exists()` is false. -/
  | skip (active : List String) (client : Option String)
      (hlock : s.lock = some (.reconciling active (.handler client)))
      (hnone : s.fleet.node i = Database.empty) (hempty : s.adoptions = Adoptions.empty) :
      Step i s { s with lock := some (.running client) }
  /-- Any procedure of a handler or of an import. -/
  | body (w : Fleet ι) (client : Option String) (h : s.fleet.Step w)
      (hlock : s.lock = some (.running client)) (hproved : s.Proved w) : Step i s (s.saw i w)
  | begin (owner : String) (n : Node) (state : State) (expiresAtUnix : Int64) (client : Id)
      (now : Int64) (grant : Id) (challenge : ClientAdoptionChallenge) (tables : Adoptions)
      (hlock : s.lock = some (.running (some owner)))
      (hopen : opened (openDatabase (s.fleet.node i)) = .ok (n, state)) (hfresh : s.Fresh grant)
      (h : s.adoptions.begin (openDatabase (s.fleet.node i)) n state owner expiresAtUnix client now
        grant = .ok (challenge, tables)) :
      Step i s { s.reads now with
        adoptions := tables
        past := { (s.reads now).past with begun := s.past.begun ∪ {a | tables.Waiting a} } }
  | complete (owner : String) (n : Node) (state : State) (grantId clientProof : Str) (now : Int64)
      (tables : Adoptions) (hlock : s.lock = some (.running (some owner)))
      (hopen : opened (openDatabase (s.fleet.node i)) = .ok (n, state))
      (h : s.adoptions.complete (openDatabase (s.fleet.node i)) n owner grantId clientProof now =
        .ok tables) : Step i s { s with adoptions := tables }
  /-- `get` of a paired client or of a dispatch, when it comes to a commit. -/
  | get (owner : String) (grant : Id) (epoch : UInt64) (intent : ClusterPairingIntent) (w : Fleet ι)
      (released : Set Id) (hactor : s.ActsFor owner)
      (hintent : s.adoptions.getIntent owner grant = .ok (some intent))
      (h : s.fleet.Called i (.getAdoption epoch grant intent) w)
      (hreleased : released = s.past.released ∪ {g | g = grant ∧ (w.node i).tables.Adopts g})
      (hproved : ∀ a ∈ s.past.begun, w.Accepts a → a.grant ∈ released) :
      Step i s { s.saw i w with past := { (s.saw i w).past with released := released } }
  | release (holder : Holder) (hlock : s.lock = some holder) : Step i s { s with lock := none }
  /-- The first part of `pending_intents`. -/
  | read (n : Node) (state : State) (hworker : s.worker = .idle)
      (hopen : opened (openDatabase (s.fleet.node i)) = .ok (n, state)) :
      Step i s { s with worker := .reading n none [] }
  | intents (n : Node) (rest : List (String × ClusterPairingIntent)) (state : State)
      (tables : Adoptions) (intents : List (String × ClusterPairingIntent)) (now : Int64)
      (hworker : s.worker = .reading n none rest)
      (hstate : journalState (s.fleet.node i) n.g = .ok state)
      (h : s.adoptions.pendingIntents n state now = .ok (tables, intents)) :
      Step i s { s.reads now with adoptions := tables, worker := .dispatching intents }
  /-- `dispatch_guard` finds the owner active. -/
  | dispatch (owner : String) (intent : ClusterPairingIntent)
      (rest : List (String × ClusterPairingIntent)) (now : Int64)
      (hworker : s.worker = .dispatching ((owner, intent) :: rest)) (hlock : s.lock = none)
      (hactive : owner ∈ activeClients s.credentials now) :
      Step i s { s.reads now with
        lock := some (.dispatching owner intent)
        worker := .dispatching rest }
  | refuse (owner : String) (intent : ClusterPairingIntent)
      (rest : List (String × ClusterPairingIntent)) (now : Int64)
      (hworker : s.worker = .dispatching ((owner, intent) :: rest)) (hlock : s.lock = none)
      (hactive : owner ∉ activeClients s.credentials now) :
      Step i s { s.reads now with worker := .refusing owner rest }
  /-- The first part of `cancel_owner`. -/
  | readOwner (owner : String) (n : Node) (state : State)
      (rest : List (String × ClusterPairingIntent)) (hworker : s.worker = .refusing owner rest)
      (hlock : ¬ s.Dispatching)
      (hopen : opened (openDatabase (s.fleet.node i)) = .ok (n, state)) :
      Step i s { s with worker := .reading n (some owner) rest }
  | cancelOwner (n : Node) (owner : String) (rest : List (String × ClusterPairingIntent))
      (state : State) (tables : Adoptions) (now : Int64)
      (hworker : s.worker = .reading n (some owner) rest)
      (hstate : journalState (s.fleet.node i) n.g = .ok state)
      (h : s.adoptions.cancelOwner n state owner now = .ok tables) :
      Step i s { s.reads now with adoptions := tables, worker := .dispatching rest }
  /-- The intent of a dispatch goes to the primary. -/
  | send (owner : String) (intent : ClusterPairingIntent)
      (hlock : s.lock = some (.dispatching owner intent)) :
      Step i s { s with past := { s.past with
        released := s.past.released ∪ {g | g.data = intent.challenge.grantId} } }
  /-- The worker, as the primary, revokes a cancelled grant, without the lock. -/
  | revoke (auth : Authorized) (operation : Str) (epoch : Int64) (grant : Str) (w : Fleet ι)
      (h : s.fleet.Called i (.revokeGrant auth operation epoch grant) w) (hproved : s.Proved w) :
      Step i s (s.saw i w)
  /-- A tick ends. -/
  | tick (hlock : ¬ s.Dispatching) : Step i s { s with worker := .idle }
  /-- The daemon ends and starts again. -/
  | restart : Step i s { s with lock := none, worker := .idle }

def Initial (s : Adopting ι) : Prop :=
  s.fleet.Initial ∧ s.adoptions = Adoptions.empty ∧ s.lock = none ∧ s.worker = .idle ∧
    s.past = ⟨∅, ∅, ∅, ∅, ∅, ∅, ∅⟩

def Reached (i : ι) : Adopting ι → Prop := Reachable Initial (Step i)

def Later (i : ι) (s : Adopting ι) : Adopting ι → Prop := Reachable (fun t => t = s) (Step i)

def Marked (s : Adopting ι) (a : Adoption) : Prop := s.adoptions.Marked a

def Expired (s : Adopting ι) (a : Adoption) : Prop := ∃ now ∈ s.past.times, a.expires ≤ now

def Acceptable (i : ι) (s : Adopting ι) (a : Adoption) : Prop :=
  ∃ t, s.Later i t ∧ t.fleet.Accepts a

end Adopting
end
end Rieul.Cluster
