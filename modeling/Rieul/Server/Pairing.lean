import Mathlib.Logic.Function.Basic
import Rieul.Server.CredentialUpdates

/-!
# Pairing (daemon/host/src/server.rs, daemon/core/src/pairing.rs)

All sessions share one table of current attempts, one a key, and one active
challenge. `start_pairing` registers an attempt, waits for the local user, and
publishes a challenge when the attempt is still current; `complete_pairing`
takes the challenge and issues a credential after it has released the lock.
-/

namespace Rieul.Server
open System

/-- `char::is_whitespace`. -/
def isWhitespace (c : Char) : Bool :=
  let n := c.toNat
  (9 ≤ n && n ≤ 13) || n = 32 || n = 0x85 || n = 0xA0 || n = 0x1680 || (0x2000 ≤ n && n ≤ 0x200A) ||
    n = 0x2028 || n = 0x2029 || n = 0x202F || n = 0x205F || n = 0x3000

def trim (s : String) : String :=
  String.ofList ((s.toList.dropWhile isWhitespace).reverse.dropWhile isWhitespace).reverse

structure StartPairingRequest where
  confirmationCode : String
  clientLabel : String
  clientId : Option String

def normalizeConfirmationCode (raw : String) : Option String :=
  let code := trim raw
  if code.utf8ByteSize = 2 ∧ code.toList.all Char.isDigit then some code else none

def pairingClientLabel (raw : String) : String :=
  if trim raw = "" then "browser" else trim raw

def normalizePairingClientId (raw : Option String) : Option String :=
  (raw.map trim).filter (· ≠ "")

inductive PairingAttemptKey where
  | ClientId (clientId : String)
  | Anonymous
  deriving DecidableEq

def pairingAttemptKey : Option String → PairingAttemptKey
  | some clientId => .ClientId clientId
  | none => .Anonymous

structure PairingRecord where
  codeSha256 : String
  expiresAtUnix : ℤ

def pairingTtlSeconds : ℤ := 180

/-- `create_pairing_code`; the code is drawn by the caller. -/
def createPairingCode (codeSha256 : String) (now : ℤ) : PairingRecord :=
  ⟨codeSha256, now + pairingTtlSeconds⟩

def verifyPairingCode (record : PairingRecord) (codeSha256 : String) (now : ℤ) : Bool :=
  if now ≥ record.expiresAtUnix then false else record.codeSha256 = codeSha256

structure ActivePairingChallenge where
  attemptId : ℕ
  attemptKey : PairingAttemptKey
  ownerSessionId : ℕ
  record : PairingRecord
  clientLabel : String
  clientId : Option String

structure PairingState where
  nextAttemptId : ℕ
  currentAttempts : PairingAttemptKey → Option ℕ
  activeChallenge : Option ActivePairingChallenge

structure RpcError where
  code : String
  message : String

namespace PairingState
variable (s : PairingState)

/-- `PairingState::default`. -/
def initial : PairingState := ⟨0, fun _ => none, none⟩

def remove (key : PairingAttemptKey) : PairingState :=
  { s with currentAttempts := Function.update s.currentAttempts key none }

/-- `begin_pairing_attempt`. -/
def beginAttempt (key : PairingAttemptKey) : PairingState :=
  { nextAttemptId := s.nextAttemptId + 1
    currentAttempts := Function.update s.currentAttempts key (some (s.nextAttemptId + 1))
    activeChallenge := s.activeChallenge.filter (·.attemptKey ≠ key) }

/-- `is_current_pairing_attempt`. -/
def isCurrent (key : PairingAttemptKey) (id : ℕ) : Bool := s.currentAttempts key = some id

def reject (key : PairingAttemptKey) (id : ℕ) : PairingState :=
  if s.isCurrent key id then s.remove key else s

def withdraw (key : PairingAttemptKey) (id : ℕ) : PairingState :=
  if s.activeChallenge.any fun c => c.attemptKey = key ∧ c.attemptId = id then
    { s.remove key with activeChallenge := none }
  else s

/-- The part of `complete_pairing` under the lock. -/
def complete (session : ℕ) (codeSha256 : String) (now : ℤ) :
    PairingState × Except RpcError ActivePairingChallenge :=
  match s.activeChallenge with
  | none => (s, .error ⟨"pairing_not_started",
      "create a local pairing code before completing pairing"⟩)
  | some c =>
    if c.ownerSessionId ≠ session then
      (s, .error ⟨"pairing_not_started", "start pairing on this session before completing pairing"⟩)
    else if now ≥ c.record.expiresAtUnix then
      ({ s.remove c.attemptKey with activeChallenge := none },
        .error ⟨"pairing_expired", "pairing code expired"⟩)
    else if !verifyPairingCode c.record codeSha256 now then
      (s, .error ⟨"invalid_pairing_code", "pairing code is invalid"⟩)
    else ({ s.remove c.attemptKey with activeChallenge := none }, .ok c)

end PairingState

inductive Outcome where
  /-- The configuration did not load. -/
  | unloaded
  | rejected
  | superseded
  | notNotified
  | started
  deriving DecidableEq

/-- What a `start_pairing` call waits for. -/
inductive Phase where
  | confirming
  | confirmed
  | checked
  | notifying
  | ended (outcome : Outcome)
  deriving DecidableEq

/-- A `start_pairing` call that registered an attempt. -/
structure Attempt where
  session : ℕ
  key : PairingAttemptKey
  clientLabel : String
  clientId : Option String
  /-- The local user confirmed the attempt. -/
  confirmed : Bool
  phase : Phase

def Attempt.challenge (a : Attempt) (id : ℕ) (record : PairingRecord) : ActivePairingChallenge where
  attemptId := id
  attemptKey := a.key
  ownerSessionId := a.session
  record := record
  clientLabel := a.clientLabel
  clientId := a.clientId

/-- A call of `session` that took the challenge, at the time `now` that it had read. -/
structure Completion where
  challenge : ActivePairingChallenge
  session : ℕ
  now : ℤ

structure Issue where
  completion : Completion
  record : ClientCredentialRecord

structure Pairing where
  state : PairingState
  attempts : ℕ → Option Attempt
  completing : ℕ → Option Completion
  completed : List Completion
  issues : List Issue

inductive PairingAction where
  | startPairing (session : ℕ) (request : StartPairingRequest)
  | unload (id : ℕ)
  | confirm (id : ℕ)
  | reject (id : ℕ)
  | check (id : ℕ)
  | activate (id : ℕ) (codeSha256 : String) (now : ℤ)
  | notify (id : ℕ)
  | notifyFail (id : ℕ)
  | completePairing (session : ℕ) (codeSha256 : String) (now : ℤ)
  /-- The credentials are loaded, changed and stored. -/
  | issue (id : ℕ) (clients : ClientCredentials) (drawnId secretSha256 : String)
  /-- They do not load or are not stored. -/
  | issueFail (id : ℕ)

namespace Pairing
variable (s : Pairing)

def inPhase (id : ℕ) (phase : Phase) : Option Attempt :=
  (s.attempts id).filter (·.phase = phase)

def put (id : ℕ) (a : Attempt) : Pairing :=
  { s with attempts := Function.update s.attempts id (some a) }

def putState (state : PairingState) : Pairing := { s with state := state }

def step : PairingAction → Option Pairing
  | .startPairing session request =>
    match normalizeConfirmationCode request.confirmationCode with
    | none => some s
    | some _ =>
      let clientId := normalizePairingClientId request.clientId
      let key := pairingAttemptKey clientId
      let state := s.state.beginAttempt key
      some ((s.putState state).put state.nextAttemptId
        ⟨session, key, pairingClientLabel request.clientLabel, clientId, false, .confirming⟩)
  | .unload id => (s.inPhase id .confirming).map fun a =>
      s.put id { a with phase := .ended .unloaded }
  | .confirm id => (s.inPhase id .confirming).map fun a =>
      s.put id { a with confirmed := true, phase := .confirmed }
  | .reject id => (s.inPhase id .confirming).map fun a =>
      (s.putState (s.state.reject a.key id)).put id { a with phase := .ended .rejected }
  | .check id => (s.inPhase id .confirmed).map fun a =>
      s.put id { a with
        phase := if s.state.isCurrent a.key id then .checked else .ended .superseded }
  | .activate id codeSha256 now => (s.inPhase id .checked).map fun a =>
      if s.state.isCurrent a.key id then
        (s.putState { s.state with
          activeChallenge := some (a.challenge id (createPairingCode codeSha256 now)) }).put id
            { a with phase := .notifying }
      else s.put id { a with phase := .ended .superseded }
  | .notify id => (s.inPhase id .notifying).map fun a =>
      s.put id { a with phase := .ended .started }
  | .notifyFail id => (s.inPhase id .notifying).map fun a =>
      (s.putState (s.state.withdraw a.key id)).put id { a with phase := .ended .notNotified }
  | .completePairing session codeSha256 now =>
    match s.state.complete session codeSha256 now with
    | (state, .error _) => some (s.putState state)
    | (state, .ok c) => some { s with
        state := state
        completing := Function.update s.completing c.attemptId (some ⟨c, session, now⟩)
        completed := s.completed ++ [⟨c, session, now⟩] }
  | .issue id clients drawnId secretSha256 => (s.completing id).map fun k => { s with
      completing := Function.update s.completing id none
      issues := s.issues ++ [⟨k, issued clients k.challenge.clientId k.challenge.clientLabel
        drawnId secretSha256 k.now⟩] }
  | .issueFail id => (s.completing id).map fun _ => { s with
      completing := Function.update s.completing id none }

end Pairing

end Rieul.Server
