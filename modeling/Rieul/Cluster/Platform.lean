import Rieul.Lib.Fallible
import Rieul.Core.Cbor

/-!
# What the cluster journal takes from its libraries

SHA-256, Ed25519 and the URL parser are parameters. `validateEndpoint` and the
limits are those of daemon/host/src/cluster/primary.rs.
-/

namespace Rieul.Cluster
open Bytes Fallible

abbrev Id := Fixed 32
abbrev Signature := Fixed 64

def maxHistory : ℕ := 512
def maxCounter : UInt64 := 9007199254740991

structure Url where
  origin : String
  scheme : String
  host : Option String
  username : String
  password : Option String
  fragment : Option String
  query : Option String
  path : String

/-- `ring` and `url`: key pairs are named by their secrets. -/
class Platform where
  Secret : Type
  hash : Str → Id
  publicKey : Secret → Id
  sign : Secret → Str → Signature
  verify : Id → Str → Signature → Bool
  parseUrl : String → Option Url

/-- A key pair's own signatures verify, and the empty string is not an absolute URL. -/
class LawfulPlatform [Platform] : Prop where
  verify_sign : ∀ (s : Platform.Secret) (body : Str),
    Platform.verify (Platform.publicKey s) body (Platform.sign s body) = true
  parseUrl_empty : Platform.parseUrl "" = none

inductive Error where
  | database
  | invalid
  | conflict
  | notPrimary
  | unprepared
  | exhausted
  | limit
  deriving DecidableEq

/-- `u64::checked_add`. -/
def checkedAdd (a b : UInt64) : Option UInt64 :=
  if a.toNat + b.toNat < 2 ^ 64 then some (a + b) else none

theorem checkedAdd_eq_some (a b c : UInt64) (h : checkedAdd a b = some c) :
    c.toNat = a.toNat + b.toNat := by
  unfold checkedAdd at h
  split at h
  · injection h with h
    rw [← h, UInt64.toNat_add]
    omega
  · contradiction

theorem checkedAdd_one_of_toNat (a c : UInt64) (h : c.toNat = a.toNat + 1) :
    checkedAdd a 1 = some c := by
  have hc := c.toNat_lt
  have h1 : (1 : UInt64).toNat = 1 := rfl
  unfold checkedAdd
  rw [if_pos (by omega)]
  congr 1
  apply UInt64.toNat_inj.mp
  rw [UInt64.toNat_add]
  omega

/-- A stand-in for runs on fixed inputs: keys are constant bytes, hashes are residues, a
signature is the key followed by the hash of the body, and a URL begins with a letter. -/
def residueHash (b : Str) : Id := ⟨beBytes 32 (beNat (1 :: b) % (2 ^ 255 - 19)), beBytes_length 32 _⟩

abbrev residuePlatform : Platform where
  Secret := UInt8
  hash := residueHash
  publicKey s := Fixed.fill 32 s
  sign s body := ⟨(Fixed.fill 32 s).data ++ (residueHash body).data, by
    simp [(Fixed.fill 32 s).size, (residueHash body).size]⟩
  verify key body sig := sig.data = key.data ++ (residueHash body).data
  parseUrl t := if (Cbor.textBytes t).head?.any fun b => 0x61 ≤ b ∧ b ≤ 0x7a then
      some ⟨"https://host", "https", some "host", "", none, none, none, "/rieul/rpc"⟩
    else none

theorem residuePlatform_lawful : @LawfulPlatform residuePlatform :=
  @LawfulPlatform.mk residuePlatform (fun _ _ => decide_eq_true rfl) rfl

variable [Platform]

def verify (pk : Id) (body : Str) (sig : Signature) : Except Error Unit :=
  ensure (Platform.verify pk body sig = true) .invalid

@[simp] theorem verify_eq_ok (pk : Id) (body : Str) (sig : Signature) (u : Unit) :
    verify pk body sig = .ok u ↔ Platform.verify pk body sig = true := by
  simp [verify]

/-- The form `validate_endpoint` demands of a parsed URL. -/
def Url.Endpoint (u : Url) : Prop :=
  u.scheme = "https" ∧ u.host.isSome ∧ u.username = "" ∧ u.password = none ∧
    u.fragment = none ∧ u.query = none ∧ u.path = "/rieul/rpc"

instance (u : Url) : Decidable u.Endpoint := by
  unfold Url.Endpoint
  infer_instance

def validateEndpoint (endpoint : String) : Except Error Unit := do
  ensure ((Cbor.textBytes endpoint).length ≤ 2048) .limit
  let url ← require .invalid (Platform.parseUrl endpoint)
  ensure url.Endpoint .invalid

theorem validateEndpoint_eq_ok (endpoint : String) (u : Unit) :
    validateEndpoint endpoint = .ok u ↔ (Cbor.textBytes endpoint).length ≤ 2048 ∧
      ∃ url, Platform.parseUrl endpoint = some url ∧ url.Endpoint := by
  simp [validateEndpoint]

theorem validateEndpoint_nonempty [LawfulPlatform] (endpoint : String)
    (h : validateEndpoint endpoint = .ok ()) : 0 < (Cbor.textBytes endpoint).length := by
  obtain ⟨_, url, hp, _⟩ := (validateEndpoint_eq_ok endpoint ()).mp h
  refine List.length_pos_iff.mpr fun he => ?_
  have hempty : endpoint = "" := Cbor.textBytes_inj (he.trans rfl)
  rw [hempty, LawfulPlatform.parseUrl_empty] at hp
  contradiction

end Rieul.Cluster
