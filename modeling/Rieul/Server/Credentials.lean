import Mathlib.Tactic.SplitIfs
import Mathlib.Data.Int.Notation
import Mathlib.Data.List.Basic

/-!
# Client credentials (daemon/core/src/config.rs, daemon/core/src/pairing.rs)

The credentials file is a list of records. Every handler that changes it works
on a copy of the whole list.
-/

namespace Rieul.Server

structure ClientCredentialRecord where
  clientId : String
  label : String
  secretSha256 : String
  createdAtUnix : ℤ
  expiresAtUnix : ℤ

abbrev ClientCredentials := List ClientCredentialRecord

def clientCredentialTtlSeconds : ℤ := 60 * 60 * 24 * 30

/-- `issue_client_secret_for_client_id`; the secret is drawn by the caller. -/
def issueFor (clientId label secretSha256 : String) (createdAtUnix now : ℤ) :
    ClientCredentialRecord :=
  ⟨clientId, label, secretSha256, createdAtUnix, now + clientCredentialTtlSeconds⟩

def issueClientSecret (clientId label secretSha256 : String) (now : ℤ) : ClientCredentialRecord :=
  issueFor clientId label secretSha256 now now

def reissueClientSecret (record : ClientCredentialRecord) (label secretSha256 : String) (now : ℤ) :
    ClientCredentialRecord :=
  issueFor record.clientId label secretSha256 record.createdAtUnix now

def renewClientCredential (record : ClientCredentialRecord) (now : ℤ) : ClientCredentialRecord :=
  { record with expiresAtUnix := now + clientCredentialTtlSeconds }

def lookup (clients : ClientCredentials) (clientId : String) : Option ClientCredentialRecord :=
  clients.find? fun record => record.clientId = clientId

/-- `retain`: every record but the client's. -/
def without (clients : ClientCredentials) (clientId : String) : ClientCredentials :=
  clients.filter fun record => record.clientId ≠ clientId

/-- `iter_mut().find(..)`: the client's first record renewed. -/
def renewIn (clientId : String) (now : ℤ) : ClientCredentials → ClientCredentials
  | [] => []
  | record :: rest =>
    if record.clientId = clientId then renewClientCredential record now :: rest
    else record :: renewIn clientId now rest

section
variable (clients : ClientCredentials)
include clients

theorem lookup_without (clientId other : String) :
    lookup (without clients clientId) other =
      if other = clientId then none else lookup clients other := by
  unfold lookup without
  rw [List.find?_filter]
  split_ifs with h
  · rw [List.find?_eq_none]
    intro record _
    simp [h]
  · congr 1
    funext record
    by_cases hr : record.clientId = other <;> simp [hr, h]

theorem lookup_push (record : ClientCredentialRecord)
    (other : String) : lookup (without clients record.clientId ++ [record]) other =
      if other = record.clientId then some record else lookup clients other := by
  have hw := lookup_without clients record.clientId other
  unfold lookup at hw ⊢
  rw [List.find?_append, hw]
  split_ifs with h
  · simp [h]
  · have hne : record.clientId ≠ other := fun he => h he.symm
    simp [hne]

end

theorem lookup_cons (record : ClientCredentialRecord) (rest : ClientCredentials) (other : String) :
    lookup (record :: rest) other =
      if record.clientId = other then some record else lookup rest other := by
  unfold lookup
  split_ifs with h <;> simp [h]

theorem lookup_renewIn (clients : ClientCredentials) (clientId other : String) (now : ℤ) :
    lookup (renewIn clientId now clients) other =
      if other = clientId then (lookup clients other).map (renewClientCredential · now)
      else lookup clients other := by
  induction clients with
  | nil => split_ifs <;> rfl
  | cons record rest ih =>
    unfold renewIn
    by_cases hr : record.clientId = clientId
    · have hid : (renewClientCredential record now).clientId = clientId := hr
      by_cases ho : clientId = other
      · rw [if_pos hr, lookup_cons, if_pos (hid.trans ho), if_pos ho.symm, lookup_cons,
          if_pos (hr.trans ho)]
        rfl
      · have hne : ¬ other = clientId := fun he => ho he.symm
        rw [if_pos hr, lookup_cons, hid, if_neg ho, if_neg hne, lookup_cons, hr, if_neg ho]
    · rw [if_neg hr, lookup_cons, lookup_cons, ih]
      by_cases ho : record.clientId = other
      · have hne : ¬ other = clientId := fun he => hr (ho.trans he)
        simp only [if_pos ho, if_neg hne]
      · simp only [if_neg ho]

end Rieul.Server
