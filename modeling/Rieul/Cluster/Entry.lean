import Rieul.Cluster.Mutation

/-!
# Journal entries and the bodies that are signed (daemon/host/src/cluster/primary.rs)

Entry bodies are injective in the entry without its signature, and no entry
body is the body of a transfer acceptance.
-/

namespace Rieul.Cluster
open Bytes Fallible Cbor
open Mutation (blob)

structure Genesis where
  nonce : Id
  root : Id
  rootKey : Id
  rootEndpoint : String
  deriving DecidableEq

structure Entry where
  cluster : Id
  epoch : UInt64
  sequence : UInt64
  previous : Id
  operation : Id
  request : Id
  mutation : Mutation
  signature : Signature
  deriving DecidableEq

def Entry.body (e : Entry) : Str :=
  (Value.array [.text "rieul.cluster.management.v1", blob e.cluster, .u64 e.epoch, .u64 e.sequence,
    blob e.previous, blob e.operation, blob e.request, e.mutation.values]).encode

def acceptanceBody (cluster : Id) (epoch : UInt64) (operation target targetKey : Id)
    (prefixSequence : UInt64) (prefixHash : Id) : Str :=
  (Value.array [.text "rieul.cluster.transfer-acceptance.v1", blob cluster, .u64 epoch,
    .u64 (epoch + 1), blob operation, blob target, blob targetKey, .u64 prefixSequence,
    blob prefixHash]).encode

def clientAdoptionBody (cluster grant issuer client : Id) (expires : UInt64) : Str :=
  (Value.array [.text "rieul.cluster.client-possession.v1", blob cluster, blob grant, blob issuer,
    blob client, .u64 expires]).encode

def issuerAdoptionBody (cluster grant issuer client : Id) (expires : UInt64)
    (clientProof : Signature) : Str :=
  (Value.array [.text "rieul.cluster.pairing-adoption.v1",
    .bytes (clientAdoptionBody cluster grant issuer client expires), blob clientProof]).encode

section
variable [Platform]

def Genesis.cluster (g : Genesis) : Id :=
  Platform.hash (Value.array [.text "rieul.cluster.genesis.v1", blob g.nonce, blob g.root,
    blob g.rootKey, .text g.rootEndpoint]).encode

def requestHash (cluster : Id) (epoch : UInt64) (operation : Id) (mutation : Mutation) : Id :=
  Platform.hash (Value.array [.text "rieul.cluster.management-request.v1", blob cluster, .u64 epoch,
    blob operation, mutation.values]).encode

def Entry.hash (e : Entry) : Id :=
  Platform.hash (Value.array [.bytes e.body, blob e.signature]).encode

end

section
variable {e e' : Entry} (he : e.mutation.Encodable) (he' : e'.mutation.Encodable)
  (h : e.body = e'.body)
include e e' he he' h

theorem Entry.body_inj : { e with signature := e'.signature } = e' := by
  have h32 : 32 < 2 ^ 64 := by norm_num
  have h0 : e.body ++ [] = e'.body ++ [] := by rw [h]
  obtain ⟨-, h1⟩ := array_append_inj (by simp) (by simp) h0
  obtain ⟨-, h1⟩ := text_items_inj (by decide) (by decide) h1
  obtain ⟨hcluster, h1⟩ := Mutation.blob_items_inj h32 h1
  obtain ⟨hepoch, h1⟩ := u64_items_inj h1
  obtain ⟨hsequence, h1⟩ := u64_items_inj h1
  obtain ⟨hprevious, h1⟩ := Mutation.blob_items_inj h32 h1
  obtain ⟨hoperation, h1⟩ := Mutation.blob_items_inj h32 h1
  obtain ⟨hrequest, h1⟩ := Mutation.blob_items_inj h32 h1
  obtain ⟨hmutation, -⟩ := Mutation.values_items_inj he he' h1
  cases e
  cases e'
  simp_all

theorem Entry.eq_of_body (hs : e.signature = e'.signature) : e = e' := by
  rw [← Entry.body_inj he he' h, ← hs]

end

theorem Entry.body_ne_acceptanceBody (e : Entry) (cluster : Id) (epoch : UInt64)
    (operation target targetKey : Id) (prefixSequence : UInt64) (prefixHash : Id) :
    e.body ≠ acceptanceBody cluster epoch operation target targetKey prefixSequence prefixHash := by
  intro h
  have h0 : e.body ++ [] = acceptanceBody cluster epoch operation target targetKey prefixSequence
    prefixHash ++ [] := by rw [h]
  obtain ⟨hl, -⟩ := array_append_inj (by simp) (by simp) h0
  simp at hl

theorem acceptanceBody_inj {cluster cluster' : Id} {epoch epoch' : UInt64}
    {operation operation' target target' key key' : Id} {sequence sequence' : UInt64}
    {head head' : Id}
    (h : acceptanceBody cluster epoch operation target key sequence head =
      acceptanceBody cluster' epoch' operation' target' key' sequence' head') :
    cluster = cluster' ∧ epoch = epoch' ∧ operation = operation' ∧ target = target' ∧ key = key' ∧
      sequence = sequence' ∧ head = head' := by
  have h32 : 32 < 2 ^ 64 := by norm_num
  have h0 : acceptanceBody cluster epoch operation target key sequence head ++ [] =
      acceptanceBody cluster' epoch' operation' target' key' sequence' head' ++ [] := by rw [h]
  obtain ⟨-, h1⟩ := array_append_inj (by simp) (by simp) h0
  obtain ⟨-, h1⟩ := text_items_inj (by decide) (by decide) h1
  obtain ⟨hcluster, h1⟩ := Mutation.blob_items_inj h32 h1
  obtain ⟨hepoch, h1⟩ := u64_items_inj h1
  obtain ⟨-, h1⟩ := u64_items_inj h1
  obtain ⟨hoperation, h1⟩ := Mutation.blob_items_inj h32 h1
  obtain ⟨htarget, h1⟩ := Mutation.blob_items_inj h32 h1
  obtain ⟨hkey, h1⟩ := Mutation.blob_items_inj h32 h1
  obtain ⟨hsequence, h1⟩ := u64_items_inj h1
  obtain ⟨hhead, -⟩ := Mutation.blob_items_inj h32 h1
  exact ⟨hcluster, hepoch, hoperation, htarget, hkey, hsequence, hhead⟩

end Rieul.Cluster
