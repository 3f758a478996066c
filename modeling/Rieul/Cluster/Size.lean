import Rieul.Cluster.Entry
import Rieul.Core.CborSize

/-!
# Sizes of journal entries

A transcript is longer than the payload that it holds, by a bounded amount.
-/

namespace Rieul.Cluster
open Bytes Cbor

theorem values_length (m : Mutation) : m.storage.length + 1 ≤ m.values.encode.length ∧
    m.values.encode.length ≤ m.storage.length + 40 := by
  have harray := array_length m.items
  simp only [Mutation.values]
  cases m with
  | Admit id key consent endpoint =>
    have htag := u64_length 0
    have htext := text_length endpoint
    simp only [Mutation.items, Mutation.blob, items_cons_length, id_length, items_nil_length] at harray ⊢
    simp only [Mutation.storage, List.length_append, List.length_cons, id.size, key.size,
      consent.size]
    omega
  | Remove id =>
    have htag := u64_length 1
    simp only [Mutation.items, Mutation.blob, items_cons_length, id_length, items_nil_length] at harray ⊢
    simp only [Mutation.storage, List.length_cons, id.size]
    omega
  | Adopt grant issuer client expires clientProof issuerProof =>
    have htag := u64_length 3
    have hexpires := u64_length expires
    simp only [Mutation.items, Mutation.blob, items_cons_length, id_length, signature_length,
      items_nil_length] at harray ⊢
    simp only [Mutation.storage, List.length_append, List.length_cons, grant.size, issuer.size,
      client.size, clientProof.size, issuerProof.size, beBytes_length]
    omega
  | Revoke grant =>
    have htag := u64_length 4
    simp only [Mutation.items, Mutation.blob, items_cons_length, id_length, items_nil_length] at harray ⊢
    simp only [Mutation.storage, List.length_cons, grant.size]
    omega
  | Transfer id key prefixSequence prefixHash acceptance =>
    have htag := u64_length 2
    have hsequence := u64_length prefixSequence
    simp only [Mutation.items, Mutation.blob, items_cons_length, id_length, signature_length,
      items_nil_length] at harray ⊢
    simp only [Mutation.storage, List.length_append, List.length_cons, id.size, key.size,
      prefixHash.size, acceptance.size, beBytes_length]
    omega

theorem body_length (e : Entry) : e.mutation.storage.length + 168 ≤ e.body.length ∧
    e.body.length ≤ e.mutation.storage.length + 300 := by
  have harray := array_length [.text "rieul.cluster.management.v1", .bytes e.cluster.data,
    .u64 e.epoch, .u64 e.sequence, .bytes e.previous.data, .bytes e.operation.data,
    .bytes e.request.data, e.mutation.values]
  have htitle : (textBytes "rieul.cluster.management.v1").length = 27 := by decide
  have htext := text_length "rieul.cluster.management.v1"
  have hepoch := u64_length e.epoch
  have hsequence := u64_length e.sequence
  have hvalues := values_length e.mutation
  simp only [items_cons_length, id_length, items_nil_length] at harray
  simp only [Entry.body, Mutation.blob]
  omega

theorem clientAdoptionBody_length (cluster grant issuer client : Id) (expires : UInt64) :
    (clientAdoptionBody cluster grant issuer client expires).length ≤ 400 := by
  have harray := array_length [.text "rieul.cluster.client-possession.v1", .bytes cluster.data,
    .bytes grant.data, .bytes issuer.data, .bytes client.data, .u64 expires]
  have htitle : (textBytes "rieul.cluster.client-possession.v1").length = 34 := by decide
  have htext := text_length "rieul.cluster.client-possession.v1"
  have hexpires := u64_length expires
  simp only [items_cons_length, id_length, items_nil_length] at harray
  simp only [clientAdoptionBody, Mutation.blob]
  omega

end Rieul.Cluster
