import Rieul.Web.Codec
import Rieul.Lib.Record

/-!
# The same value on both sides

A value of the node and one of the browser are the same if they are built alike:
numbers are equal as integers, and maps have the same entries.
-/

namespace Rieul.Web
open Bytes Rieul.Cbor Record

inductive Same : Value → CborValue → Prop where
  | null : Same .null .null
  | bool (b : Bool) : Same (.bool b) (.boolean b)
  | u64 (n : UInt64) : Same (.u64 n) (.number n.toNat)
  | i64 (n : Int64) : Same (.i64 n) (.number n.toInt)
  | f64 (bits : UInt64) : Same (.f64 bits) (.f64 bits)
  | bytes (b : Str) : Same (.bytes b) (.bytes b)
  | text (t : String) : Same (.text t) (.string t)
  | nil : Same (.array []) (.array [])
  | cons (v : Value) (c : CborValue) (vs : List Value) (cs : List CborValue) (head : Same v c)
      (tail : Same (.array vs) (.array cs)) : Same (.array (v :: vs)) (.array (c :: cs))
  | map (es : Entries) (entries : List (ℤ × CborValue)) (distinct : (es.map Prod.fst).Nodup)
      (distinct' : (entries.map Prod.fst).Nodup)
      (keys : ∀ e ∈ entries, 0 ≤ e.1 ∧ e.1 < 2 ^ 64)
      (present : ∀ id : UInt64, es.lookup id = none ↔ entries.lookup (id.toNat : ℤ) = none)
      (values : ∀ (id : UInt64) v c, es.lookup id = some v →
        entries.lookup (id.toNat : ℤ) = some c → Same v c) : Same (.map es) (.map entries)

theorem nodeEntries_lookup (entries : List (ℤ × CborValue)) (key : ℤ) :
    (nodeEntries entries).lookup key = (entries.lookup key).map CborValue.node := by
  have hmap : nodeEntries entries = entries.map fun e => (e.1, e.2.node) := by
    induction entries with
    | nil => rfl
    | cons e entries ih => rw [nodeEntries, ih, List.map_cons]
  rw [hmap]
  exact lookup_map CborValue.node entries key

theorem nodeKeys_lookup (entries : List (ℤ × Value)) (keys : ∀ e ∈ entries, 0 ≤ e.1 ∧ e.1 < 2 ^ 64)
    (id : UInt64) : (nodeKeys entries).lookup id = entries.lookup (id.toNat : ℤ) := by
  induction entries with
  | nil => rfl
  | cons e entries ih =>
    obtain ⟨key, v⟩ := e
    rw [List.forall_mem_cons] at keys
    obtain ⟨⟨hpos, hlt⟩, hkeys⟩ := keys
    have hkey : (UInt64.ofNat key.toNat).toNat = key.toNat := by
      rw [UInt64.toNat_ofNat', Nat.mod_eq_of_lt (by omega)]
    have hsame : id = UInt64.ofNat key.toNat ↔ (id.toNat : ℤ) = key := by
      rw [← UInt64.toNat_inj, hkey]
      omega
    have hrest := ih hkeys
    rw [nodeKeys] at hrest
    rw [nodeKeys, List.map_cons, lookup_cons, lookup_cons, hrest]
    simp only [hsame]

theorem placed_lookup (es : Entries) (hkeys : (es.map Prod.fst).Nodup) (id : UInt64) :
    (placedEntries insertEntry es []).lookup id = (es.lookup id).map Value.normal := by
  have hperm : (placeAll insertEntry (placedPairs insertEntry es) []).Perm
      (placedPairs insertEntry es) := by
    have h := keeps_insertEntry.placeAll (placedPairs insertEntry es) []
    rw [List.append_nil] at h
    exact h
  have hnodup : ((placedPairs insertEntry es).map Prod.fst).Nodup := by
    rw [placedPairs_keys]
    exact hkeys
  rw [placedEntries_eq, ← lookup_perm _ _ hnodup hperm.symm]
  exact lookup_map Value.normal es id

theorem eq_of_lookup (es es' : Entries) (hs : (es.map Prod.fst).Pairwise (· < ·))
    (hs' : (es'.map Prod.fst).Pairwise (· < ·)) (h : ∀ id, es.lookup id = es'.lookup id) :
    es = es' := by
  have hdistinct : ∀ ks : List UInt64, ks.Pairwise (· < ·) → ks.Nodup := by
    intro ks hks
    apply List.Pairwise.imp _ hks
    intro a b hlt heq
    rw [heq] at hlt
    exact UInt64.lt_irrefl b hlt
  have hkeys := hdistinct _ hs
  have hkeys' := hdistinct _ hs'
  have hperm : es.Perm es' := by
    apply (List.perm_ext_iff_of_nodup hkeys.of_map hkeys'.of_map).mpr
    rintro ⟨k, v⟩
    rw [← lookup_eq_some_iff es hkeys, ← lookup_eq_some_iff es' hkeys', h]
  rw [List.pairwise_map] at hs hs'
  exact hperm.eq_of_pairwise (fun a b _ _ hab hba => absurd hba (UInt64.lt_asymm hab)) hs hs'

theorem Same.node {v : Value} {c : CborValue} (h : Same v c) : c.node = v.normal := by
  induction h with
  | null | bool | f64 | bytes | text | nil => rfl
  | u64 n =>
    have hpos : 0 ≤ (n.toNat : ℤ) := Int.natCast_nonneg _
    rw [CborValue.node, if_pos hpos, Int.toNat_natCast, UInt64.ofNat_toNat]
    rfl
  | i64 n =>
    show (if 0 ≤ n.toInt then Value.u64 _ else .i64 (Int64.ofInt n.toInt)) =
      if 0 ≤ n.toInt then Value.u64 _ else .i64 n
    rw [Int64.ofInt_toInt]
  | cons v c vs cs head tail ihHead ihTail =>
    have hitems := Value.array.inj ihTail
    show Value.array (c.node :: nodeItems cs) = .array (v.normal :: placedItems insertEntry vs)
    rw [ihHead, hitems]
  | map es entries distinct distinct' keys present values ih =>
    have hnodup : ((nodeEntries entries).map Prod.fst).Nodup := by
      rw [nodeEntries_keys]
      exact distinct'
    have hperm := sortEntries_perm (nodeEntries entries)
    have hrange : ∀ e ∈ sortEntries (nodeEntries entries), 0 ≤ e.1 ∧ e.1 < 2 ^ 64 := by
      intro e he
      have hmem : e.1 ∈ (nodeEntries entries).map Prod.fst :=
        List.mem_map_of_mem (hperm.mem_iff.mp he)
      rw [nodeEntries_keys] at hmem
      obtain ⟨e', he', heq⟩ := List.mem_map.mp hmem
      exact heq ▸ keys e' he'
    have hsorted : ((placedEntries insertEntry es []).map Prod.fst).Pairwise (· < ·) := by
      rw [placedEntries_eq]
      apply placeAll_sorted _ _ List.Pairwise.nil
      rw [placedPairs_keys]
      exact distinct
    show Value.map _ = Value.map _
    congr 1
    apply eq_of_lookup _ _ (nodeKeys_sorted _ (sortEntries_sorted _ hnodup) hrange) hsorted
    intro id
    rw [nodeKeys_lookup _ hrange, lookup_perm _ _ (hperm.map Prod.fst |>.nodup_iff.mpr hnodup) hperm,
      nodeEntries_lookup, placed_lookup es distinct]
    cases hv : es.lookup id with
    | none =>
      rw [(present id).mp hv]
      rfl
    | some v =>
      cases hc : entries.lookup (id.toNat : ℤ) with
      | none =>
        rw [(present id).mpr hc] at hv
        cases hv
      | some c => exact congrArg some (ih id v c hv hc)

def asInteger : Value → Option ℤ
  | .u64 n => some n.toNat
  | .i64 n => some n.toInt
  | _ => none

theorem Same.asInteger_iff {v : Value} {c : CborValue} (h : Same v c) (n : ℤ) :
    asInteger v = some n ↔ c = .number n := by
  cases h with
  | u64 m | i64 m =>
    constructor
    · intro heq
      rw [Option.some.inj heq]
    · intro heq
      exact congrArg some (CborValue.number.inj heq)
  | _ => exact ⟨nofun, nofun⟩

end Rieul.Web
