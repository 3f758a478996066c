import Rieul.Web.CborDecode
import Rieul.Core.CborCanonical

/-!
# Two codecs

The node and the browser give a shared value the same bytes, and read them back;
but the browser drops a byte order mark at the beginning of a text.
-/

namespace Rieul.Web
open Bytes Fallible Rieul.Cbor

def strip (t : String) : String :=
  match t.toList with
  | [] => t
  | c :: cs => if c = '\uFEFF' then String.ofList cs else t

theorem textBytes_cons (c : Char) (cs : List Char) :
    textBytes (String.ofList (c :: cs)) = String.utf8EncodeChar c ++ textBytes (String.ofList cs) := by
  have hsingle : textBytes (String.singleton c) = String.utf8EncodeChar c := by
    simp [textBytes, String.toByteArray_singleton, List.utf8Encode_singleton]
  rw [String.ofList_cons, textBytes_append, hsingle]

theorem decodeText_strip (t : String) : decodeText (textBytes t) = .ok (strip t) := by
  obtain ⟨cs, rfl⟩ : ∃ cs, t = String.ofList cs := ⟨t.toList, String.ofList_toList.symm⟩
  have hkeep : ¬ (textBytes (String.ofList cs)).take 3 = byteOrderMark →
      decodeText (textBytes (String.ofList cs)) = .ok (String.ofList cs) := by
    intro hno
    rw [decodeText, if_neg hno, fromUTF8_textBytes]
    rfl
  unfold strip
  rw [String.toList_ofList]
  cases cs with
  | nil =>
    apply hkeep
    decide
  | cons c cs =>
    have hmark : String.utf8EncodeChar '\uFEFF' = byteOrderMark := by decide
    dsimp only
    split
    · rename_i hc
      rw [hc, textBytes_cons, hmark, decodeText]
      have htake : (byteOrderMark ++ textBytes (String.ofList cs)).take 3 = byteOrderMark := rfl
      have hdrop : (byteOrderMark ++ textBytes (String.ofList cs)).drop 3 =
          textBytes (String.ofList cs) := rfl
      rw [if_pos htake, hdrop, fromUTF8_textBytes]
      rfl
    · rename_i hc
      apply hkeep
      intro htake
      apply hc
      rw [textBytes_cons] at htake
      exact utf8EncodeChar_mark c (textBytes (String.ofList cs)) _
        ((List.take_append_drop 3 _).symm.trans (congrArg (· ++ _) htake))

theorem strip_eq_iff (t : String) : strip t = t ↔ t.toList.head? ≠ some '\uFEFF' := by
  unfold strip
  cases h : t.toList with
  | nil => simp
  | cons c cs =>
    dsimp only
    split
    · rename_i hc
      constructor
      · intro heq
        have hlen := congrArg List.length (congrArg String.toList heq)
        rw [String.toList_ofList, h, List.length_cons] at hlen
        omega
      · intro hne
        exact absurd (congrArg some hc) hne
    · rename_i hc
      constructor
      · intro _ heq
        exact hc (Option.some.inj heq)
      · exact fun _ => rfl

theorem strip_length (t : String) : (textBytes (strip t)).length ≤ (textBytes t).length := by
  obtain ⟨cs, rfl⟩ : ∃ cs, t = String.ofList cs := ⟨t.toList, String.ofList_toList.symm⟩
  unfold strip
  rw [String.toList_ofList]
  cases cs with
  | nil => exact le_rfl
  | cons c cs =>
    dsimp only
    split
    · rw [textBytes_cons, List.length_append]
      omega
    · exact le_rfl

mutual
def CborValue.Safe : CborValue → Prop
  | .null => True
  | .boolean _ => True
  | .number n => IsSafeInteger n
  | .fraction bits => IsFinite bits
  | .f64 bits => IsFinite bits
  | .string t => (textBytes t).length ≤ maxSafe
  | .bytes b => b.length ≤ maxSafe
  | .array items => items.length ≤ maxSafe ∧ SafeItems items
  | .map entries => entries.length ≤ maxSafe ∧ (entries.map Prod.fst).Nodup ∧ SafeEntries entries

def SafeItems : List CborValue → Prop
  | [] => True
  | v :: vs => v.Safe ∧ SafeItems vs

def SafeEntries : List (ℤ × CborValue) → Prop
  | [] => True
  | (k, v) :: es => (IsSafeInteger k ∧ 0 ≤ k) ∧ v.Safe ∧ SafeEntries es
end

def nodeKeys (entries : List (ℤ × Value)) : Entries :=
  entries.map fun e => (UInt64.ofNat e.1.toNat, e.2)

mutual
def CborValue.node : CborValue → Value
  | .null => .null
  | .boolean b => .bool b
  | .number n => if 0 ≤ n then .u64 (UInt64.ofNat n.toNat) else .i64 (Int64.ofInt n)
  | .fraction bits => .f64 bits
  | .f64 bits => .f64 bits
  | .string t => .text t
  | .bytes b => .bytes b
  | .array items => .array (nodeItems items)
  | .map entries => .map (nodeKeys (sortEntries (nodeEntries entries)))

def nodeItems : List CborValue → List Value
  | [] => []
  | v :: vs => v.node :: nodeItems vs

def nodeEntries : List (ℤ × CborValue) → List (ℤ × Value)
  | [] => []
  | (k, v) :: es => (k, v.node) :: nodeEntries es
end

theorem nodeItems_length (items : List CborValue) : (nodeItems items).length = items.length := by
  induction items with
  | nil => rfl
  | cons v vs ih => rw [nodeItems, List.length_cons, ih, List.length_cons]

variable (vs : List Value) (levels : ℕ) (v : Value) (entries : List (ℤ × CborValue))

theorem nodeEntries_keys :
    (nodeEntries entries).map Prod.fst = entries.map Prod.fst := by
  induction entries with
  | nil => rfl
  | cons e es ih => rw [nodeEntries, List.map_cons, ih, List.map_cons]

theorem sortEntries_map {α β : Type} (f : α → β) (entries : List (ℤ × α)) :
    sortEntries (entries.map fun e => (e.1, f e.2)) =
      (sortEntries entries).map fun e => (e.1, f e.2) := by
  exact (List.map_insertionSort (fun a b : ℤ × α => a.1 ≤ b.1) (fun a b : ℤ × β => a.1 ≤ b.1)
    (fun e => (e.1, f e.2)) entries fun _ _ _ _ => Iff.rfl).symm

theorem sortEntries_perm {α : Type} (entries : List (ℤ × α)) : (sortEntries entries).Perm entries :=
  List.perm_insertionSort _ entries

theorem sortEntries_sorted {α : Type} (entries : List (ℤ × α)) (h : (entries.map Prod.fst).Nodup) :
    ((sortEntries entries).map Prod.fst).Pairwise (· < ·) := by
  have hle : (sortEntries entries).Pairwise fun a b => a.1 ≤ b.1 :=
    List.pairwise_insertionSort _ entries
  have hnodup : ((sortEntries entries).map Prod.fst).Nodup :=
    ((sortEntries_perm entries).map Prod.fst).nodup_iff.mpr h
  rw [List.Nodup, List.pairwise_map] at hnodup
  rw [List.pairwise_map]
  apply (hle.and hnodup).imp
  intro a b hab
  exact lt_of_le_of_ne hab.1 hab.2

theorem encodeSorted_ok (es : List (ℤ × Value)) (h : ∀ e ∈ es, IsSafeInteger e.1 ∧ 0 ≤ e.1) :
    encodeSorted (es.map fun e => (e.1, .ok e.2.encode)) = .ok (encodeEntries (nodeKeys es)) := by
  induction es with
  | nil => rfl
  | cons e es ih =>
    obtain ⟨k, v⟩ := e
    rw [List.forall_mem_cons] at h
    have hsafe : k ≤ 9007199254740991 := h.1.1.2
    have hnat : (k.toNat : ℤ) = k := Int.toNat_of_nonneg h.1.2
    have hkey : encodeTypeValue 0 k = .ok (encodeArgument 0 k.toNat) := by
      rw [← hnat]
      exact encodeTypeValue_ofNat 0 k.toNat (by omega)
    have hmod : (UInt64.ofNat k.toNat).toNat = k.toNat := by
      rw [UInt64.toNat_ofNat', Nat.mod_eq_of_lt (by omega)]
    rw [List.map_cons, encodeSorted, ensure_of _ _ h.1, ok_bind, hkey, ok_bind, ok_bind, ih h.2]
    show Except.ok _ = Except.ok (Cbor.encodeTypeValue 0 (UInt64.ofNat k.toNat) ++ v.encode ++ _)
    rw [Cbor.encodeTypeValue, hmod]
    rfl

theorem safeEntries_keys (h : SafeEntries entries) :
    ∀ k ∈ entries.map Prod.fst, IsSafeInteger k ∧ 0 ≤ k := by
  induction entries with
  | nil => exact fun k hk => absurd hk List.not_mem_nil
  | cons e es ih =>
    rw [List.map_cons, List.forall_mem_cons]
    exact ⟨h.1, ih h.2.2⟩

theorem sorted_keys (h : SafeEntries entries) :
    ∀ e ∈ sortEntries (nodeEntries entries), IsSafeInteger e.1 ∧ 0 ≤ e.1 := by
  intro e he
  have hmem : e.1 ∈ (nodeEntries entries).map Prod.fst :=
    List.mem_map_of_mem ((sortEntries_perm _).mem_iff.mp he)
  rw [nodeEntries_keys] at hmem
  exact safeEntries_keys entries h e.1 hmem

theorem encode_integer (n : ℤ) (h : IsSafeInteger n) :
    encodeCbor (.number n) = .ok (CborValue.number n).node.encode := by
  obtain ⟨hlow, hhigh⟩ := h
  unfold maxSafeInteger at hlow hhigh
  unfold CborValue.node encodeCbor
  rw [ensure_of _ _ ⟨hlow, hhigh⟩, ok_bind]
  split
  · rename_i hn
    have hnat : (n.toNat : ℤ) = n := Int.toNat_of_nonneg hn
    have hmod : (UInt64.ofNat n.toNat).toNat = n.toNat := by
      rw [UInt64.toNat_ofNat', Nat.mod_eq_of_lt (by omega)]
    rw [← hnat, encodeTypeValue_ofNat 0 n.toNat (by omega), hnat, Value.encode,
      Cbor.encodeTypeValue, hmod]
  · rename_i hn
    have hint : (Int64.ofInt n).toInt = n := Int64.toInt_ofInt_of_le (by omega) (by omega)
    have hnat : ((-1 - n).toNat : ℤ) = -1 - n := Int.toNat_of_nonneg (by omega)
    have hmod : (UInt64.ofNat (-1 - n).toNat).toNat = (-1 - n).toNat := by
      rw [UInt64.toNat_ofNat', Nat.mod_eq_of_lt (by omega)]
    rw [← hnat, encodeTypeValue_ofNat 1 (-1 - n).toNat (by omega), Value.encode, hint, if_neg hn,
      Cbor.encodeTypeValue, hmod]

mutual
theorem encode_node (c : CborValue) (h : c.Safe) : encodeCbor c = .ok c.node.encode := by
  cases c with
  | null => rfl
  | boolean b => exact encode_boolean b
  | number n => exact encode_integer n h
  | fraction bits =>
    have hfinite : IsFinite bits := h
    rw [encodeCbor, ensure_of _ _ hfinite, ok_bind, encodeFloat64, be_eq_beBytes]
    rfl
  | f64 bits =>
    rw [encodeCbor, encodeFloat64, be_eq_beBytes]
    rfl
  | string t => exact encode_string t h
  | bytes b => exact encode_bytes b h
  | array items =>
    have hlen : (nodeItems items).length = items.length := nodeItems_length items
    exact encode_array hlen.symm (hlen ▸ h.1) (encodeAll_node items h.2)
  | map entries =>
    have hlen : (nodeKeys (sortEntries (nodeEntries entries))).length = entries.length := by
      have hkeys := congrArg List.length (nodeEntries_keys entries)
      rw [List.length_map, List.length_map] at hkeys
      rw [nodeKeys, List.length_map, (sortEntries_perm _).length_eq, hkeys]
    rw [encodeCbor, encodeTypeValue_length 5 _ h.1, ok_bind, encodeEach_node entries h.2.2,
      sortEntries_map (fun v : Value => Except.ok v.encode),
      encodeSorted_ok _ (sorted_keys entries h.2.2), CborValue.node, Value.encode, hlen]
    rfl

theorem encodeAll_node (items : List CborValue) (h : SafeItems items) :
    encodeAll items = .ok (encodeItems (nodeItems items)) := by
  cases items with
  | nil => rfl
  | cons v vs => exact encodeAll_cons (encode_node v h.1) (encodeAll_node vs h.2)

theorem encodeEach_node (entries : List (ℤ × CborValue)) (h : SafeEntries entries) :
    encodeEach entries = (nodeEntries entries).map fun e => (e.1, .ok e.2.encode) := by
  cases entries with
  | nil => rfl
  | cons e es =>
    rw [encodeEach, nodeEntries, List.map_cons, encode_node e.2 h.2.1, encodeEach_node es h.2.2]
end

mutual
/-- No text and no byte string is longer than what `push` takes. -/
def CborValue.Within (limit : ℕ) : CborValue → Prop
  | .string t => (textBytes t).length ≤ limit
  | .bytes b => b.length ≤ limit
  | .array items => ItemsWithin limit items
  | .map entries => EntriesWithin limit entries
  | _ => True

def ItemsWithin (limit : ℕ) : List CborValue → Prop
  | [] => True
  | v :: vs => v.Within limit ∧ ItemsWithin limit vs

def EntriesWithin (limit : ℕ) : List (ℤ × CborValue) → Prop
  | [] => True
  | (_, v) :: es => v.Within limit ∧ EntriesWithin limit es
end

theorem entriesWithin_iff (limit : ℕ) :
    EntriesWithin limit entries ↔ ∀ e ∈ entries, e.2.Within limit := by
  induction entries with
  | nil => exact ⟨fun _ e he => absurd he List.not_mem_nil, fun _ => True.intro⟩
  | cons e es ih => rw [EntriesWithin, ih, List.forall_mem_cons]

theorem pushAll_eq_ok (limit : ℕ) (value x : Str) :
    pushAll limit value = .ok x ↔ x = value ∧ value.length ≤ limit := by
  unfold pushAll
  rw [bind_unit_eq_ok, ensure_eq_ok, pure_eq_ok, eq_comm (a := value), and_comm]

theorem encodeSorted_within (limit : ℕ) (es : List (ℤ × CborValue)) (x : Str)
    (h : ∀ e ∈ es, ∀ y, encode limit e.2 = .ok y ↔ encodeCbor e.2 = .ok y ∧ e.2.Within limit) :
    encodeSorted (es.map fun e => (e.1, encode limit e.2)) = .ok x ↔
      encodeSorted (es.map fun e => (e.1, encodeCbor e.2)) = .ok x ∧ ∀ e ∈ es, e.2.Within limit := by
  induction es generalizing x with
  | nil => simp
  | cons e es ih =>
    rw [List.forall_mem_cons] at h
    simp only [List.map_cons, encodeSorted, bind_eq_ok, exists_unit_iff, pure_eq_ok, h.1, ih _ h.2,
      List.forall_mem_cons]
    constructor
    · rintro ⟨hsafe, key, hkey, item, ⟨hitem, hw⟩, rest, ⟨hrest, hws⟩, rfl⟩
      exact ⟨⟨hsafe, key, hkey, item, hitem, rest, hrest, rfl⟩, hw, hws⟩
    · rintro ⟨⟨hsafe, key, hkey, item, hitem, rest, hrest, rfl⟩, hw, hws⟩
      exact ⟨hsafe, key, hkey, item, ⟨hitem, hw⟩, rest, ⟨hrest, hws⟩, rfl⟩

theorem encodeEach_eq_map : encodeEach entries = entries.map fun e => (e.1, encodeCbor e.2) := by
  induction entries with
  | nil => rfl
  | cons e es ih => rw [encodeEach, ih, List.map_cons]

theorem encodeEachWithin_eq_map (limit : ℕ) :
    encodeEachWithin limit entries = entries.map fun e => (e.1, encode limit e.2) := by
  induction entries with
  | nil => rfl
  | cons e es ih => rw [encodeEachWithin, ih, List.map_cons]

mutual
theorem encode_within (limit : ℕ) (c : CborValue) (x : Str) :
    encode limit c = .ok x ↔ encodeCbor c = .ok x ∧ c.Within limit := by
  cases c with
  | null | boolean | number | fraction | f64 => exact (and_iff_left True.intro).symm
  | string t =>
    simp only [encode, encodeCbor, CborValue.Within, bind_eq_ok, pure_eq_ok, pushAll_eq_ok]
    grind
  | bytes b =>
    simp only [encode, encodeCbor, CborValue.Within, bind_eq_ok, pure_eq_ok, pushAll_eq_ok]
    grind
  | array items =>
    simp only [encode, encodeCbor, CborValue.Within, bind_eq_ok, pure_eq_ok,
      encodeItems_within limit items]
    grind
  | map entries =>
    have hmem : ∀ e ∈ sortEntries entries, e ∈ entries :=
      fun e he => (sortEntries_perm entries).mem_iff.mp he
    simp only [encode, encodeCbor, CborValue.Within, bind_eq_ok, pure_eq_ok, encodeEach_eq_map,
      encodeEachWithin_eq_map, sortEntries_map (encode limit), sortEntries_map encodeCbor,
      encodeSorted_within limit _ _ fun e he => encodeEntries_within limit entries e (hmem e he),
      entriesWithin_iff, (sortEntries_perm entries).mem_iff]
    grind

theorem encodeItems_within (limit : ℕ) (items : List CborValue) (x : Str) :
    encodeItemsWithin limit items = .ok x ↔ encodeAll items = .ok x ∧ ItemsWithin limit items := by
  cases items with
  | nil => exact (and_iff_left True.intro).symm
  | cons v vs =>
    simp only [encodeItemsWithin, encodeAll, ItemsWithin, bind_eq_ok, pure_eq_ok,
      encode_within limit v, encodeItems_within limit vs]
    grind

theorem encodeEntries_within (limit : ℕ) (entries : List (ℤ × CborValue)) :
    ∀ e ∈ entries, ∀ y, encode limit e.2 = .ok y ↔ encodeCbor e.2 = .ok y ∧ e.2.Within limit := by
  cases entries with
  | nil => exact fun e he => absurd he List.not_mem_nil
  | cons e es =>
    exact List.forall_mem_cons.mpr ⟨encode_within limit e.2, encodeEntries_within limit es⟩
end

mutual
def Shared : Value → Prop
  | .u64 n => n.toNat ≤ maxSafe
  | .i64 n => -maxSafeInteger ≤ n.toInt ∧ n.toInt < 0
  | .f64 bits => IsFinite bits
  | .text t => (textBytes t).length ≤ maxSafe
  | .bytes b => b.length ≤ maxSafe
  | .array items => items.length ≤ maxSafe ∧ SharedItems items
  | .map entries => entries.length ≤ maxSafe ∧ (entries.map Prod.fst).Pairwise (· < ·) ∧
      SharedEntries entries
  | .null => True
  | .bool _ => True

def SharedItems : List Value → Prop
  | [] => True
  | v :: vs => Shared v ∧ SharedItems vs

def SharedEntries : Entries → Prop
  | [] => True
  | (k, v) :: es => k.toNat ≤ maxSafe ∧ Shared v ∧ SharedEntries es
end

theorem sharedItems_iff : SharedItems vs ↔ ∀ v ∈ vs, Shared v := by
  induction vs with
  | nil => exact ⟨fun _ v hv => absurd hv List.not_mem_nil, fun _ => True.intro⟩
  | cons v vs ih => rw [SharedItems, ih, List.forall_mem_cons]

theorem sharedEntries_iff (es : Entries) :
    SharedEntries es ↔ ∀ e ∈ es, e.1.toNat ≤ maxSafe ∧ Shared e.2 := by
  induction es with
  | nil => exact ⟨fun _ e he => absurd he List.not_mem_nil, fun _ => True.intro⟩
  | cons e es ih => rw [SharedEntries, ih, List.forall_mem_cons, and_assoc]

theorem nodeKeys_sorted (es : List (ℤ × Value)) (hs : (es.map Prod.fst).Pairwise (· < ·))
    (h : ∀ e ∈ es, 0 ≤ e.1 ∧ e.1 < 2 ^ 64) :
    ((nodeKeys es).map Prod.fst).Pairwise (· < ·) := by
  rw [nodeKeys, List.map_map, List.pairwise_map]
  rw [List.pairwise_map] at hs
  apply List.Pairwise.imp_of_mem _ hs
  intro a b ha hb hab
  obtain ⟨hposA, hltA⟩ := h a ha
  obtain ⟨hposB, hltB⟩ := h b hb
  show UInt64.ofNat a.1.toNat < UInt64.ofNat b.1.toNat
  rw [UInt64.lt_iff_toNat_lt, UInt64.toNat_ofNat', UInt64.toNat_ofNat',
    Nat.mod_eq_of_lt (by omega), Nat.mod_eq_of_lt (by omega)]
  omega

mutual
theorem node_shared (c : CborValue) (h : c.Safe) : Shared c.node := by
  cases c with
  | null | boolean b => exact True.intro
  | number n =>
    have hlow : -9007199254740991 ≤ n := h.1
    have hhigh : n ≤ 9007199254740991 := h.2
    unfold CborValue.node
    split
    · show (UInt64.ofNat n.toNat).toNat ≤ 9007199254740991
      rw [UInt64.toNat_ofNat', Nat.mod_eq_of_lt (by omega)]
      omega
    · have hint : (Int64.ofInt n).toInt = n := Int64.toInt_ofInt_of_le (by omega) (by omega)
      show -9007199254740991 ≤ (Int64.ofInt n).toInt ∧ (Int64.ofInt n).toInt < 0
      rw [hint]
      omega
  | fraction bits | f64 bits | string t | bytes b => exact h
  | array items => exact ⟨(nodeItems_length items).symm ▸ h.1, nodeItems_shared items h.2⟩
  | map entries =>
    have hkeys := sorted_keys entries h.2.2
    have hperm := sortEntries_perm (nodeEntries entries)
    have hlen := congrArg List.length (nodeEntries_keys entries)
    rw [List.length_map, List.length_map] at hlen
    have hsorted := sortEntries_sorted (nodeEntries entries)
      ((nodeEntries_keys entries).symm ▸ h.2.1)
    have hall := nodeEntries_shared entries h.2.2
    have hrange : ∀ e ∈ sortEntries (nodeEntries entries), 0 ≤ e.1 ∧ e.1 < 2 ^ 64 := by
      intro e he
      have hle : e.1 ≤ 9007199254740991 := (hkeys e he).1.2
      have hpos := (hkeys e he).2
      omega
    refine ⟨?_, nodeKeys_sorted _ hsorted hrange, ?_⟩
    · rw [nodeKeys, List.length_map, hperm.length_eq, hlen]
      exact h.1
    · rw [sharedEntries_iff, nodeKeys, List.forall_mem_map]
      intro e he
      have hsafe : e.1 ≤ 9007199254740991 := (hkeys e he).1.2
      constructor
      · show (UInt64.ofNat e.1.toNat).toNat ≤ 9007199254740991
        rw [UInt64.toNat_ofNat', Nat.mod_eq_of_lt (by omega)]
        omega
      · exact hall e (hperm.mem_iff.mp he)

theorem nodeItems_shared (items : List CborValue) (h : SafeItems items) :
    SharedItems (nodeItems items) := by
  cases items with
  | nil => exact True.intro
  | cons v vs => exact ⟨node_shared v h.1, nodeItems_shared vs h.2⟩

theorem nodeEntries_shared (entries : List (ℤ × CborValue)) (h : SafeEntries entries) :
    ∀ e ∈ nodeEntries entries, Shared e.2 := by
  cases entries with
  | nil => exact fun e he => absurd he List.not_mem_nil
  | cons e es =>
    rw [nodeEntries, List.forall_mem_cons]
    exact ⟨node_shared e.2 h.2.1, nodeEntries_shared es h.2.2⟩
end

theorem shared_sized (h : Shared v) : v.Sized ∧ v.Distinct := by
  have hmax : maxSafe < 2 ^ 64 := by decide
  induction v using Value.nesting with
  | null | bool | u64 | i64 | f64 => exact ⟨True.intro, True.intro⟩
  | bytes b | text t => exact ⟨Nat.lt_of_le_of_lt h hmax, True.intro⟩
  | array items ih =>
    have hs := (sharedItems_iff items).mp h.2
    exact ⟨⟨Nat.lt_of_le_of_lt h.1 hmax, (sizedItems_iff items).mpr fun v hv => (ih v hv (hs v hv)).1⟩,
      (keyedItems_iff _ items).mpr fun v hv => (ih v hv (hs v hv)).2⟩
  | map entries ih =>
    have hs := (sharedEntries_iff entries).mp h.2.2
    have hnodup : (entries.map Prod.fst).Nodup := by
      apply h.2.1.imp
      intro a b hlt heq
      rw [heq] at hlt
      exact UInt64.lt_irrefl b hlt
    exact ⟨⟨Nat.lt_of_le_of_lt h.1 hmax,
      (sizedEntries_iff entries).mpr fun e he => (ih e he (hs e he).2).1⟩, hnodup,
      (keyedEntries_iff _ entries).mpr fun e he => (ih e he (hs e he).2).2⟩

theorem shared_normal (h : Shared v) : v.normal = v := by
  induction v using Value.nesting with
  | null | bool | u64 | f64 | bytes | text => rfl
  | i64 n =>
    have hneg : ¬ 0 ≤ n.toInt := by
      have hn := h.2
      omega
    unfold Value.normal
    rw [Value.placed, if_neg hneg]
  | array items ih =>
    have hs := (sharedItems_iff items).mp h.2
    unfold Value.normal
    rw [Value.placed, placedItems_eq]
    congr 1
    exact (List.map_congr_left fun v hv => ih v hv (hs v hv)).trans (List.map_id items)
  | map entries ih =>
    have hs := (sharedEntries_iff entries).mp h.2.2
    have hpairs : placedPairs insertEntry entries = entries :=
      (List.map_congr_left fun e he => congrArg (Prod.mk e.1) (ih e he (hs e he).2)).trans
        (List.map_id entries)
    unfold Value.normal
    rw [Value.placed, placedEntries_eq, hpairs]
    congr 1
    exact placeAll_insertEntry entries h.2.1

mutual
def web : Value → CborValue
  | .null => .null
  | .bool b => .boolean b
  | .u64 n => .number n.toNat
  | .i64 n => .number n.toInt
  | .f64 bits => .f64 bits
  | .bytes b => .bytes b
  | .text t => .string t
  | .array items => .array (webItems items)
  | .map entries => .map (webEntries entries)

def webItems : List Value → List CborValue
  | [] => []
  | v :: vs => web v :: webItems vs

def webEntries : Entries → List (ℤ × CborValue)
  | [] => []
  | (k, v) :: es => ((k.toNat : ℤ), web v) :: webEntries es
end

mutual
def stripped : Value → Value
  | .text t => .text (strip t)
  | .array items => .array (strippedItems items)
  | .map entries => .map (strippedEntries entries)
  | v => v

def strippedItems : List Value → List Value
  | [] => []
  | v :: vs => stripped v :: strippedItems vs

def strippedEntries : Entries → Entries
  | [] => []
  | (k, v) :: es => (k, stripped v) :: strippedEntries es
end

mutual
def NoMark : Value → Prop
  | .text t => t.toList.head? ≠ some '\uFEFF'
  | .array items => NoMarkItems items
  | .map entries => NoMarkEntries entries
  | _ => True

def NoMarkItems : List Value → Prop
  | [] => True
  | v :: vs => NoMark v ∧ NoMarkItems vs

def NoMarkEntries : Entries → Prop
  | [] => True
  | (_, v) :: es => NoMark v ∧ NoMarkEntries es
end

theorem webItems_eq : webItems vs = vs.map web := by
  induction vs with
  | nil => rfl
  | cons v vs ih => rw [webItems, ih, List.map_cons]

theorem webEntries_eq (es : Entries) : webEntries es = es.map fun e => ((e.1.toNat : ℤ), web e.2) := by
  induction es with
  | nil => rfl
  | cons e es ih => rw [webEntries, ih, List.map_cons]

theorem strippedItems_eq : strippedItems vs = vs.map stripped := by
  induction vs with
  | nil => rfl
  | cons v vs ih => rw [strippedItems, ih, List.map_cons]

theorem strippedEntries_eq (es : Entries) :
    strippedEntries es = es.map fun e => (e.1, stripped e.2) := by
  induction es with
  | nil => rfl
  | cons e es ih => rw [strippedEntries, ih, List.map_cons]

theorem nodeItems_eq (vs : List CborValue) : nodeItems vs = vs.map CborValue.node := by
  induction vs with
  | nil => rfl
  | cons v vs ih => rw [nodeItems, ih, List.map_cons]

theorem nodeEntries_eq (es : List (ℤ × CborValue)) :
    nodeEntries es = es.map fun e => (e.1, e.2.node) := by
  induction es with
  | nil => rfl
  | cons e es ih => rw [nodeEntries, ih, List.map_cons]

theorem stripped_eq_iff : stripped v = v ↔ NoMark v := by
  induction v using Value.nesting with
  | null | bool | u64 | i64 | f64 | bytes => exact ⟨fun _ => True.intro, fun _ => rfl⟩
  | text t =>
    rw [stripped, NoMark, Value.text.injEq]
    exact strip_eq_iff t
  | array items ih =>
    rw [stripped, NoMark, Value.array.injEq]
    induction items with
    | nil => exact ⟨fun _ => True.intro, fun _ => rfl⟩
    | cons v vs ihs =>
      rw [List.forall_mem_cons] at ih
      rw [strippedItems, NoMarkItems, List.cons.injEq, ih.1, ihs ih.2]
  | map entries ih =>
    rw [stripped, NoMark, Value.map.injEq]
    induction entries with
    | nil => exact ⟨fun _ => True.intro, fun _ => rfl⟩
    | cons e es ihs =>
      rw [List.forall_mem_cons] at ih
      rw [strippedEntries, NoMarkEntries, List.cons.injEq, Prod.mk.injEq, ih.1, ihs ih.2]
      exact ⟨fun h => ⟨h.1.2, h.2⟩, fun h => ⟨⟨rfl, h.1⟩, h.2⟩⟩

theorem stripped_shared (h : Shared v) : Shared (stripped v) := by
  induction v using Value.nesting with
  | null | bool | u64 | i64 | f64 | bytes => exact h
  | text t => exact (strip_length t).trans h
  | array items ih =>
    have hs := (sharedItems_iff items).mp h.2
    rw [stripped, Shared, strippedItems_eq, List.length_map, sharedItems_iff, List.forall_mem_map]
    exact ⟨h.1, fun v hv => ih v hv (hs v hv)⟩
  | map entries ih =>
    have hs := (sharedEntries_iff entries).mp h.2.2
    rw [stripped, Shared, strippedEntries_eq, List.length_map, sharedEntries_iff,
      List.forall_mem_map, List.map_map]
    exact ⟨h.1, h.2.1, fun e he => ⟨(hs e he).1, ih e he (hs e he).2⟩⟩

theorem web_node (h : Shared v) : (web v).node = v := by
  induction v using Value.nesting with
  | null | bool | f64 | bytes | text => rfl
  | u64 n =>
    rw [web, CborValue.node, if_pos (by omega), Int.toNat_natCast, UInt64.ofNat_toNat]
  | i64 n =>
    have hneg : ¬ 0 ≤ n.toInt := by
      have hn := h.2
      omega
    rw [web, CborValue.node, if_neg hneg, Int64.ofInt_toInt]
  | array items ih =>
    have hs := (sharedItems_iff items).mp h.2
    rw [web, CborValue.node, nodeItems_eq, webItems_eq, List.map_map]
    congr 1
    exact (List.map_congr_left fun v hv => ih v hv (hs v hv)).trans (List.map_id items)
  | map entries ih =>
    have hs := (sharedEntries_iff entries).mp h.2.2
    have hsorted : sortEntries (entries.map fun e => ((e.1.toNat : ℤ), e.2)) =
        entries.map fun e => ((e.1.toNat : ℤ), e.2) := by
      apply List.Pairwise.insertionSort_eq
      rw [List.pairwise_map]
      have hlt := h.2.1
      rw [List.pairwise_map] at hlt
      apply hlt.imp
      intro a b hab
      have hnat := UInt64.lt_iff_toNat_lt.mp hab
      show (a.1.toNat : ℤ) ≤ b.1.toNat
      omega
    have hnode : nodeEntries (webEntries entries) =
        entries.map fun e => ((e.1.toNat : ℤ), e.2) := by
      rw [nodeEntries_eq, webEntries_eq, List.map_map]
      exact List.map_congr_left fun e he => congrArg (Prod.mk (e.1.toNat : ℤ)) (ih e he (hs e he).2)
    rw [web, CborValue.node, hnode, hsorted, nodeKeys, List.map_map]
    congr 1
    apply (List.map_congr_left _).trans (List.map_id entries)
    intro e _
    show (UInt64.ofNat (e.1.toNat : ℤ).toNat, e.2) = e
    rw [Int.toNat_natCast, UInt64.ofNat_toNat]

theorem readFixedUint_run (k : ℕ) (b r : Str) (hb : b.length = k) :
    readFixedUint k (b ++ r) = .ok (beNat b, r) := by
  subst hb
  unfold readFixedUint
  rw [Reader.bind_run _ _ _ _ _ (Reader.take_run r _ b)]
  rfl

theorem readU64AsU53_halves (n high low : ℕ) (r : Str) (h : n ≤ maxSafe)
    (hh : n / 256 ^ 4 = high) (hl : n % 256 ^ 4 = low) :
    readU64AsU53 (beBytes 8 n ++ r) = .ok (high * 2 ^ 32 + low, r) := by
  have hmax : maxSafe = 9007199254740991 := rfl
  have hsplit : beBytes 8 n = beBytes 4 (n / 256 ^ 4) ++ beBytes 4 n := beBytes_add 4 4 n
  have hhigh : beNat (beBytes 4 (n / 256 ^ 4)) = high :=
    (beNat_beBytes 4 _ (by omega)).trans hh
  have hlow : beNat (beBytes 4 n) = low := (beNat_beBytes_mod 4 n).trans hl
  unfold readU64AsU53
  rw [hsplit, List.append_assoc,
    Reader.bind_run _ _ _ _ _ (readFixedUint_run 4 _ _ (beBytes_length 4 _)), hhigh,
    Reader.bind_run _ _ _ _ _ (readFixedUint_run 4 _ _ (beBytes_length 4 _)), hlow,
    Reader.bind_run _ _ _ _ _ (Reader.ensure_run _ _ _ (by omega)),
    Reader.bind_run _ _ _ _ _ (Reader.ensure_run _ _ _ (by omega))]
  rfl

theorem readU64AsU53_run (n : ℕ) (r : Str) (h : n ≤ maxSafe) :
    readU64AsU53 (beBytes 8 n ++ r) = .ok (n, r) := by
  have hn : n / 256 ^ 4 * 2 ^ 32 + n % 256 ^ 4 = n := by omega
  have hrun := readU64AsU53_halves n _ _ r h rfl rfl
  rw [hn] at hrun
  exact hrun

theorem readArg_run (n : ℕ) (r : Str) (h : n ≤ maxSafe) :
    readArg (additional n) (beBytes (argumentWidth n) n ++ r) = .ok (n, r) := by
  have hfixed : ∀ k, n < 256 ^ k → readFixedUint k (beBytes k n ++ r) = .ok (n, r) := by
    intro k hk
    rw [readFixedUint_run k _ r (beBytes_length k n), beNat_beBytes k n hk]
  unfold additional argumentWidth
  split_ifs with h1 h2 h3 h4
  · unfold readArg
    rw [if_pos h1]
    rfl
  · exact hfixed 1 (by omega)
  · exact hfixed 2 (by omega)
  · exact hfixed 4 (by omega)
  · exact readU64AsU53_run n r h

theorem readLength_run (n : ℕ) (r : Str) (h : n ≤ maxSafe) (hr : n ≤ r.length) :
    readLength (additional n) (beBytes (argumentWidth n) n ++ r) = .ok (n, r) := by
  unfold readLength
  rw [Reader.bind_run _ _ _ _ _ (readArg_run n r h),
    Reader.bind_run _ _ _ _ _ (Reader.need_run r _ n hr)]
  rfl

theorem decodeAt_run (levels major n : ℕ) (r : Str) (hmajor : major < 8) :
    decodeAt (levels + 1) (encodeArgument major n ++ r) =
      decodeMajor (decodeAt levels) major (additional n) (beBytes (argumentWidth n) n ++ r) := by
  have hadd := additional_lt n
  have hbyte : beNat [UInt8.ofNat (32 * major + additional n)] = 32 * major + additional n := by
    show 256 * 0 + (UInt8.ofNat (32 * major + additional n)).toNat = _
    rw [UInt8.toNat_ofNat', Nat.mod_eq_of_lt (by omega)]
    omega
  have hdiv : (32 * major + additional n) / 32 = major := by omega
  have hmod : (32 * major + additional n) % 32 = additional n := by omega
  rw [encodeArgument_eq, List.cons_append, ← List.singleton_append, decodeAt,
    Reader.bind_run _ _ _ _ _ (readFixedUint_run 1 [_] _ rfl), hbyte, hdiv, hmod]

theorem decodeAt_lengthRun (levels major n : ℕ) (r : Str) (hmajor : major < 8) (h : n ≤ maxSafe) :
    decodeAt (levels + 1) (encodeLength major n ++ r) =
      decodeMajor (decodeAt levels) major (additional n) (beBytes (argumentWidth n) n ++ r) := by
  have hmax : maxSafe = 9007199254740991 := rfl
  have hn : (UInt64.ofNat n).toNat = n := by
    rw [UInt64.toNat_ofNat', Nat.mod_eq_of_lt (by omega)]
  rw [encodeLength, Cbor.encodeTypeValue, hn]
  exact decodeAt_run levels major n r hmajor

theorem decodeAt_unsigned (n : UInt64) (r : Str) (h : n.toNat ≤ maxSafe) :
    decodeAt (levels + 1) (Cbor.encodeTypeValue 0 n ++ r) = .ok (.number n.toNat, r) := by
  rw [Cbor.encodeTypeValue, decodeAt_run levels 0 n.toNat r (by omega), decodeMajor,
    Reader.bind_run _ _ _ _ _ (readArg_run n.toNat r h)]
  rfl

theorem decodeAt_negative (n : Int64) (r : Str) (hlow : -maxSafeInteger ≤ n.toInt)
    (hneg : n.toInt < 0) :
    decodeAt (levels + 1) (Cbor.encodeTypeValue 1 (UInt64.ofNat (-1 - n.toInt).toNat) ++ r) =
      .ok (.number n.toInt, r) := by
  have hmax : maxSafe = 9007199254740991 := rfl
  unfold maxSafeInteger at hlow
  have hnat : (UInt64.ofNat (-1 - n.toInt).toNat).toNat = (-1 - n.toInt).toNat := by
    rw [UInt64.toNat_ofNat', Nat.mod_eq_of_lt (by omega)]
  have hint : (-1 - ((-1 - n.toInt).toNat : ℤ)) = n.toInt := by omega
  rw [Cbor.encodeTypeValue, hnat, decodeAt_run levels 1 _ r (by omega), decodeMajor,
    readNegativeArg]
  rw [Reader.bind_run _ _ _ _ _ ((Reader.bind_run _ _ _ _ _ (readArg_run _ r (by omega))).trans
    (Reader.bind_run _ _ _ _ _ (Reader.ensure_run _ _ _ (by omega)))), hint]
  rfl

theorem decodeTimes_run (decode : CborReader CborValue) (vs : List Value) (r : Str)
    (h : ∀ v ∈ vs, ∀ r, decode (v.encode ++ r) = .ok (web (stripped v), r)) :
    Reader.times decode vs.length (encodeItems vs ++ r) = .ok (webItems (strippedItems vs), r) := by
  induction vs with
  | nil => rfl
  | cons v vs ih =>
    rw [List.forall_mem_cons] at h
    rw [List.length_cons, Reader.times, encodeItems, List.append_assoc,
      Reader.bind_run _ _ _ _ _ (h.1 _), Reader.bind_run _ _ _ _ _ (ih h.2)]
    rfl

theorem decodeMap_run (decode : CborReader CborValue) (es : Entries) (map : List (ℤ × CborValue))
    (r : Str) (hkey : ∀ e ∈ es, ∀ r,
      decode (Cbor.encodeTypeValue 0 e.1 ++ r) = .ok (.number e.1.toNat, r))
    (hsafe : ∀ e ∈ es, e.1.toNat ≤ maxSafe)
    (h : ∀ e ∈ es, ∀ r, decode (e.2.encode ++ r) = .ok (web (stripped e.2), r))
    (hfresh : ∀ e ∈ es, (e.1.toNat : ℤ) ∉ map.map Prod.fst)
    (hs : (es.map Prod.fst).Pairwise (· < ·)) :
    decodeMap decode es.length map (encodeEntries es ++ r) =
      .ok (map ++ webEntries (strippedEntries es), r) := by
  induction es generalizing map with
  | nil =>
    rw [strippedEntries, webEntries, List.append_nil]
    rfl
  | cons e es ih =>
    obtain ⟨k, v⟩ := e
    rw [List.forall_mem_cons] at hkey hsafe h hfresh
    obtain ⟨hk, hs⟩ := List.pairwise_cons.mp hs
    have hsafeKey : mapKey (.number k.toNat) = some (k.toNat : ℤ) := by
      have hle : k.toNat ≤ 9007199254740991 := hsafe.1
      have hkey : IsSafeInteger (k.toNat : ℤ) ∧ 0 ≤ (k.toNat : ℤ) := by
        unfold IsSafeInteger maxSafeInteger
        omega
      exact if_pos hkey
    have hnext : ∀ e ∈ es, (e.1.toNat : ℤ) ∉
        (map ++ [((k.toNat : ℤ), web (stripped v))]).map Prod.fst := by
      intro e he hmem
      rw [List.map_append, List.mem_append] at hmem
      rcases hmem with hmem | hmem
      · exact hfresh.2 e he hmem
      · have heq : (e.1.toNat : ℤ) = k.toNat := List.mem_singleton.mp hmem
        have hlt : k.toNat < e.1.toNat :=
          UInt64.lt_iff_toNat_lt.mp (hk e.1 (List.mem_map_of_mem he))
        omega
    rw [List.length_cons, decodeMap, encodeEntries, List.append_assoc, List.append_assoc,
      Reader.bind_run _ _ _ _ _ (hkey.1 _),
      Reader.bind_run _ _ _ _ _ ((Reader.require_eq_ok _ _ _ _ _).mpr ⟨hsafeKey, rfl⟩),
      Reader.bind_run _ _ _ _ _ (Reader.ensure_run _ _ _ hfresh.1),
      Reader.bind_run _ _ _ _ _ (h.1 _), ih _ hkey.2 hsafe.2 h.2 hnext hs, strippedEntries,
      webEntries, List.append_assoc, List.singleton_append]

theorem decodeAt_encode (r : Str) (hdepth : v.depth < levels)
    (h : Shared v) : decodeAt levels (v.encode ++ r) = .ok (web (stripped v), r) := by
  induction levels generalizing v r with
  | zero => exact absurd hdepth (Nat.not_lt_zero _)
  | succ levels ih =>
    cases v with
    | null => exact decodeAt_run levels 7 22 r (by omega)
    | bool b =>
      cases b with
      | false => exact decodeAt_run levels 7 20 r (by omega)
      | true => exact decodeAt_run levels 7 21 r (by omega)
    | u64 n => exact decodeAt_unsigned levels n r h
    | i64 n =>
      have hneg : ¬ 0 ≤ n.toInt := by
        have hn := h.2
        omega
      rw [Value.encode, if_neg hneg]
      exact decodeAt_negative levels n r h.1 h.2
    | f64 bits =>
      have hbyte : beNat [0xfb] = 251 := rfl
      have hfinite : IsFinite bits := h
      unfold Value.encode
      rw [List.cons_append, ← List.singleton_append, decodeAt,
        Reader.bind_run _ _ _ _ _ (readFixedUint_run 1 [0xfb] _ rfl), hbyte, decodeMajor,
        decodeSimple, Reader.bind_run _ _ _ _ _ (readFixedUint_run 8 _ r (beBytes_length 8 _)),
        beNat_beBytes 8 _ bits.toNat_lt, UInt64.ofNat_toNat,
        Reader.bind_run _ _ _ _ _ (Reader.ensure_run _ _ _ hfinite)]
      rfl
    | bytes b =>
      have hlen : b.length ≤ maxSafe := h
      unfold Value.encode
      rw [List.append_assoc, decodeAt_lengthRun levels 2 _ _ (by omega) hlen, decodeMajor,
        Reader.bind_run _ _ _ _ _ (readLength_run _ _ hlen (by rw [List.length_append]; omega)),
        Reader.bind_run _ _ _ _ _ (Reader.take_run r _ b)]
      rfl
    | text t =>
      have hlen : (textBytes t).length ≤ maxSafe := h
      have htext : (decodeText (textBytes t)).toOption = some (strip t) := by
        rw [decodeText_strip]
        rfl
      unfold Value.encode
      rw [List.append_assoc, decodeAt_lengthRun levels 3 _ _ (by omega) hlen, decodeMajor,
        Reader.bind_run _ _ _ _ _ (readLength_run _ _ hlen (by rw [List.length_append]; omega)),
        Reader.bind_run _ _ _ _ _ (Reader.take_run r _ (textBytes t)),
        Reader.bind_run _ _ _ _ _ ((Reader.require_eq_ok _ _ _ _ _).mpr ⟨htext, rfl⟩)]
      rfl
    | array items =>
      have hs := (sharedItems_iff items).mp h.2
      have hd := (depthItems_lt_iff items levels).mp hdepth
      have hle := length_le_encodeItems items
      unfold Value.encode
      rw [List.append_assoc, decodeAt_lengthRun levels 4 _ _ (by omega) h.1, decodeMajor,
        Reader.bind_run _ _ _ _ _ (readLength_run _ _ h.1 (by rw [List.length_append]; omega)),
        Reader.bind_run _ _ _ _ _ (decodeTimes_run _ items r fun v hv r =>
          ih v r (hd v hv) (hs v hv))]
      rfl
    | map entries =>
      have hs := (sharedEntries_iff entries).mp h.2.2
      have hd := (depthEntries_lt_iff entries levels).mp hdepth
      have hle := length_le_encodeEntries entries
      have hkey : ∀ e ∈ entries, ∀ r, decodeAt levels (Cbor.encodeTypeValue 0 e.1 ++ r) =
          .ok (.number e.1.toNat, r) := by
        intro e he r
        obtain ⟨inner, rfl⟩ : ∃ inner, levels = inner + 1 :=
          ⟨levels - 1, by have hlt := hd e he; omega⟩
        exact decodeAt_unsigned inner e.1 r (hs e he).1
      unfold Value.encode
      rw [List.append_assoc, decodeAt_lengthRun levels 5 _ _ (by omega) h.1, decodeMajor,
        Reader.bind_run _ _ _ _ _ (readLength_run _ _ h.1 (by rw [List.length_append]; omega)),
        Reader.bind_run _ _ _ _ _ (decodeMap_run _ entries [] r hkey (fun e he => (hs e he).1)
          (fun e he r => ih e.2 r (hd e he) (hs e he).2) (fun _ _ => List.not_mem_nil) h.2.1)]
      rfl

theorem decodeCbor_encode (hdepth : v.depth ≤ 64) (h : Shared v) :
    decodeCbor v.encode = .ok (web (stripped v)) := by
  have hrun := decodeAt_encode 65 v [] (Nat.lt_succ_of_le hdepth) h
  rw [List.append_nil] at hrun
  unfold decodeCbor
  rw [hrun]
  rfl

/-- The browser gives a shared value the node's bytes exactly if `push` takes all its texts and byte
strings, the node reads it back from them, and the browser reads it back exactly if no text in it
begins with U+FEFF. -/
theorem codecs_agree (limit : ℕ) (c : CborValue) (hsafe : c.Safe) (hdepth : c.node.depth ≤ 64) :
    (encode limit c = .ok c.node.encode ↔ c.Within limit) ∧
    (∀ v : Value, v.Ascending → v.normal = c.node → v.encode = c.node.encode) ∧
    Cbor.decode c.node.encode = .ok c.node ∧
    ((∃ c', decodeCbor c.node.encode = .ok c' ∧ c'.node = c.node) ↔ NoMark c.node) := by
  have hshared := node_shared c hsafe
  obtain ⟨hsized, hdistinct⟩ := shared_sized c.node hshared
  refine ⟨(encode_within limit c _).trans (and_iff_right (encode_node c hsafe)), ?_, ?_, ?_⟩
  · intro v hascending hnormal
    rw [← hnormal]
    exact (normal_encode v hascending).symm
  · exact (codec_canonical.1 c.node hdepth hsized hdistinct).trans
      (congrArg Except.ok (shared_normal c.node hshared))
  · have hstripped := web_node (stripped c.node) (stripped_shared c.node hshared)
    rw [decodeCbor_encode c.node hdepth hshared, ← stripped_eq_iff]
    constructor
    · rintro ⟨c', hc', heq⟩
      cases hc'
      exact hstripped.symm.trans heq
    · exact fun heq => ⟨_, rfl, hstripped.trans heq⟩

def markedText : CborValue := .string "\uFEFFa"

theorem mark_lost : markedText.Safe ∧ decodeCbor markedText.node.encode = .ok (.string "a") ∧
    ¬ ∃ c', decodeCbor markedText.node.encode = .ok c' ∧ c'.node = markedText.node := by
  have hsafe : markedText.Safe := by
    show (textBytes "\uFEFFa").length ≤ maxSafe
    decide
  have hread : decodeCbor markedText.node.encode = .ok (.string "a") := by
    have hstrip : strip "\uFEFFa" = "a" := by decide
    rw [decodeCbor_encode markedText.node (by decide) (node_shared markedText hsafe)]
    show Except.ok (CborValue.string (strip "\uFEFFa")) = _
    rw [hstrip]
  refine ⟨hsafe, hread, ?_⟩
  rintro ⟨c', hc', hsame⟩
  cases hread.symm.trans hc'
  have htext : "a" = "\uFEFFa" := Value.text.inj hsame
  revert htext
  decide

def sharedSample : CborValue :=
  .map [(300, .string "text"), (1, .array [.number (-7), .f64 0, .boolean true])]

theorem codecs_agree_sample :
    (encode 65536 sharedSample = .ok sharedSample.node.encode ↔ sharedSample.Within 65536) ∧
    (∀ v : Value, v.Ascending → v.normal = sharedSample.node →
      v.encode = sharedSample.node.encode) ∧
    Cbor.decode sharedSample.node.encode = .ok sharedSample.node ∧
    ((∃ c', decodeCbor sharedSample.node.encode = .ok c' ∧ c'.node = sharedSample.node) ↔
      NoMark sharedSample.node) := by
  have hsafe : sharedSample.Safe := by
    refine ⟨by decide, by decide, by decide, ?_, by decide, ⟨by decide, ?_⟩, True.intro⟩
    · show (textBytes "text").length ≤ maxSafe
      decide
    · exact ⟨(by decide : IsSafeInteger (-7)), (by decide : IsFinite 0), True.intro, True.intro⟩
  exact codecs_agree 65536 sharedSample hsafe (by decide)

end Rieul.Web
