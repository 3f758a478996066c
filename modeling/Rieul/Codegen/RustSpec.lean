import Rieul.Codegen.Rust
import Rieul.Codegen.Evolution
import Rieul.Core.CborCanonical

/-!
# What the emitted Rust code does

One equation for each shape that is taken apart, and what decoding with one
schema makes of a value that was encoded with another.
-/

namespace Rieul.Codegen.Rust
open Fallible Record Bytes Rieul.Cbor

theorem Model.nesting {P : Model → Prop} (unit : P .unit) (u64 : ∀ n, P (.u64 n))
    (i64 : ∀ n, P (.i64 n)) (f64 : ∀ bits, P (.f64 bits)) (string : ∀ t, P (.string t))
    (bool : ∀ b, P (.bool b)) (bytes : ∀ b, P (.bytes b))
    (vec : ∀ items, (∀ m ∈ items, P m) → P (.vec items)) (none : P .none)
    (some : ∀ m, P m → P (.some m)) (struct : ∀ self, (∀ name, P (self name)) → P (.struct self))
    (enum : ∀ variant, P (.enum variant))
    (union : ∀ variant self, (∀ name, P (self name)) → P (.union variant self)) (m : Model) : P m :=
  @Model.rec P (fun items => ∀ m ∈ items, P m) unit u64 i64 f64 string bool bytes vec none some
    struct enum union (fun _ hm => absurd hm List.not_mem_nil)
    (fun _ _ hm hms => List.forall_mem_cons.mpr ⟨hm, hms⟩) m

theorem u64Id_toNat (id : Id) : (u64Id id).toNat = id.val := by
  have hlt : id.val < 2 ^ 53 := id.isLt
  rw [u64Id, UInt64.toNat_ofNat', Nat.mod_eq_of_lt (by omega)]

theorem u64Id_inj (id id' : Id) (h : u64Id id = u64Id id') : id = id' := by
  apply Fin.ext
  rw [← u64Id_toNat, ← u64Id_toNat, h]

theorem nodup_u64Id (fields : List FieldDeclaration) (h : (fields.map (·.id)).Nodup) :
    (fields.map fun field => u64Id field.id).Nodup := by
  have hids := h.map fun id id' hid => u64Id_inj id id' hid
  rw [List.map_map] at hids
  exact hids

section
variable (schema : Schema)
variable {path name typePath : String} {fields : List FieldDeclaration}
  {variants : List UnionVariantDeclaration}
attribute [local simp] decoders entryDecoders expectMap expectUnion encodeExpr encodeSome encodeArray

theorem decoders_eq (items : List Value) : decoders schema items = items.map (decodeExpr schema) := by
  induction items with
  | nil => rfl
  | cons value items ih =>
    rw [decoders, ih]
    rfl

theorem entryDecoders_eq (entries : Entries) :
    entryDecoders schema entries = entries.map fun e => (e.1, decodeExpr schema e.2) := by
  induction entries with
  | nil => rfl
  | cons e entries ih =>
    rw [entryDecoders, ih]
    rfl

theorem entryDecoders_lookup (entries : Entries) (key : UInt64) :
    (entryDecoders schema entries).lookup key = (entries.lookup key).map (decodeExpr schema) := by
  rw [entryDecoders_eq]
  exact lookup_map (decodeExpr schema) entries key

theorem decode_array (items : List Value) (item : TypeRef) :
    decodeExpr schema (.array items) (.array item) = (do
      let values ← decodeArray (items.map (decodeExpr schema)) item
      .ok (.vec values)) := by
  rw [← decoders_eq]
  rfl

theorem decode_struct
    (hnamed : schema.named path = some (.struct name typePath fields)) (entries : Entries) :
    decodeExpr schema (.map entries) (.named path) = (do
      let self ← decodeFields schema (entryDecoders schema entries) fields
      .ok (.struct self)) := by
  simp only [decodeExpr, decodeParts, hnamed, expectMap, ok_bind]

theorem decode_enum {variants : List EnumVariantDeclaration}
    (hnamed : schema.named path = some (.enum name typePath variants)) (value : Value) :
    decodeExpr schema value (.named path) = (do
      let variantId ← liftError .codec (expectU64 value)
      let variant ← require (.codec (.UnknownEnumVariant name variantId))
        (variants.find? fun variant => u64Id variant.id = variantId)
      .ok (.enum variant.name)) := by
  simp only [decodeExpr, decodeParts, hnamed]

theorem decode_union
    (hnamed : schema.named path = some (.union name typePath variants)) {v : Value} {id : UInt64}
    (hid : expectU64 v = .ok id) (entries : Entries) :
    decodeExpr schema (.array [v, .map entries]) (.named path) = (do
      let variant ← require (.codec (.UnknownUnionVariant name id))
        (variants.find? fun variant => u64Id variant.id = id)
      let self ← decodeFields schema (entryDecoders schema entries) variant.fields
      .ok (.union variant.name self)) := by
  simp only [decodeExpr, decodeParts, hnamed, expectUnion, hid, liftError, expectMap, ok_bind]

theorem decode_primitive (name : PrimitiveTypeName) (value : Value) :
    decodeExpr schema value (.primitive name) = liftError .codec (decodePrimitive name value) := rfl

theorem decode_void (value : Value) : decodeExpr schema value .void = .ok .unit := rfl

theorem decodeField_some {entries : Entries} {field : FieldDeclaration} {value : Value}
    (h : entries.lookup (u64Id field.id) = some value) :
    decodeFieldExpr schema (entryDecoders schema entries) field =
      if field.optional then Model.some <$> decodeExpr schema value field.type
      else decodeExpr schema value field.type := by
  rw [decodeFieldExpr, entryDecoders_lookup, h]
  rfl

theorem decodeField_none {entries : Entries} {field : FieldDeclaration}
    (h : entries.lookup (u64Id field.id) = none) :
    decodeFieldExpr schema (entryDecoders schema entries) field =
      if field.optional then .ok .none else default schema field.type := by
  rw [decodeFieldExpr, entryDecoders_lookup, h]
  rfl

theorem encode_vec (items : List Model) (item : TypeRef) :
    encodeExpr schema (.vec items) (.array item) = (do
      let values ← encodeArray schema items item
      .ok (.array values)) := by
  rw [encodeExpr]

theorem encode_primitive (name : PrimitiveTypeName) (value : Model) :
    encodeExpr schema value (.primitive name) = encodePrimitive name value := by
  cases value <;> rfl

theorem encode_struct
    (hnamed : schema.named path = some (.struct name typePath fields)) (self : String → Model) :
    encodeExpr schema (.struct self) (.named path) = (do
      let entries ← insertFields (encodeField schema self) fields
      .ok (.map entries)) := by
  rw [encodeExpr, hnamed]
  rfl

theorem encode_enum {variants : List EnumVariantDeclaration}
    (hnamed : schema.named path = some (.enum name typePath variants)) (variant : String) :
    encodeExpr schema (.enum variant) (.named path) = (do
      let variant ← require .untyped (variants.find? fun v => v.name = variant)
      .ok (.u64 (u64Id variant.id))) := by
  rw [encodeExpr, hnamed]

theorem encode_union
    (hnamed : schema.named path = some (.union name typePath variants)) (variant : String)
    (self : String → Model) :
    encodeExpr schema (.union variant self) (.named path) = (do
      let variant ← require .untyped (variants.find? fun v => v.name = variant)
      let entries ← insertFields (encodeArm schema self) variant.fields
      .ok (.array [.u64 (u64Id variant.id), .map entries])) := by
  rw [encodeExpr, hnamed]
  rfl

end

theorem places_insertEntry : Places insertEntry := by
  intro k v es k' hfresh
  induction es with
  | nil => exact lookup_cons k k' v []
  | cons e es ih =>
    obtain ⟨key, value⟩ := e
    rw [lookup_cons] at hfresh
    by_cases hkey : k = key
    · rw [if_pos hkey] at hfresh
      cases hfresh
    · rw [if_neg hkey] at hfresh
      unfold insertEntry
      split
      · exact lookup_cons k k' v _
      · rw [lookup_cons, lookup_cons, ih hfresh]
        by_cases hk : k' = key
        · rw [if_pos hk, if_neg (hk ▸ fun h => hkey h.symm), if_pos hk]
        · rw [if_neg hk, if_neg hk]

theorem insertArms_eq (schema : Schema) (self : String → Model) (fields : List FieldDeclaration)
    (h : ∀ field ∈ fields, shadowed field = false) :
    insertFields (encodeArm schema self) fields = insertFields (encodeField schema self) fields := by
  apply collect_congr
  intro field hfield
  rw [encodeArm, if_neg (Bool.eq_false_iff.mp (h field hfield))]

theorem insertArms_ok (schema : Schema) (self : String → Model) (fields : List FieldDeclaration)
    (entries : Entries) (h : insertFields (encodeArm schema self) fields = .ok entries) :
    (∀ field ∈ fields, shadowed field = false) ∧
      insertFields (encodeField schema self) fields = .ok entries := by
  have hread : ∀ field ∈ fields, shadowed field = false := by
    intro field hfield
    obtain ⟨o, ho⟩ := (collect_isOk fields []).mp ⟨entries, h⟩ field hfield
    by_contra hshadow
    rw [encodeArm, if_pos ((Bool.not_eq_false _).mp hshadow)] at ho
    cases ho
  exact ⟨hread, insertArms_eq schema self fields hread ▸ h⟩

section
variable (encode : FieldDeclaration → Except Fault (Option Value)) (fields : List FieldDeclaration)
  (entries : Entries) (hids : (fields.map (·.id)).Nodup)
  (h : insertFields encode fields = .ok entries)
include encode fields entries hids h

theorem insertFields_lookup :
    (∀ field ∈ fields, encode field = .ok (entries.lookup (u64Id field.id))) ∧
      ∀ key, (∀ field ∈ fields, u64Id field.id ≠ key) → entries.lookup key = none := by
  obtain ⟨hfields, helse⟩ := collect_lookup places_insertEntry fields [] entries
    (nodup_u64Id fields hids) (fun _ _ => rfl) h
  refine ⟨hfields, fun key hkey => helse key fun hmem => ?_⟩
  obtain ⟨field, hfield, heq⟩ := List.mem_map.mp hmem
  exact hkey field hfield heq

theorem insertFields_nodup : (entries.map Prod.fst).Nodup := by
  apply collect_keeps places_insertEntry (fun es => (es.map Prod.fst).Nodup) _ fields [] entries
    (nodup_u64Id fields hids) (fun _ _ => rfl) List.nodup_nil h
  intro field v es hfresh hes
  rw [((keeps_insertEntry.keys _ v es)).nodup_iff]
  exact List.nodup_cons.mpr ⟨(lookup_eq_none_iff es _).mp hfresh, hes⟩

end

end Rieul.Codegen.Rust
