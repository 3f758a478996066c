import Rieul.Codegen.TypeScript
import Rieul.Codegen.Evolution

/-!
# What the emitted TypeScript code does

One equation for each shape that is taken apart.
-/

namespace Rieul.Codegen.TypeScript
open Fallible Record Bytes Rieul.Cbor
open Rieul.Web (CborValue IsSafeInteger)

theorem Model.nesting {P : Model → Prop} (undefined : P .undefined) (number : ∀ n, P (.number n))
    (float : ∀ bits, P (.float bits)) (string : ∀ t, P (.string t))
    (boolean : ∀ b, P (.boolean b)) (bytes : ∀ b, P (.bytes b))
    (array : ∀ items, (∀ m ∈ items, P m) → P (.array items))
    (object : ∀ value, (∀ name, P (value name)) → P (.object value)) (m : Model) : P m :=
  @Model.rec P (fun items => ∀ m ∈ items, P m) undefined number float string boolean bytes array
    object (fun _ hm => absurd hm List.not_mem_nil)
    (fun _ _ hm hms => List.forall_mem_cons.mpr ⟨hm, hms⟩) m

theorem key_inj (id id' : Id) (h : (id.val : ℤ) = id'.val) : id = id' := by
  apply Fin.ext
  omega

theorem nodup_key (fields : List FieldDeclaration) (h : (fields.map (·.id)).Nodup) :
    (fields.map fun field => (field.id.val : ℤ)).Nodup := by
  have hids := h.map fun id id' hid => key_inj id id' hid
  rw [List.map_map] at hids
  exact hids

section
variable (schema : Schema)
variable (entries : List (ℤ × CborValue)) {path name typePath : String}
  {fields : List FieldDeclaration} {variants : List UnionVariantDeclaration}
attribute [local simp] decoders entryDecoders expectMap expectUnion encodeExpr encodeItems

theorem decoders_eq (items : List CborValue) :
    decoders schema items = items.map (decodeExpr schema) := by
  induction items with
  | nil => rfl
  | cons value items ih =>
    rw [decoders, ih]
    rfl

theorem entryDecoders_eq :
    entryDecoders schema entries = entries.map fun e => (e.1, decodeExpr schema e.2) := by
  induction entries with
  | nil => rfl
  | cons e entries ih =>
    rw [entryDecoders, ih]
    rfl

theorem entryDecoders_lookup (key : ℤ) :
    (entryDecoders schema entries).lookup key = (entries.lookup key).map (decodeExpr schema) := by
  rw [entryDecoders_eq]
  exact lookup_map (decodeExpr schema) entries key

theorem decode_array (items : List CborValue) (item : TypeRef) :
    decodeExpr schema (.array items) (.array item) = (do
      let values ← decodeItems (items.map (decodeExpr schema)) item
      .ok (.array values)) := by
  rw [← decoders_eq]
  rfl

theorem decode_struct (hnamed : schema.named path = some (.struct name typePath fields))
    (entries : List (ℤ × CborValue)) :
    decodeExpr schema (.map entries) (.named path) = (do
      let value ← decodeFields schema (entryDecoders schema entries) fields
      .ok (.object value)) := by
  simp only [decodeExpr, decodeParts, hnamed, expectMap, ok_bind]

theorem decode_enum {variants : List EnumVariantDeclaration}
    (hnamed : schema.named path = some (.enum name typePath variants)) (value : CborValue) :
    decodeExpr schema value (.named path) = (do
      let id ← integer value
      ensure (id ∈ variants.map fun variant => (variant.id.val : ℤ))
        (.thrown s!"unknown {name} variant {id}")
      .ok (.number id)) := by
  simp only [decodeExpr, decodeParts, hnamed]

theorem safe_id (id : Id) : IsSafeInteger (id.val : ℤ) ∧ 0 ≤ (id.val : ℤ) := by
  have hlt : id.val < 2 ^ 53 := id.isLt
  unfold IsSafeInteger Web.maxSafeInteger
  omega

theorem integer_safe (n : ℤ) (h : IsSafeInteger n) : integer (.number n) = .ok n := by
  rw [integer, ensure_of _ _ h, ok_bind]

theorem decode_union (hnamed : schema.named path = some (.union name typePath variants)) (id : ℤ)
    (hsafe : IsSafeInteger id) (entries : List (ℤ × CborValue)) :
    decodeExpr schema (.array [.number id, .map entries]) (.named path) = (do
      let variant ← require (.thrown s!"unknown {name} variant {id}")
        (variants.find? fun variant => (variant.id.val : ℤ) = id)
      let value ← decodeFields schema (entryDecoders schema entries) variant.fields
      .ok (.object (tagged (lowerCamel variant.name) value))) := by
  simp only [decodeExpr, decodeParts, hnamed, expectUnion, integer_safe id hsafe, expectMap, ok_bind]

theorem decode_primitive (name : PrimitiveTypeName) (value : CborValue) :
    decodeExpr schema value (.primitive name) = decodePrimitive name value := rfl

theorem decode_void (value : CborValue) : decodeExpr schema value .void = .ok .undefined := rfl

theorem decodeField_some {entries : List (ℤ × CborValue)} {field : FieldDeclaration}
    {value : CborValue} (h : entries.lookup (field.id.val : ℤ) = some value) :
    decodeFieldExpr schema (entryDecoders schema entries) field =
      decodeExpr schema value field.type := by
  rw [decodeFieldExpr, entryDecoders_lookup, h]
  exact ite_self _

theorem decodeField_none {entries : List (ℤ × CborValue)} {field : FieldDeclaration}
    (h : entries.lookup (field.id.val : ℤ) = none) :
    decodeFieldExpr schema (entryDecoders schema entries) field =
      if field.optional then .ok .undefined else default schema field.type := by
  rw [decodeFieldExpr, entryDecoders_lookup, h]
  rfl

theorem encode_array (items : List Model) (item : TypeRef) :
    encodeExpr schema (.array items) (.array item) = (do
      let values ← encodeItems schema items item
      .ok (.array values)) := by
  rw [encodeExpr]

theorem encode_primitive (name : PrimitiveTypeName) (value : Model) :
    encodeExpr schema value (.primitive name) = encodePrimitive name value := by
  cases value <;> rfl

def encodeProperty (owner : String) (value : String → Model) (field : FieldDeclaration) :
    Except Failure (Option CborValue) :=
  encodeField owner field (value field.name) (encodeExpr schema (value field.name) field.type)

theorem encode_struct
    (hnamed : schema.named path = some (.struct name typePath fields)) (value : String → Model) :
    encodeExpr schema (.object value) (.named path) = (do
      let entries ← setFields (encodeProperty schema name value) fields
      .ok (.map entries)) := by
  rw [encodeExpr, hnamed]
  rfl

theorem encode_enum {variants : List EnumVariantDeclaration}
    (hnamed : schema.named path = some (.enum name typePath variants)) (n : ℤ) :
    encodeExpr schema (.number n) (.named path) = CborValue.number <$> integer (.number n) := by
  rw [encodeExpr, hnamed]

theorem encode_union
    (hnamed : schema.named path = some (.union name typePath variants)) (value : String → Model)
    (tag : String) (htag : value "type" = .string tag) :
    encodeExpr schema (.object value) (.named path) = (do
      let variant ← require .untyped (variants.find? fun v => lowerCamel v.name = tag)
      let entries ← setFields (encodeProperty schema s!"{name}.{variant.name}" value) variant.fields
      .ok (.array [.number variant.id.val, .map entries])) := by
  rw [encodeExpr, hnamed]
  dsimp only
  rw [htag]
  rfl

end

theorem places_setEntry : Places setEntry := by
  intro k v es k' hfresh
  induction es with
  | nil => exact lookup_cons k k' v []
  | cons e es ih =>
    obtain ⟨key, value⟩ := e
    rw [lookup_cons] at hfresh
    by_cases hkey : k = key
    · rw [if_pos hkey] at hfresh
      cases hfresh
    · rw [if_neg hkey] at hfresh
      rw [setEntry, if_neg (fun h => hkey h.symm), lookup_cons, lookup_cons, ih hfresh]
      by_cases hk : k' = key
      · rw [if_pos hk, if_neg (hk ▸ fun h => hkey h.symm), if_pos hk]
      · rw [if_neg hk, if_neg hk]

theorem setFields_lookup (encode : FieldDeclaration → Except Failure (Option CborValue))
    (fields : List FieldDeclaration) (entries : List (ℤ × CborValue))
    (hids : (fields.map (·.id)).Nodup) (h : setFields encode fields = .ok entries) :
    (∀ field ∈ fields, encode field = .ok (entries.lookup (field.id.val : ℤ))) ∧
      ∀ key, (∀ field ∈ fields, (field.id.val : ℤ) ≠ key) → entries.lookup key = none := by
  obtain ⟨hfields, helse⟩ := collect_lookup places_setEntry fields [] entries
    (nodup_key fields hids) (fun _ _ => rfl) h
  refine ⟨hfields, fun key hkey => helse key fun hmem => ?_⟩
  obtain ⟨field, hfield, heq⟩ := List.mem_map.mp hmem
  exact hkey field hfield heq

theorem setEntry_fresh (k : ℤ) (c : CborValue) (es : List (ℤ × CborValue))
    (h : es.lookup k = none) : setEntry k c es = es ++ [(k, c)] := by
  induction es with
  | nil => rfl
  | cons e es ih =>
    obtain ⟨key, value⟩ := e
    rw [lookup_cons] at h
    by_cases hkey : k = key
    · rw [if_pos hkey] at h
      cases h
    · rw [if_neg hkey] at h
      rw [setEntry, if_neg (fun heq => hkey heq.symm), ih h]
      rfl

theorem setFields_keys (encode : FieldDeclaration → Except Failure (Option CborValue))
    (fields : List FieldDeclaration) (entries : List (ℤ × CborValue))
    (hids : (fields.map (·.id)).Nodup) (h : setFields encode fields = .ok entries) :
    (entries.map Prod.fst).Nodup ∧ ∀ e ∈ entries, 0 ≤ e.1 ∧ e.1 < 2 ^ 64 := by
  apply collect_keeps places_setEntry
    (fun es => (es.map Prod.fst).Nodup ∧ ∀ e ∈ es, 0 ≤ e.1 ∧ e.1 < 2 ^ 64) _ fields [] entries
    (nodup_key fields hids) (fun _ _ => rfl) ⟨List.nodup_nil, fun _ he => absurd he List.not_mem_nil⟩ h
  intro field c es hfresh hes
  have hlt : field.id.val < 2 ^ 53 := field.id.isLt
  rw [setEntry_fresh _ c es hfresh]
  constructor
  · rw [List.map_append, List.map_singleton, List.nodup_append_comm]
    exact List.nodup_cons.mpr ⟨(lookup_eq_none_iff es _).mp hfresh, hes.1⟩
  · intro e he
    rcases List.mem_append.mp he with he | he
    · exact hes.2 e he
    · rw [List.mem_singleton.mp he]
      omega

end Rieul.Codegen.TypeScript
