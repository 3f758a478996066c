import Rieul.Codegen.TypeScriptSpec
import Mathlib.Data.List.Find

/-!
# TypeScript code of two schemas

As in Rust, a value that was encoded with one schema and decoded with another
keeps the properties that both have.
-/

namespace Rieul.Codegen.TypeScript
open Fallible Record Bytes Rieul.Cbor
open Rieul.Web (CborValue IsSafeInteger)

def adaptDefined (field : FieldDeclaration) (value : Model) (adapted : Except Failure Model) :
    Except Failure Model :=
  if field.optional then
    match value with
    | .undefined => .ok .undefined
    | _ => adapted
  else adapted

mutual
def adapt (source target : Schema) : Model → TypeRef → Except Failure Model
  | _, .void => .ok .undefined
  | .array items, .array item => do
    let values ← adaptItems source target items item
    .ok (.array values)
  | .object value, .named path =>
    match source.named path, target.named path with
    | some (.struct _ _ fields), some (.struct _ _ wanted) => do
      let kept ← fill (fun field => field.name) .undefined (fun field =>
        if field ∈ fields then adaptDefined field (value field.name)
          (adapt source target (value field.name) field.type)
        else if field.optional then .ok .undefined else default target field.type) wanted
      .ok (.object kept)
    | some (.union _ _ variants), some (.union _ _ wanted) =>
      match value "type" with
      | .string tag => do
        let before ← require .untyped (variants.find? fun v => lowerCamel v.name = tag)
        let after ← require .untyped (wanted.find? fun v => lowerCamel v.name = tag)
        let kept ← fill (fun field => field.name) .undefined (fun field =>
          if field ∈ before.fields then adaptDefined field (value field.name)
            (adapt source target (value field.name) field.type)
          else if field.optional then .ok .undefined else default target field.type) after.fields
        .ok (.object (tagged (lowerCamel after.name) kept))
      | _ => .error .untyped
    | _, _ => .error .untyped
  | .number n, .named path =>
    match target.named path with
    | some (.enum _ _ wanted) => do
      ensure (n ∈ wanted.map fun variant => (variant.id.val : ℤ)) .untyped
      .ok (.number n)
    | _ => .error .untyped
  | value, .primitive _ => .ok value
  | _, _ => .error .untyped

def adaptItems (source target : Schema) : List Model → TypeRef → Except Failure (List Model)
  | [], _ => .ok []
  | value :: items, item => do
    let first ← adapt source target value item
    let rest ← adaptItems source target items item
    .ok (first :: rest)
end

/-- A property of the target, out of the source's `fields` of `value`. -/
def adaptField (source target : Schema) (fields : List FieldDeclaration) (value : String → Model)
    (field : FieldDeclaration) : Except Failure Model :=
  if field ∈ fields then adaptDefined field (value field.name)
    (adapt source target (value field.name) field.type)
  else if field.optional then .ok .undefined else default target field.type

def adaptFields (source target : Schema) (fields wanted : List FieldDeclaration)
    (value : String → Model) : Except Failure (String → Model) :=
  fill (fun field => field.name) .undefined (adaptField source target fields value) wanted

section
variable {source target : Schema} {path name typePath name' typePath' : String}
attribute [local simp] adapt adaptItems

theorem adapt_array (items : List Model) (item : TypeRef) :
    adapt source target (.array items) (.array item) = (do
      let values ← adaptItems source target items item
      .ok (.array values)) := by
  rw [adapt]

theorem adapt_primitive (value : Model) (name : PrimitiveTypeName) :
    adapt source target value (.primitive name) = .ok value := by
  cases value <;> rfl

theorem adapt_void (value : Model) : adapt source target value .void = .ok .undefined := by
  cases value <;> rfl

theorem adapt_struct {fields wanted : List FieldDeclaration}
    (hsource : source.named path = some (.struct name typePath fields))
    (htarget : target.named path = some (.struct name' typePath' wanted)) (value : String → Model) :
    adapt source target (.object value) (.named path) = (do
      let kept ← adaptFields source target fields wanted value
      .ok (.object kept)) := by
  rw [adapt, hsource, htarget]
  rfl

theorem adapt_enum {wanted : List EnumVariantDeclaration}
    (htarget : target.named path = some (.enum name typePath wanted)) (n : ℤ) :
    adapt source target (.number n) (.named path) = (do
      ensure (n ∈ wanted.map fun variant => (variant.id.val : ℤ)) .untyped
      .ok (.number n)) := by
  rw [adapt, htarget]

theorem adapt_union {variants wanted : List UnionVariantDeclaration}
    (hsource : source.named path = some (.union name typePath variants))
    (htarget : target.named path = some (.union name' typePath' wanted)) (value : String → Model)
    (tag : String) (htag : value "type" = .string tag) :
    adapt source target (.object value) (.named path) = (do
      let before ← require .untyped (variants.find? fun v => lowerCamel v.name = tag)
      let after ← require .untyped (wanted.find? fun v => lowerCamel v.name = tag)
      let kept ← adaptFields source target before.fields after.fields value
      .ok (.object (tagged (lowerCamel after.name) kept))) := by
  rw [adapt, hsource, htarget]
  dsimp only
  rw [htag]
  rfl

end

section
variable {source target : Schema}

def Adapts (source target : Schema) (m : Model) : Prop :=
  ∀ type c, encodeExpr source m type = .ok c →
    Both (· = ·) (decodeExpr target c type) (adapt source target m type)

theorem decode_encodePrimitive (name : PrimitiveTypeName) (m : Model) (c : CborValue)
    (h : encodePrimitive name m = .ok c) : decodePrimitive name c = .ok m := by
  cases name with
  | u53 =>
    cases m with
    | number n =>
      obtain ⟨hsafe, hc⟩ := (bind_unit_eq_ok _ _ _).mp h
      cases hc
      rw [decodePrimitive, integer_safe n ((ensure_eq_ok _ _ _).mp hsafe).1]
      rfl
    | _ => cases h
  | i53 =>
    cases m with
    | number n =>
      obtain ⟨hsafe, hc⟩ := (bind_unit_eq_ok _ _ _).mp h
      cases hc
      rw [decodePrimitive, integer_safe n ((ensure_eq_ok _ _ _).mp hsafe)]
      rfl
    | _ => cases h
  | f64 =>
    cases m with
    | float bits =>
      obtain ⟨_, hc⟩ := (bind_unit_eq_ok _ _ _).mp h
      cases hc
      rfl
    | _ => cases h
  | string =>
    cases m with
    | string t =>
      cases h
      rfl
    | _ => cases h
  | bool =>
    cases m with
    | boolean b =>
      cases h
      rfl
    | _ => cases h
  | bytes =>
    cases m with
    | bytes b =>
      cases h
      rfl
    | _ => cases h

theorem encodeField_eq_ok (owner : String) (field : FieldDeclaration) (value : Model)
    (encoded : Except Failure CborValue) (o : Option CborValue)
    (h : encodeField owner field value encoded = .ok o) :
    (field.optional = true ∧ value = .undefined ∧ o = none) ∨
      ((field.optional = true → value ≠ .undefined) ∧ ∃ c, encoded = .ok c ∧ o = some c) := by
  have hsome : some <$> encoded = .ok o → ∃ c, encoded = .ok c ∧ o = some c := by
    intro h
    obtain ⟨c, hc, ho⟩ := (map_eq_ok _ _ _).mp h
    exact ⟨c, hc, ho.symm⟩
  unfold encodeField at h
  by_cases hopt : field.optional = true
  · rw [if_pos hopt] at h
    cases value with
    | undefined =>
      cases h
      exact Or.inl ⟨hopt, rfl, rfl⟩
    | _ => exact Or.inr ⟨fun _ => nofun, hsome h⟩
  · rw [if_neg hopt] at h
    refine Or.inr ⟨fun ht => absurd ht hopt, ?_⟩
    split at h
    · exact hsome h
    · exact hsome ((bind_unit_eq_ok _ _ _).mp h).2

theorem adapts_field (owner : String) (value : String → Model) (fields : List FieldDeclaration)
    (ih : ∀ name, Adapts source target (value name)) (entries : List (ℤ × CborValue))
    (hids : (fields.map (·.id)).Nodup)
    (h : setFields (encodeProperty source owner value) fields = .ok entries)
    (field : FieldDeclaration) (hshared : ∀ other ∈ fields, other.id = field.id → other = field) :
    Both (· = ·) (decodeFieldExpr target (entryDecoders target entries) field)
      (adaptField source target fields value field) := by
  obtain ⟨hlookup, habsent⟩ := setFields_lookup _ fields entries hids h
  unfold adaptField
  by_cases hmem : field ∈ fields
  · rw [if_pos hmem]
    rcases encodeField_eq_ok owner field _ _ _ (hlookup field hmem) with
      ⟨hopt, hundefined, hnone⟩ | ⟨hdefined, c, hc, hsome⟩
    · rw [decodeField_none target hnone, if_pos hopt, hundefined, adaptDefined, if_pos hopt]
      exact both_ok _ _ rfl
    · have hadapted : adaptDefined field (value field.name)
          (adapt source target (value field.name) field.type) =
            adapt source target (value field.name) field.type := by
        unfold adaptDefined
        split
        · rename_i hopt
          split
          · rename_i hundefined
            exact absurd hundefined (hdefined hopt)
          · rfl
        · rfl
      rw [decodeField_some target hsome, hadapted]
      exact ih _ _ c hc
  · have hnone := habsent field.id.val fun other hother heq =>
      hmem (hshared other hother (key_inj _ _ heq) ▸ hother)
    rw [if_neg hmem, decodeField_none target hnone]
    exact Both.refl _

theorem adapts_items (items : List Model) (item : TypeRef) (cs : List CborValue)
    (ih : ∀ m ∈ items, Adapts source target m) (h : encodeItems source items item = .ok cs) :
    Both (· = ·) (decodeItems (cs.map (decodeExpr target)) item)
      (adaptItems source target items item) := by
  induction items generalizing cs with
  | nil =>
    cases h
    exact both_ok _ _ rfl
  | cons m items ihs =>
    rw [List.forall_mem_cons] at ih
    obtain ⟨c, hc, h⟩ := (bind_eq_ok _ _ _).mp h
    obtain ⟨rest, hrest, h⟩ := (bind_eq_ok _ _ _).mp h
    cases h
    rw [List.map_cons, decodeItems, adaptItems]
    apply (ih.1 item c hc).bind
    rintro first _ _ _ rfl
    apply (ihs rest ih.2 hrest).bind
    rintro values _ _ _ rfl
    exact both_ok _ _ rfl

theorem adapts_fields (owner : String) (value : String → Model)
    (fields wanted : List FieldDeclaration) (ih : ∀ name, Adapts source target (value name))
    (entries : List (ℤ × CborValue)) (hids : (fields.map (·.id)).Nodup)
    (hshared : Shared fields wanted)
    (h : setFields (encodeProperty source owner value) fields = .ok entries) :
    Both (· = ·) (decodeFields target (entryDecoders target entries) wanted)
      (adaptFields source target fields wanted value) :=
  both_fill_eq wanted _ fun field hfield => adapts_field owner value fields ih entries hids h field
    fun other hother hid => hshared other hother field hfield hid

theorem adapts_of (m : Model)
    (harray : ∀ item c, encodeExpr source m (.array item) = .ok c →
      Both (· = ·) (decodeExpr target c (.array item)) (adapt source target m (.array item)))
    (hnamed : ∀ path c, encodeExpr source m (.named path) = .ok c →
      Both (· = ·) (decodeExpr target c (.named path)) (adapt source target m (.named path))) :
    Adapts source target m := by
  intro type c h
  cases type with
  | primitive name =>
    rw [encode_primitive] at h
    rw [decode_primitive, decode_encodePrimitive name m c h, adapt_primitive]
    exact both_ok _ _ rfl
  | named path => exact hnamed path c h
  | array item => exact harray item c h
  | void =>
    rw [decode_void, adapt_void]
    exact both_ok _ _ rfl

theorem adapts_number (n : ℤ) (h : Compatible source target) (path : String) (c : CborValue)
    (henc : encodeExpr source (.number n) (.named path) = .ok c) :
    Both (· = ·) (decodeExpr target c (.named path))
      (adapt source target (.number n) (.named path)) := by
  cases hnamed : source.named path with
  | none =>
    rw [encodeExpr, hnamed] at henc
    cases henc
  | some declaration =>
    cases declaration with
    | enum name typePath variants =>
      rw [encode_enum source hnamed] at henc
      obtain ⟨id, hid, henc⟩ := (map_eq_ok _ _ _).mp henc
      obtain ⟨hsafe, heq⟩ := (bind_unit_eq_ok _ _ _).mp hid
      cases heq
      cases henc
      cases htarget : target.named path with
      | none =>
        rw [adapt, htarget, decodeExpr, decodeParts, htarget]
        exact both_error _ _
      | some declaration' =>
        have hagrees := h path _ _ hnamed htarget
        cases declaration' with
        | enum name' typePath' wanted =>
          rw [decode_enum target htarget, adapt_enum htarget, hid, ok_bind]
          apply (both_ensure _ _ _).bind
          intro _ _ _ _ _
          exact both_ok _ _ rfl
        | _ => exact hagrees.elim
    | _ =>
      rw [encodeExpr, hnamed] at henc
      cases henc

theorem find_variant (variant : UnionVariantDeclaration) (wanted : List UnionVariantDeclaration)
    (h : ∀ other ∈ wanted, variant.id = other.id ↔ lowerCamel variant.name = lowerCamel other.name) :
    wanted.find? (fun other => (other.id.val : ℤ) = variant.id.val) =
      wanted.find? (fun other => lowerCamel other.name = lowerCamel variant.name) := by
  apply List.find?_congr
  intro other hother
  apply decide_eq_decide.mpr
  constructor
  · exact fun heq => ((h other hother).mp (key_inj _ _ heq).symm).symm
  · exact fun heq => congrArg (fun id : Id => (id.val : ℤ)) ((h other hother).mpr heq.symm).symm

theorem adapts_object (hsource : source.Accepted) (h : Compatible source target)
    (value : String → Model) (ih : ∀ name, Adapts source target (value name)) (path : String)
    (c : CborValue) (henc : encodeExpr source (.object value) (.named path) = .ok c) :
    Both (· = ·) (decodeExpr target c (.named path))
      (adapt source target (.object value) (.named path)) := by
  cases hnamed : source.named path with
  | none =>
    rw [encodeExpr, hnamed] at henc
    cases henc
  | some declaration =>
    cases declaration with
    | struct name typePath fields =>
      rw [encode_struct source hnamed] at henc
      obtain ⟨entries, hentries, henc⟩ := (bind_eq_ok _ _ _).mp henc
      cases henc
      cases htarget : target.named path with
      | none =>
        rw [adapt, hnamed, htarget, decodeExpr, decodeParts, htarget]
        exact both_error _ _
      | some declaration' =>
        have hagrees := h path _ _ hnamed htarget
        cases declaration' with
        | struct name' typePath' wanted =>
          rw [decode_struct target htarget, adapt_struct hnamed htarget]
          apply (adapts_fields name value fields wanted ih entries
            (hsource.struct_fields hnamed).1.1 hagrees hentries).bind
          rintro kept _ _ _ rfl
          exact both_ok _ _ rfl
        | _ => exact hagrees.elim
    | union name typePath variants =>
      cases htag : value "type" with
      | string tag =>
        rw [encode_union source hnamed value tag htag] at henc
        obtain ⟨before, hbefore, henc⟩ := (bind_eq_ok _ _ _).mp henc
        obtain ⟨entries, hentries, henc⟩ := (bind_eq_ok _ _ _).mp henc
        cases henc
        rw [require_eq_ok] at hbefore
        have hname : lowerCamel before.name = tag := by simpa using List.find?_some hbefore
        have hmem := List.mem_of_find?_eq_some hbefore
        cases htarget : target.named path with
        | none =>
          rw [adapt, hnamed, htarget, decodeExpr, decodeParts, htarget]
          exact both_error _ _
        | some declaration' =>
          have hagrees := h path _ _ hnamed htarget
          cases declaration' with
          | union name' typePath' wanted =>
            rw [decode_union target htarget _ (safe_id before.id).1,
              adapt_union hnamed htarget value tag htag, hbefore, require_some, ok_bind,
              find_variant before wanted (fun other hother => (hagrees before hmem other hother).2.1),
              hname]
            apply (both_require _ _ _).bind
            rintro after _ hafter _ rfl
            rw [require_eq_ok] at hafter
            have hafterName : lowerCamel after.name = tag := by simpa using List.find?_some hafter
            have hafterMem := List.mem_of_find?_eq_some hafter
            obtain ⟨_, hid, hshared⟩ := hagrees before hmem after hafterMem
            apply (adapts_fields _ value before.fields after.fields ih entries
              (hsource.union_fields hnamed hmem).1.1
              (hshared (hid.mpr (hname.trans hafterName.symm))) hentries).bind
            rintro kept _ _ _ rfl
            exact both_ok _ _ rfl
          | _ => exact hagrees.elim
      | _ =>
        rw [encodeExpr, hnamed] at henc
        dsimp only at henc
        rw [htag] at henc
        cases henc
    | enum =>
      rw [encodeExpr, hnamed] at henc
      cases henc

theorem decode_encode (hsource : source.Accepted) (h : Compatible source target) (m : Model) :
    Adapts source target m := by
  induction m using Model.nesting with
  | array items ih =>
    apply adapts_of
    · intro item c henc
      rw [encode_array] at henc
      obtain ⟨cs, hcs, henc⟩ := (bind_eq_ok _ _ _).mp henc
      cases henc
      rw [decode_array, adapt_array]
      apply (adapts_items items item cs ih hcs).bind
      rintro values _ _ _ rfl
      exact both_ok _ _ rfl
    · intro path c henc
      cases henc
  | object value ih =>
    apply adapts_of
    · intro item c henc
      cases henc
    · exact adapts_object hsource h value ih
  | number n =>
    apply adapts_of
    · intro item c henc
      cases henc
    · exact adapts_number n h
  | _ =>
    apply adapts_of
    · intro item c henc
      cases henc
    · intro path c henc
      cases henc

end

end Rieul.Codegen.TypeScript
