import Rieul.Codegen.RustSpec
import Mathlib.Data.List.Find

/-!
# Rust code of two schemas

A value that was encoded with one schema and decoded with another is `adapt`ed:
it keeps the fields that both have, loses those that only the source has, and
those that only the target has are absent or have their default.
-/

namespace Rieul.Codegen.Rust
open Fallible Record Bytes Rieul.Cbor

mutual
def adapt (source target : Schema) : Model → TypeRef → Except Fault Model
  | .vec items, .array item => do
    let values ← adaptItems source target items item
    .ok (.vec values)
  | .struct self, .named path =>
    match source.named path, target.named path with
    | some (.struct _ _ fields), some (.struct _ _ wanted) => do
      let kept ← fill (fun field => fieldName field.name) .unit (fun field =>
        if field ∈ fields then
          if field.optional then adaptSome source target (self (fieldName field.name)) field.type
          else adapt source target (self (fieldName field.name)) field.type
        else if field.optional then .ok .none else default target field.type) wanted
      .ok (.struct kept)
    | _, _ => .error .untyped
  | .enum variant, .named path =>
    match target.named path with
    | some (.enum _ _ wanted) => do
      let after ← require .untyped (wanted.find? fun v => v.name = variant)
      .ok (.enum after.name)
    | _ => .error .untyped
  | .union variant self, .named path =>
    match source.named path, target.named path with
    | some (.union _ _ variants), some (.union _ _ wanted) => do
      let before ← require .untyped (variants.find? fun v => v.name = variant)
      let after ← require .untyped (wanted.find? fun v => v.name = variant)
      let kept ← fill (fun field => fieldName field.name) .unit (fun field =>
        if field ∈ before.fields then
          if field.optional then adaptSome source target (self (fieldName field.name)) field.type
          else adapt source target (self (fieldName field.name)) field.type
        else if field.optional then .ok .none else default target field.type) after.fields
      .ok (.union after.name kept)
    | _, _ => .error .untyped
  | value, .primitive _ => .ok value
  | value, .void => .ok value
  | _, _ => .error .untyped

def adaptSome (source target : Schema) : Model → TypeRef → Except Fault Model
  | .some value, type => Model.some <$> adapt source target value type
  | value, _ => .ok value

def adaptItems (source target : Schema) : List Model → TypeRef → Except Fault (List Model)
  | [], _ => .ok []
  | value :: items, item => do
    let first ← adapt source target value item
    let rest ← adaptItems source target items item
    .ok (first :: rest)
end

/-- A field of the target, out of the source's `fields` of `self`. -/
def adaptField (source target : Schema) (fields : List FieldDeclaration) (self : String → Model)
    (field : FieldDeclaration) : Except Fault Model :=
  if field ∈ fields then
    if field.optional then adaptSome source target (self (fieldName field.name)) field.type
    else adapt source target (self (fieldName field.name)) field.type
  else if field.optional then .ok .none else default target field.type

def adaptFields (source target : Schema) (fields wanted : List FieldDeclaration)
    (self : String → Model) : Except Fault (String → Model) :=
  fill (fun field => fieldName field.name) .unit (adaptField source target fields self) wanted

section
variable {source target : Schema} {path name typePath name' typePath' : String}
attribute [local simp] adapt adaptSome adaptItems

theorem adapt_vec (items : List Model) (item : TypeRef) :
    adapt source target (.vec items) (.array item) = (do
      let values ← adaptItems source target items item
      .ok (.vec values)) := by
  rw [adapt]

theorem adapt_primitive (value : Model) (name : PrimitiveTypeName) :
    adapt source target value (.primitive name) = .ok value := by
  cases value <;> rfl

theorem adapt_void (value : Model) : adapt source target value .void = .ok value := by
  cases value <;> rfl

theorem adapt_struct {fields wanted : List FieldDeclaration}
    (hsource : source.named path = some (.struct name typePath fields))
    (htarget : target.named path = some (.struct name' typePath' wanted)) (self : String → Model) :
    adapt source target (.struct self) (.named path) = (do
      let kept ← adaptFields source target fields wanted self
      .ok (.struct kept)) := by
  rw [adapt, hsource, htarget]
  rfl

theorem adapt_enum {wanted : List EnumVariantDeclaration}
    (htarget : target.named path = some (.enum name typePath wanted)) (variant : String) :
    adapt source target (.enum variant) (.named path) = (do
      let after ← require .untyped (wanted.find? fun v => v.name = variant)
      .ok (.enum after.name)) := by
  rw [adapt, htarget]

theorem adapt_union {variants wanted : List UnionVariantDeclaration}
    (hsource : source.named path = some (.union name typePath variants))
    (htarget : target.named path = some (.union name' typePath' wanted)) (variant : String)
    (self : String → Model) :
    adapt source target (.union variant self) (.named path) = (do
      let before ← require .untyped (variants.find? fun v => v.name = variant)
      let after ← require .untyped (wanted.find? fun v => v.name = variant)
      let kept ← adaptFields source target before.fields after.fields self
      .ok (.union after.name kept)) := by
  rw [adapt, hsource, htarget]
  rfl

end

section
variable {source target : Schema}

def Adapts (source target : Schema) (m : Model) : Prop :=
  ∀ type v, encodeExpr source m type = .ok v →
    Both (· = ·) (decodeExpr target v type) (adapt source target m type)

def AdaptsInside (source target : Schema) (m : Model) : Prop :=
  Adapts source target m ∧ ∀ inner, m = .some inner → Adapts source target inner

theorem decode_encodePrimitive (name : PrimitiveTypeName) (m : Model) (v : Value)
    (h : encodePrimitive name m = .ok v) : decodePrimitive name v = .ok m := by
  cases name with
  | u53 =>
    cases m with
    | u64 n =>
      obtain ⟨_, hv⟩ := (bind_unit_eq_ok _ _ _).mp ((liftError_eq_ok _ _ _).mp h)
      cases hv
      rfl
    | _ => cases h
  | i53 =>
    cases m with
    | i64 n =>
      obtain ⟨_, hv⟩ := (bind_unit_eq_ok _ _ _).mp ((liftError_eq_ok _ _ _).mp h)
      cases hv
      rfl
    | _ => cases h
  | f64 =>
    cases m with
    | f64 bits =>
      obtain ⟨_, hv⟩ := (bind_unit_eq_ok _ _ _).mp ((liftError_eq_ok _ _ _).mp h)
      cases hv
      rfl
    | _ => cases h
  | string =>
    cases m with
    | string t =>
      cases h
      rfl
    | _ => cases h
  | bool =>
    cases m with
    | bool b =>
      cases h
      rfl
    | _ => cases h
  | bytes =>
    cases m with
    | bytes b =>
      cases h
      rfl
    | _ => cases h

theorem adapts_field (self : String → Model) (fields : List FieldDeclaration)
    (ih : ∀ name, AdaptsInside source target (self name)) (entries : Entries)
    (hids : (fields.map (·.id)).Nodup)
    (h : insertFields (encodeField source self) fields = .ok entries) (field : FieldDeclaration)
    (hshared : ∀ other ∈ fields, other.id = field.id → other = field) :
    Both (· = ·) (decodeFieldExpr target (entryDecoders target entries) field)
      (adaptField source target fields self field) := by
  obtain ⟨hlookup, habsent⟩ := insertFields_lookup _ fields entries hids h
  unfold adaptField
  by_cases hmem : field ∈ fields
  · have hfield := hlookup field hmem
    rw [if_pos hmem]
    unfold encodeField at hfield
    by_cases hopt : field.optional = true
    · rw [if_pos hopt] at hfield
      rw [if_pos hopt]
      cases hself : self (fieldName field.name) with
      | some inner =>
        rw [hself] at hfield
        obtain ⟨v, hv, hsome⟩ := (map_eq_ok _ _ _).mp hfield
        rw [decodeField_some target hsome.symm, if_pos hopt]
        exact ((ih _).2 inner hself _ v hv).map fun a b hab => congrArg Model.some hab
      | none =>
        rw [hself] at hfield
        rw [decodeField_none target (Except.ok.inj hfield).symm, if_pos hopt]
        exact both_ok _ _ rfl
      | _ =>
        rw [hself] at hfield
        cases hfield
    · rw [if_neg hopt] at hfield
      rw [if_neg hopt]
      obtain ⟨v, hv, hsome⟩ := (map_eq_ok _ _ _).mp hfield
      rw [decodeField_some target hsome.symm, if_neg hopt]
      exact (ih _).1 _ v hv
  · have hnone := habsent (u64Id field.id) fun other hother heq =>
      hmem (hshared other hother (u64Id_inj _ _ heq) ▸ hother)
    rw [if_neg hmem, decodeField_none target hnone]
    exact Both.refl _

theorem adapts_items (items : List Model) (item : TypeRef) (vs : List Value)
    (ih : ∀ m ∈ items, Adapts source target m) (h : encodeArray source items item = .ok vs) :
    Both (· = ·) (decodeArray (vs.map (decodeExpr target)) item)
      (adaptItems source target items item) := by
  induction items generalizing vs with
  | nil =>
    cases h
    exact both_ok _ _ rfl
  | cons m items ihs =>
    rw [List.forall_mem_cons] at ih
    obtain ⟨v, hv, h⟩ := (bind_eq_ok _ _ _).mp h
    obtain ⟨rest, hrest, h⟩ := (bind_eq_ok _ _ _).mp h
    cases h
    rw [List.map_cons, decodeArray, adaptItems]
    apply (ih.1 item v hv).bind
    rintro first _ _ _ rfl
    apply (ihs rest ih.2 hrest).bind
    rintro values _ _ _ rfl
    exact both_ok _ _ rfl

theorem adapts_fields (self : String → Model) (fields wanted : List FieldDeclaration)
    (ih : ∀ name, AdaptsInside source target (self name)) (entries : Entries)
    (hids : (fields.map (·.id)).Nodup) (hshared : Shared fields wanted)
    (h : insertFields (encodeField source self) fields = .ok entries) :
    Both (· = ·) (decodeFields target (entryDecoders target entries) wanted)
      (adaptFields source target fields wanted self) :=
  both_fill_eq wanted _ fun field hfield => adapts_field self fields ih entries hids h field
    fun other hother hid => hshared other hother field hfield hid

theorem encode_void (m : Model) (v : Value) (h : encodeExpr source m .void = .ok v) : m = .unit := by
  cases m with
  | unit => rfl
  | _ => cases h

theorem adapts_of (m : Model)
    (harray : ∀ item v, encodeExpr source m (.array item) = .ok v →
      Both (· = ·) (decodeExpr target v (.array item)) (adapt source target m (.array item)))
    (hnamed : ∀ path v, encodeExpr source m (.named path) = .ok v →
      Both (· = ·) (decodeExpr target v (.named path)) (adapt source target m (.named path))) :
    Adapts source target m := by
  intro type v h
  cases type with
  | primitive name =>
    rw [encode_primitive] at h
    rw [decode_primitive, decode_encodePrimitive name m v h, adapt_primitive]
    exact both_ok _ _ rfl
  | named path => exact hnamed path v h
  | array item => exact harray item v h
  | void =>
    rw [decode_void, adapt_void, encode_void m v h]
    exact both_ok _ _ rfl

theorem adapts_struct (hsource : source.Accepted) (h : Compatible source target)
    (self : String → Model) (ih : ∀ name, AdaptsInside source target (self name)) (path : String)
    (v : Value) (henc : encodeExpr source (.struct self) (.named path) = .ok v) :
    Both (· = ·) (decodeExpr target v (.named path))
      (adapt source target (.struct self) (.named path)) := by
  cases hnamed : source.named path with
  | none =>
    rw [encodeExpr, hnamed] at henc
    cases henc
  | some declaration =>
    cases declaration with
    | struct name typePath fields =>
      rw [encode_struct source hnamed] at henc
      obtain ⟨entries, hentries, henc⟩ := (bind_eq_ok _ _ _).mp henc
      cases henc
      cases htarget : target.named path with
      | none =>
        rw [adapt, hnamed, htarget, decodeExpr, decodeParts, htarget]
        exact both_error _ _
      | some declaration' =>
        have hagrees := h path _ _ hnamed htarget
        cases declaration' with
        | struct name' typePath' wanted =>
          rw [decode_struct target htarget, adapt_struct hnamed htarget]
          apply (adapts_fields self fields wanted ih entries (hsource.struct_fields hnamed).1.1
            hagrees hentries).bind
          rintro kept _ _ _ rfl
          exact both_ok _ _ rfl
        | _ => exact hagrees.elim
    | _ =>
      rw [encodeExpr, hnamed] at henc
      cases henc

theorem find_variant {α β : Type} (id : α → Id) (name : α → String) (id' : β → Id)
    (name' : β → String) (variant : α) (wanted : List β)
    (h : ∀ other ∈ wanted, id variant = id' other ↔ name variant = name' other) :
    wanted.find? (fun other => u64Id (id' other) = u64Id (id variant)) =
      wanted.find? (fun other => name' other = name variant) := by
  apply List.find?_congr
  intro other hother
  apply decide_eq_decide.mpr
  constructor
  · exact fun heq => ((h other hother).mp (u64Id_inj _ _ heq).symm).symm
  · exact fun heq => congrArg u64Id ((h other hother).mpr heq.symm).symm

theorem adapts_enum (h : Compatible source target) (variant path : String) (v : Value)
    (henc : encodeExpr source (.enum variant) (.named path) = .ok v) :
    Both (· = ·) (decodeExpr target v (.named path))
      (adapt source target (.enum variant) (.named path)) := by
  cases hnamed : source.named path with
  | none =>
    rw [encodeExpr, hnamed] at henc
    cases henc
  | some declaration =>
    cases declaration with
    | enum name typePath variants =>
      rw [encode_enum source hnamed] at henc
      obtain ⟨found, hfound, henc⟩ := (bind_eq_ok _ _ _).mp henc
      cases henc
      rw [require_eq_ok] at hfound
      have hname : found.name = variant := by simpa using List.find?_some hfound
      have hmem := List.mem_of_find?_eq_some hfound
      cases htarget : target.named path with
      | none =>
        rw [adapt, htarget, decodeExpr, decodeParts, htarget]
        exact both_error _ _
      | some declaration' =>
        have hagrees := h path _ _ hnamed htarget
        cases declaration' with
        | enum name' typePath' wanted =>
          rw [decode_enum target htarget, adapt_enum htarget]
          show Both _ ((require _ (wanted.find? fun other => u64Id other.id = u64Id found.id)) >>= _) _
          rw [find_variant (·.id) (·.name) (·.id) (·.name) found wanted
            (fun other hother => hagrees found hmem other hother), hname]
          apply (both_require _ _ _).bind
          rintro after _ _ _ rfl
          exact both_ok _ _ rfl
        | _ => exact hagrees.elim
    | _ =>
      rw [encodeExpr, hnamed] at henc
      cases henc

theorem adapts_union (hsource : source.Accepted) (h : Compatible source target) (variant : String)
    (self : String → Model) (ih : ∀ name, AdaptsInside source target (self name)) (path : String)
    (v : Value) (henc : encodeExpr source (.union variant self) (.named path) = .ok v) :
    Both (· = ·) (decodeExpr target v (.named path))
      (adapt source target (.union variant self) (.named path)) := by
  cases hnamed : source.named path with
  | none =>
    rw [encodeExpr, hnamed] at henc
    cases henc
  | some declaration =>
    cases declaration with
    | union name typePath variants =>
      rw [encode_union source hnamed] at henc
      obtain ⟨before, hbefore, henc⟩ := (bind_eq_ok _ _ _).mp henc
      obtain ⟨entries, hentries, henc⟩ := (bind_eq_ok _ _ _).mp henc
      cases henc
      rw [require_eq_ok] at hbefore
      have hname : before.name = variant := by simpa using List.find?_some hbefore
      have hmem := List.mem_of_find?_eq_some hbefore
      cases htarget : target.named path with
      | none =>
        rw [adapt, hnamed, htarget, decodeExpr, decodeParts, htarget]
        exact both_error _ _
      | some declaration' =>
        have hagrees := h path _ _ hnamed htarget
        cases declaration' with
        | union name' typePath' wanted =>
          rw [decode_union target htarget (v := .u64 _) rfl, adapt_union hnamed htarget, hbefore,
            require_some, ok_bind, find_variant (·.id) (·.name) (·.id) (·.name) before wanted
              (fun other hother => (hagrees before hmem other hother).1), hname]
          apply (both_require _ _ _).bind
          rintro after _ hafter _ rfl
          rw [require_eq_ok] at hafter
          have hafterName : after.name = variant := by simpa using List.find?_some hafter
          have hafterMem := List.mem_of_find?_eq_some hafter
          obtain ⟨hid, _, hshared⟩ := hagrees before hmem after hafterMem
          apply (adapts_fields self before.fields after.fields ih entries
            (hsource.union_fields hnamed hmem).1.1
            (hshared (hid.mpr (hname.trans hafterName.symm)))
            (insertArms_ok source self before.fields entries hentries).2).bind
          rintro kept _ _ _ rfl
          exact both_ok _ _ rfl
        | _ => exact hagrees.elim
    | _ =>
      rw [encodeExpr, hnamed] at henc
      cases henc

theorem decode_encode (hsource : source.Accepted) (h : Compatible source target) (m : Model) :
    Adapts source target m := by
  have hinside : AdaptsInside source target m := by
    induction m using Model.nesting with
    | some m ih =>
      constructor
      · apply adapts_of
        · intro item v henc
          cases henc
        · intro path v henc
          cases henc
      · intro inner heq
        cases heq
        exact ih.1
    | vec items ih =>
      refine ⟨adapts_of _ ?_ ?_, nofun⟩
      · intro item v henc
        rw [encode_vec] at henc
        obtain ⟨vs, hvs, henc⟩ := (bind_eq_ok _ _ _).mp henc
        cases henc
        rw [decode_array, adapt_vec]
        apply (adapts_items items item vs (fun m hm => (ih m hm).1) hvs).bind
        rintro values _ _ _ rfl
        exact both_ok _ _ rfl
      · intro path v henc
        cases henc
    | struct self ih =>
      refine ⟨adapts_of _ ?_ (adapts_struct hsource h self ih), nofun⟩
      intro item v henc
      cases henc
    | enum variant =>
      refine ⟨adapts_of _ ?_ (adapts_enum h variant), nofun⟩
      intro item v henc
      cases henc
    | union variant self ih =>
      refine ⟨adapts_of _ ?_ (adapts_union hsource h variant self ih), nofun⟩
      intro item v henc
      cases henc
    | _ =>
      refine ⟨adapts_of _ ?_ ?_, nofun⟩
      · intro item v henc
        cases henc
      · intro path v henc
        cases henc
  exact hinside.1

end

end Rieul.Codegen.Rust
