import Rieul.Codegen.RustSpec
import Rieul.Codegen.TypeScriptSpec
import Rieul.Web.Same

/-!
# The values of a schema

The models of a type in either language, the models that correspond, and the CBOR values that the
profile admits for a type.
-/

namespace Rieul.Codegen
open Fallible Record Bytes Rieul.Cbor
open Rieul.Web (CborValue Same asInteger)

inductive Rust.Typed (schema : Schema) : Place → Rust.Model → Prop where
  | void : Typed schema (.type .void) .unit
  | u53 (n : UInt64) : Typed schema (.type (.primitive .u53)) (.u64 n)
  | i53 (n : Int64) : Typed schema (.type (.primitive .i53)) (.i64 n)
  | f64 (bits : UInt64) : Typed schema (.type (.primitive .f64)) (.f64 bits)
  | string (t : String) : Typed schema (.type (.primitive .string)) (.string t)
  | bool (b : Bool) : Typed schema (.type (.primitive .bool)) (.bool b)
  | bytes (b : Str) : Typed schema (.type (.primitive .bytes)) (.bytes b)
  | nil (item : TypeRef) : Typed schema (.type (.array item)) (.vec [])
  | cons (item : TypeRef) (m : Rust.Model) (ms : List Rust.Model)
      (head : Typed schema (.type item) m) (tail : Typed schema (.type (.array item)) (.vec ms)) :
      Typed schema (.type (.array item)) (.vec (m :: ms))
  | enum (path name typePath : String) (variants : List EnumVariantDeclaration)
      (variant : EnumVariantDeclaration)
      (named : schema.named path = some (.enum name typePath variants))
      (mem : variant ∈ variants) : Typed schema (.type (.named path)) (.enum variant.name)
  | struct (path name typePath : String) (fields : List FieldDeclaration)
      (self : String → Rust.Model)
      (named : schema.named path = some (.struct name typePath fields))
      (typed : Typed schema (.fields fields) (.struct self)) :
      Typed schema (.type (.named path)) (.struct self)
  | union (path name typePath : String) (variants : List UnionVariantDeclaration)
      (variant : UnionVariantDeclaration) (self : String → Rust.Model)
      (named : schema.named path = some (.union name typePath variants))
      (mem : variant ∈ variants) (typed : Typed schema (.fields variant.fields) (.struct self)) :
      Typed schema (.type (.named path)) (.union variant.name self)
  | required (field : FieldDeclaration) (m : Rust.Model) (hfield : field.optional = false)
      (typed : Typed schema (.type field.type) m) : Typed schema (.field field) m
  | absent (field : FieldDeclaration) (hfield : field.optional = true) :
      Typed schema (.field field) .none
  | present (field : FieldDeclaration) (m : Rust.Model) (hfield : field.optional = true)
      (typed : Typed schema (.type field.type) m) : Typed schema (.field field) (.some m)
  | fields (fields : List FieldDeclaration) (self : String → Rust.Model)
      (typed : ∀ field ∈ fields, Typed schema (.field field) (self (fieldName field.name)))
      (elsewhere : Elsewhere (fun field => fieldName field.name) fields .unit self) :
      Typed schema (.fields fields) (.struct self)

inductive TypeScript.Typed (schema : Schema) : Place → TypeScript.Model → Prop where
  | void : Typed schema (.type .void) .undefined
  | u53 (n : ℤ) : Typed schema (.type (.primitive .u53)) (.number n)
  | i53 (n : ℤ) : Typed schema (.type (.primitive .i53)) (.number n)
  | f64 (bits : UInt64) : Typed schema (.type (.primitive .f64)) (.float bits)
  | string (t : String) : Typed schema (.type (.primitive .string)) (.string t)
  | bool (b : Bool) : Typed schema (.type (.primitive .bool)) (.boolean b)
  | bytes (b : Str) : Typed schema (.type (.primitive .bytes)) (.bytes b)
  | nil (item : TypeRef) : Typed schema (.type (.array item)) (.array [])
  | cons (item : TypeRef) (m : TypeScript.Model) (ms : List TypeScript.Model)
      (head : Typed schema (.type item) m) (tail : Typed schema (.type (.array item)) (.array ms)) :
      Typed schema (.type (.array item)) (.array (m :: ms))
  | enum (path name typePath : String) (variants : List EnumVariantDeclaration)
      (variant : EnumVariantDeclaration)
      (named : schema.named path = some (.enum name typePath variants))
      (mem : variant ∈ variants) : Typed schema (.type (.named path)) (.number variant.id.val)
  | struct (path name typePath : String) (fields : List FieldDeclaration)
      (value : String → TypeScript.Model)
      (named : schema.named path = some (.struct name typePath fields))
      (typed : Typed schema (.fields fields) (.object value)) :
      Typed schema (.type (.named path)) (.object value)
  | union (path name typePath : String) (variants : List UnionVariantDeclaration)
      (variant : UnionVariantDeclaration) (value : String → TypeScript.Model)
      (named : schema.named path = some (.union name typePath variants))
      (mem : variant ∈ variants) (typed : Typed schema (.fields variant.fields) (.object value)) :
      Typed schema (.type (.named path)) (.object (tagged (lowerCamel variant.name) value))
  | required (field : FieldDeclaration) (m : TypeScript.Model) (hfield : field.optional = false)
      (typed : Typed schema (.type field.type) m) : Typed schema (.field field) m
  | absent (field : FieldDeclaration) (hfield : field.optional = true) :
      Typed schema (.field field) .undefined
  | present (field : FieldDeclaration) (m : TypeScript.Model) (hfield : field.optional = true)
      (typed : Typed schema (.type field.type) m) : Typed schema (.field field) m
  | fields (fields : List FieldDeclaration) (value : String → TypeScript.Model)
      (typed : ∀ field ∈ fields, Typed schema (.field field) (value field.name))
      (elsewhere : Elsewhere (fun field => field.name) fields .undefined value) :
      Typed schema (.fields fields) (.object value)

/-- Models that mean the same: the property of a field is the field, and an option that is absent is
undefined. -/
inductive Corresponds (schema : Schema) : Place → Rust.Model → TypeScript.Model → Prop where
  | void : Corresponds schema (.type .void) .unit .undefined
  | u53 (n : UInt64) : Corresponds schema (.type (.primitive .u53)) (.u64 n) (.number n.toNat)
  | i53 (n : Int64) : Corresponds schema (.type (.primitive .i53)) (.i64 n) (.number n.toInt)
  | f64 (bits : UInt64) : Corresponds schema (.type (.primitive .f64)) (.f64 bits) (.float bits)
  | string (t : String) : Corresponds schema (.type (.primitive .string)) (.string t) (.string t)
  | bool (b : Bool) : Corresponds schema (.type (.primitive .bool)) (.bool b) (.boolean b)
  | bytes (b : Str) : Corresponds schema (.type (.primitive .bytes)) (.bytes b) (.bytes b)
  | nil (item : TypeRef) : Corresponds schema (.type (.array item)) (.vec []) (.array [])
  | cons (item : TypeRef) (m : Rust.Model) (t : TypeScript.Model) (ms : List Rust.Model)
      (ts : List TypeScript.Model) (head : Corresponds schema (.type item) m t)
      (tail : Corresponds schema (.type (.array item)) (.vec ms) (.array ts)) :
      Corresponds schema (.type (.array item)) (.vec (m :: ms)) (.array (t :: ts))
  | enum (path name typePath : String) (variants : List EnumVariantDeclaration)
      (variant : EnumVariantDeclaration)
      (named : schema.named path = some (.enum name typePath variants))
      (mem : variant ∈ variants) :
      Corresponds schema (.type (.named path)) (.enum variant.name) (.number variant.id.val)
  | struct (path name typePath : String) (fields : List FieldDeclaration)
      (self : String → Rust.Model) (value : String → TypeScript.Model)
      (named : schema.named path = some (.struct name typePath fields))
      (corresponds : Corresponds schema (.fields fields) (.struct self) (.object value)) :
      Corresponds schema (.type (.named path)) (.struct self) (.object value)
  | union (path name typePath : String) (variants : List UnionVariantDeclaration)
      (variant : UnionVariantDeclaration) (self : String → Rust.Model)
      (value : String → TypeScript.Model)
      (named : schema.named path = some (.union name typePath variants))
      (mem : variant ∈ variants)
      (corresponds : Corresponds schema (.fields variant.fields) (.struct self) (.object value)) :
      Corresponds schema (.type (.named path)) (.union variant.name self)
        (.object (TypeScript.tagged (lowerCamel variant.name) value))
  | required (field : FieldDeclaration) (m : Rust.Model) (t : TypeScript.Model)
      (hfield : field.optional = false) (corresponds : Corresponds schema (.type field.type) m t) :
      Corresponds schema (.field field) m t
  | absent (field : FieldDeclaration) (hfield : field.optional = true) :
      Corresponds schema (.field field) .none .undefined
  | present (field : FieldDeclaration) (m : Rust.Model) (t : TypeScript.Model)
      (hfield : field.optional = true) (corresponds : Corresponds schema (.type field.type) m t) :
      Corresponds schema (.field field) (.some m) t
  | fields (fields : List FieldDeclaration) (self : String → Rust.Model)
      (value : String → TypeScript.Model)
      (corresponds : ∀ field ∈ fields,
        Corresponds schema (.field field) (self (fieldName field.name)) (value field.name))
      (elsewhere : Elsewhere (fun field => fieldName field.name) fields .unit self)
      (elsewhere' : Elsewhere (fun field => field.name) fields .undefined value) :
      Corresponds schema (.fields fields) (.struct self) (.object value)

/-- The values that the CBOR profile admits for a type; other entries of a map are ignored, and an
entry may be missing. -/
inductive Conforms (schema : Schema) : Place → Value → Prop where
  | void (v : Value) : Conforms schema (.type .void) v
  | u53 (v : Value) (n : ℤ) (integer : asInteger v = some n)
      (range : 0 ≤ n ∧ n ≤ 9007199254740991) : Conforms schema (.type (.primitive .u53)) v
  | i53 (v : Value) (n : ℤ) (integer : asInteger v = some n)
      (range : -9007199254740991 ≤ n ∧ n ≤ 9007199254740991) :
      Conforms schema (.type (.primitive .i53)) v
  | f64 (bits : UInt64) (finite : IsFinite bits) :
      Conforms schema (.type (.primitive .f64)) (.f64 bits)
  | string (t : String) : Conforms schema (.type (.primitive .string)) (.text t)
  | bool (b : Bool) : Conforms schema (.type (.primitive .bool)) (.bool b)
  | bytes (b : Str) : Conforms schema (.type (.primitive .bytes)) (.bytes b)
  | nil (item : TypeRef) : Conforms schema (.type (.array item)) (.array [])
  | cons (item : TypeRef) (v : Value) (vs : List Value) (head : Conforms schema (.type item) v)
      (tail : Conforms schema (.type (.array item)) (.array vs)) :
      Conforms schema (.type (.array item)) (.array (v :: vs))
  | enum (path name typePath : String) (variants : List EnumVariantDeclaration)
      (variant : EnumVariantDeclaration) (v : Value)
      (named : schema.named path = some (.enum name typePath variants))
      (mem : variant ∈ variants) (id : asInteger v = some (variant.id.val : ℤ)) :
      Conforms schema (.type (.named path)) v
  | struct (path name typePath : String) (fields : List FieldDeclaration) (entries : Entries)
      (named : schema.named path = some (.struct name typePath fields))
      (conforms : Conforms schema (.fields fields) (.map entries)) :
      Conforms schema (.type (.named path)) (.map entries)
  | union (path name typePath : String) (variants : List UnionVariantDeclaration)
      (variant : UnionVariantDeclaration) (v : Value) (entries : Entries)
      (named : schema.named path = some (.union name typePath variants))
      (mem : variant ∈ variants) (id : asInteger v = some (variant.id.val : ℤ))
      (conforms : Conforms schema (.fields variant.fields) (.map entries)) :
      Conforms schema (.type (.named path)) (.array [v, .map entries])
  | fields (fields : List FieldDeclaration) (entries : Entries)
      (conforms : ∀ field ∈ fields, ∀ v, entries.lookup (Rust.u64Id field.id) = some v →
        Conforms schema (.type field.type) v) : Conforms schema (.fields fields) (.map entries)

theorem corresponds_typed {schema : Schema} (place : Place) (m : Rust.Model) (t : TypeScript.Model)
    (h : Corresponds schema place m t) :
    Rust.Typed schema place m ∧ TypeScript.Typed schema place t := by
  induction h with
  | void => exact ⟨.void, .void⟩
  | u53 n => exact ⟨.u53 n, .u53 _⟩
  | i53 n => exact ⟨.i53 n, .i53 _⟩
  | f64 bits => exact ⟨.f64 bits, .f64 bits⟩
  | string t => exact ⟨.string t, .string t⟩
  | bool b => exact ⟨.bool b, .bool b⟩
  | bytes b => exact ⟨.bytes b, .bytes b⟩
  | nil item => exact ⟨.nil item, .nil item⟩
  | cons item m t ms ts _ _ ihHead ihTail =>
    exact ⟨.cons item m ms ihHead.1 ihTail.1, .cons item t ts ihHead.2 ihTail.2⟩
  | enum path name typePath variants variant named mem =>
    exact ⟨.enum path name typePath variants variant named mem,
      .enum path name typePath variants variant named mem⟩
  | struct path name typePath fields self value named _ ih =>
    exact ⟨.struct path name typePath fields self named ih.1,
      .struct path name typePath fields value named ih.2⟩
  | union path name typePath variants variant self value named mem _ ih =>
    exact ⟨.union path name typePath variants variant self named mem ih.1,
      .union path name typePath variants variant value named mem ih.2⟩
  | required field m t hfield _ ih =>
    exact ⟨.required field m hfield ih.1, .required field t hfield ih.2⟩
  | absent field hfield => exact ⟨.absent field hfield, .absent field hfield⟩
  | present field m t hfield _ ih =>
    exact ⟨.present field m hfield ih.1, .present field t hfield ih.2⟩
  | fields fields self value _ elsewhere elsewhere' ih =>
    exact ⟨.fields fields self (fun field hfield => (ih field hfield).1) elsewhere,
      .fields fields value (fun field hfield => (ih field hfield).2) elsewhere'⟩

section
variable {schema : Schema}

theorem default_corresponds (h : schema.Accepted) (stack : ℕ) (type : TypeRef) :
    Both (Corresponds schema (.type type)) (Rust.defaultExpr schema stack type)
      (TypeScript.defaultExpr schema stack type) := by
  induction stack generalizing type with
  | zero => exact both_error _ _
  | succ stack ih =>
    have hfields : ∀ fields : List FieldDeclaration, Named fields →
        Both (fun self value => Corresponds schema (.fields fields) (.struct self) (.object value))
          (fill (fun field => fieldName field.name) .unit (fun field =>
            if field.optional then .ok .none else Rust.defaultExpr schema stack field.type) fields)
          (fill (fun field => field.name) .undefined (fun field =>
            if field.optional then .ok .undefined
            else TypeScript.defaultExpr schema stack field.type) fields) := by
      intro fields hnames
      have hone : ∀ field ∈ fields, Both (Corresponds schema (.field field))
          (if field.optional then .ok .none else Rust.defaultExpr schema stack field.type)
          (if field.optional then .ok .undefined
            else TypeScript.defaultExpr schema stack field.type) := by
        intro field _
        by_cases hopt : field.optional = true
        · rw [if_pos hopt, if_pos hopt]
          exact both_ok _ _ (.absent field hopt)
        · rw [if_neg hopt, if_neg hopt]
          exact (ih field.type).imp fun m t hmt =>
            .required field m t (Bool.not_eq_true _ ▸ hopt) hmt
      exact (both_fill fields _ _ hnames.1 hnames.2 hone).imp fun self value hrecord =>
        .fields fields self value hrecord.1 hrecord.2.1 hrecord.2.2
    cases type with
    | void => exact both_ok _ _ .void
    | array item => exact both_ok _ _ (.nil item)
    | primitive name =>
      cases name with
      | u53 => exact both_ok _ _ (.u53 0)
      | i53 => exact both_ok _ _ (.i53 0)
      | f64 => exact both_ok _ _ (.f64 0)
      | string => exact both_ok _ _ (.string "")
      | bool => exact both_ok _ _ (.bool false)
      | bytes => exact both_ok _ _ (.bytes [])
    | named path =>
      unfold Rust.defaultExpr TypeScript.defaultExpr
      cases hnamed : schema.named path with
      | none => exact both_error _ _
      | some declaration =>
        cases declaration with
        | struct name typePath fields =>
          apply (hfields fields (h.struct_fields hnamed).2).bind
          intro self value _ _ hcorresponds
          exact both_ok _ _ (.struct path name typePath fields self value hnamed hcorresponds)
        | enum name typePath variants =>
          cases variants with
          | nil => exact both_error _ _
          | cons variant variants =>
            exact both_ok _ _
              (.enum path name typePath _ variant hnamed List.mem_cons_self)
        | union name typePath variants =>
          cases variants with
          | nil => exact both_error _ _
          | cons variant variants =>
            apply (hfields variant.fields
              (h.union_fields hnamed List.mem_cons_self).2.1).bind
            intro self value _ _ hcorresponds
            exact both_ok _ _ (.union path name typePath _ variant self value hnamed
              List.mem_cons_self hcorresponds)

theorem rust_default_isOk (h : schema.Accepted) (rank : String → ℕ)
    (hrank : ∀ path declaration, schema.named path = some declaration →
      ∀ fields ∈ declaration.fieldLists, ∀ field ∈ fields, ∀ inner,
        field.type = .named inner → rank inner < rank path)
    (stack : ℕ) (type : TypeRef) (hknown : type.Known schema)
    (hheight : schema.height rank type < stack) :
    ∃ m, Rust.defaultExpr schema stack type = .ok m := by
  induction stack generalizing type with
  | zero => exact absurd hheight (Nat.not_lt_zero _)
  | succ stack ih =>
    have hfields : ∀ path declaration, schema.named path = some declaration →
        schema.below rank path < stack → ∀ fields ∈ declaration.fieldLists,
        (∀ field ∈ fields, field.type.Known schema) → ∃ self,
          fill (fun field => fieldName field.name) .unit (fun field : FieldDeclaration =>
            if field.optional then .ok .none else Rust.defaultExpr schema stack field.type)
            fields = .ok self := by
      intro path declaration hnamed hbelow fields hmem htypes
      apply (fill_isOk _ _ _ fields).mpr
      intro field hfield
      split
      · exact ⟨_, rfl⟩
      · apply ih field.type (htypes field hfield)
        cases htype : field.type with
        | named inner =>
          have hlt := hrank path declaration hnamed fields hmem field hfield inner htype
          have hinner := htypes field hfield
          rw [htype] at hinner
          obtain ⟨declaration', hdeclared⟩ := hinner
          have hdeeper := schema.below_lt rank hdeclared hlt
          show schema.below rank inner + 1 < stack
          omega
        | _ =>
          show 0 < stack
          omega
    cases type with
    | void | array item | primitive name => exact ⟨_, rfl⟩
    | named path =>
      have hbelow : schema.below rank path < stack := Nat.lt_of_succ_lt_succ hheight
      obtain ⟨declaration, hnamed⟩ := hknown
      unfold Rust.defaultExpr
      rw [hnamed]
      cases declaration with
      | struct name typePath fields =>
        obtain ⟨self, hself⟩ := hfields path _ hnamed hbelow fields List.mem_cons_self
          (h.struct_fields hnamed).1.2
        dsimp only
        rw [hself]
        exact ⟨_, rfl⟩
      | enum name typePath variants =>
        cases variants with
        | nil => exact absurd rfl (h.distinct _ (Schema.named_mem hnamed)).1
        | cons variant variants => exact ⟨_, rfl⟩
      | union name typePath variants =>
        cases variants with
        | nil => exact absurd rfl (h.distinct _ (Schema.named_mem hnamed)).1
        | cons variant variants =>
          obtain ⟨self, hself⟩ := hfields path _ hnamed hbelow variant.fields List.mem_cons_self
            (h.union_fields hnamed List.mem_cons_self).1.2
          dsimp only
          rw [hself]
          exact ⟨_, rfl⟩

theorem default_isOk (h : schema.Accepted) (type : TypeRef) (hknown : type.Known schema) :
    ∃ m t, Rust.default schema type = .ok m ∧ TypeScript.default schema type = .ok t ∧
      Corresponds schema (.type type) m t := by
  obtain ⟨rank, hrank⟩ := h.finite
  have hheight : schema.height rank type < schema.declarations.length + 1 := by
    cases type with
    | named path =>
      obtain ⟨declaration, hnamed⟩ := hknown
      exact Nat.succ_lt_succ (schema.below_lt_length rank hnamed)
    | _ => exact Nat.succ_pos _
  obtain ⟨m, hm⟩ := rust_default_isOk h rank hrank _ type hknown hheight
  obtain ⟨t, ht, hcorresponds⟩ := (default_corresponds h _ type).left m hm
  exact ⟨m, t, hm, ht, hcorresponds⟩

end

end Rieul.Codegen
