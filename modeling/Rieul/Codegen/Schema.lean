import Mathlib.Algebra.GroupWithZero.Nat
import Rieul.Lib.Record
import Mathlib.Data.Int.Notation

/-!
# Schemas (scripts/codegen/rust/main.ts, scripts/codegen/typescript/main.ts)

Both generators read the same declarations and check them alike; procedures are
left out. A field is a property of its own name in TypeScript and a field of the
name in snake case in Rust.
-/

namespace Rieul.Codegen
open Fallible

inductive PrimitiveTypeName where
  | u53
  | i53
  | f64
  | string
  | bool
  | bytes
  deriving DecidableEq

inductive TypeRef where
  | primitive (name : PrimitiveTypeName)
  | named (path : String)
  | array (item : TypeRef)
  | void
  deriving DecidableEq

/-- What `requiredId` accepts: a safe integer that is not negative. -/
abbrev Id := Fin (2 ^ 53)

instance idNonzero : NeZero (2 ^ 53) := ⟨by decide⟩

structure FieldDeclaration where
  id : Id
  name : String
  optional : Bool
  type : TypeRef
  deriving DecidableEq

structure EnumVariantDeclaration where
  id : Id
  name : String
  deriving DecidableEq

structure UnionVariantDeclaration where
  id : Id
  name : String
  fields : List FieldDeclaration

inductive Declaration where
  | struct (name typePath : String) (fields : List FieldDeclaration)
  | enum (name typePath : String) (variants : List EnumVariantDeclaration)
  | union (name typePath : String) (variants : List UnionVariantDeclaration)

def Declaration.name : Declaration → String
  | .struct name _ _ => name
  | .enum name _ _ => name
  | .union name _ _ => name

def Declaration.typePath : Declaration → String
  | .struct _ typePath _ => typePath
  | .enum _ typePath _ => typePath
  | .union _ typePath _ => typePath

structure Schema where
  declarations : List Declaration

/-- `declarationMap` and `getNamed`: of two declarations with one path the last is kept. -/
def Schema.named (schema : Schema) (path : String) : Option Declaration :=
  schema.declarations.reverse.find? fun declaration => declaration.typePath = path

theorem Schema.named_mem {schema : Schema} {path : String} {declaration : Declaration}
    (h : schema.named path = some declaration) : declaration ∈ schema.declarations :=
  List.mem_reverse.mp (List.mem_of_find?_eq_some h)

def Declaration.fieldLists : Declaration → List (List FieldDeclaration)
  | .struct _ _ fields => [fields]
  | .enum _ _ _ => []
  | .union _ _ variants => variants.map (·.fields)

inductive SchemaError where
  | duplicateDeclaration (name : String)
  | duplicateId (id : ℕ) (label : String)
  | unknownType (path : String)
  deriving DecidableEq

def validateTypeRef (paths : List String) : TypeRef → Except SchemaError Unit
  | .array item => validateTypeRef paths item
  | .named path => ensure (path ∈ paths) (.unknownType path)
  | _ => .ok ()

/-- The loop over `items`, with the ids seen so far. -/
def validateIdsFrom (label : String) : List Id → List Id → Except SchemaError Unit
  | _, [] => .ok ()
  | seen, id :: ids => do
    ensure (id ∉ seen) (.duplicateId id label)
    validateIdsFrom label (id :: seen) ids

def validateUniqueIds (label : String) (ids : List Id) : Except SchemaError Unit :=
  validateIdsFrom label [] ids

/-- The first loop of `validateSchema`. -/
def validateNames : List String → List Declaration → Except SchemaError Unit
  | _, [] => .ok ()
  | names, declaration :: declarations => do
    ensure (declaration.name ∉ names) (.duplicateDeclaration declaration.name)
    validateNames (declaration.name :: names) declarations

def validateFieldTypes (paths : List String) : List FieldDeclaration → Except SchemaError Unit
  | [] => .ok ()
  | field :: fields => do
    validateTypeRef paths field.type
    validateFieldTypes paths fields

def validateVariants (paths : List String) (name : String) :
    List UnionVariantDeclaration → Except SchemaError Unit
  | [] => .ok ()
  | variant :: variants => do
    validateUniqueIds s!"{name}.{variant.name} fields" (variant.fields.map (·.id))
    validateFieldTypes paths variant.fields
    validateVariants paths name variants

def validateDeclaration (paths : List String) : Declaration → Except SchemaError Unit
  | .struct name _ fields => do
    validateUniqueIds s!"{name} fields" (fields.map (·.id))
    validateFieldTypes paths fields
  | .enum name _ variants => validateUniqueIds s!"{name} variants" (variants.map (·.id))
  | .union name _ variants => do
    validateUniqueIds s!"{name} variants" (variants.map (·.id))
    validateVariants paths name variants

/-- The second loop of `validateSchema`. -/
def validateDeclarations (paths : List String) : List Declaration → Except SchemaError Unit
  | [] => .ok ()
  | declaration :: declarations => do
    validateDeclaration paths declaration
    validateDeclarations paths declarations

def validateSchema (schema : Schema) : Except SchemaError Unit := do
  validateNames [] schema.declarations
  validateDeclarations (schema.declarations.map (·.typePath)) schema.declarations

def TypeRef.Known (schema : Schema) : TypeRef → Prop
  | .array item => item.Known schema
  | .named path => ∃ declaration, schema.named path = some declaration
  | _ => True

variable (schema : Schema)

theorem Schema.named_isSome (path : String)
    (h : path ∈ schema.declarations.map (·.typePath)) :
    ∃ declaration, schema.named path = some declaration := by
  obtain ⟨declaration, hmem, hpath⟩ := List.mem_map.mp h
  apply Option.isSome_iff_exists.mp
  rw [Schema.named, List.find?_isSome]
  exact ⟨declaration, List.mem_reverse.mpr hmem, decide_eq_true hpath⟩

theorem validateTypeRef_ok (type : TypeRef)
    (h : validateTypeRef (schema.declarations.map (·.typePath)) type = .ok ()) :
    type.Known schema := by
  induction type with
  | primitive | void => exact True.intro
  | array item ih => exact ih h
  | named path => exact schema.named_isSome path ((ensure_eq_ok _ _ _).mp h)

theorem validateIdsFrom_ok (label : String) (seen ids : List Id)
    (h : validateIdsFrom label seen ids = .ok ()) : ids.Nodup ∧ ∀ id ∈ ids, id ∉ seen := by
  induction ids generalizing seen with
  | nil => exact ⟨List.nodup_nil, fun id hid => absurd hid List.not_mem_nil⟩
  | cons id ids ih =>
    obtain ⟨hid, h⟩ := (bind_unit_eq_ok _ _ _).mp h
    obtain ⟨hnodup, hseen⟩ := ih (id :: seen) h
    constructor
    · exact List.nodup_cons.mpr ⟨fun hmem => hseen id hmem List.mem_cons_self, hnodup⟩
    · rw [List.forall_mem_cons]
      exact ⟨(ensure_eq_ok _ _ _).mp hid, fun i hi hmem => hseen i hi (List.mem_cons_of_mem _ hmem)⟩

theorem validateUniqueIds_ok (label : String) (ids : List Id)
    (h : validateUniqueIds label ids = .ok ()) : ids.Nodup :=
  (validateIdsFrom_ok label [] ids h).1

theorem validateFieldTypes_ok (fields : List FieldDeclaration)
    (h : validateFieldTypes (schema.declarations.map (·.typePath)) fields = .ok ()) :
    ∀ field ∈ fields, field.type.Known schema := by
  induction fields with
  | nil => exact fun field hmem => absurd hmem List.not_mem_nil
  | cons field fields ih =>
    obtain ⟨hfield, h⟩ := (bind_unit_eq_ok _ _ _).mp h
    rw [List.forall_mem_cons]
    exact ⟨validateTypeRef_ok schema field.type hfield, ih h⟩

def Identified (schema : Schema) (fields : List FieldDeclaration) : Prop :=
  (fields.map (·.id)).Nodup ∧ ∀ field ∈ fields, field.type.Known schema

theorem validateVariants_ok (name : String)
    (variants : List UnionVariantDeclaration)
    (h : validateVariants (schema.declarations.map (·.typePath)) name variants = .ok ()) :
    ∀ variant ∈ variants, Identified schema variant.fields := by
  induction variants with
  | nil => exact fun variant hmem => absurd hmem List.not_mem_nil
  | cons variant variants ih =>
    obtain ⟨hids, h⟩ := (bind_unit_eq_ok _ _ _).mp h
    obtain ⟨htypes, h⟩ := (bind_unit_eq_ok _ _ _).mp h
    rw [List.forall_mem_cons]
    exact ⟨⟨validateUniqueIds_ok _ _ hids, validateFieldTypes_ok schema _ htypes⟩, ih h⟩

def Declaration.Valid (schema : Schema) : Declaration → Prop
  | .struct _ _ fields => Identified schema fields
  | .enum _ _ variants => (variants.map (·.id)).Nodup
  | .union _ _ variants => (variants.map (·.id)).Nodup ∧
      ∀ variant ∈ variants, Identified schema variant.fields

theorem validateDeclarations_ok (declarations : List Declaration)
    (h : validateDeclarations (schema.declarations.map (·.typePath)) declarations = .ok ()) :
    ∀ declaration ∈ declarations, declaration.Valid schema := by
  induction declarations with
  | nil => exact fun declaration hmem => absurd hmem List.not_mem_nil
  | cons declaration declarations ih =>
    obtain ⟨hone, h⟩ := (bind_unit_eq_ok _ _ _).mp h
    rw [List.forall_mem_cons]
    refine ⟨?_, ih h⟩
    cases declaration with
    | struct name typePath fields =>
      obtain ⟨hids, htypes⟩ := (bind_unit_eq_ok _ _ _).mp hone
      exact ⟨validateUniqueIds_ok _ _ hids, validateFieldTypes_ok schema _ htypes⟩
    | enum name typePath variants => exact validateUniqueIds_ok _ _ hone
    | union name typePath variants =>
      obtain ⟨hids, hvariants⟩ := (bind_unit_eq_ok _ _ _).mp hone
      exact ⟨validateUniqueIds_ok _ _ hids, validateVariants_ok schema name _ hvariants⟩

theorem validateSchema_ok (h : validateSchema schema = .ok ()) (path : String)
    (declaration : Declaration) (hnamed : schema.named path = some declaration) :
    declaration.Valid schema :=
  validateDeclarations_ok schema _ ((bind_unit_eq_ok _ _ _).mp h).2 declaration
    (Schema.named_mem hnamed)

/-- `.replace(/([a-z0-9])([A-Z])/g, "$1_$2")` -/
def splitLower : List Char → List Char
  | a :: b :: cs =>
    if (a.isLower || a.isDigit) && b.isUpper then a :: '_' :: splitLower (b :: cs)
    else a :: splitLower (b :: cs)
  | cs => cs

/-- `.replace(/([A-Z]+)([A-Z][a-z])/g, "$1_$2")` -/
def splitUpper : List Char → List Char
  | a :: b :: c :: cs =>
    if a.isUpper && b.isUpper && c.isLower then a :: '_' :: splitUpper (b :: c :: cs)
    else a :: splitUpper (b :: c :: cs)
  | cs => cs

/-- `.replace(/[-\s]+/g, "_")`; `inside` a run its underscore is already there. -/
def joinDashes (inside : Bool) : List Char → List Char
  | [] => []
  | c :: cs =>
    if c = '-' || c.isWhitespace then
      if inside then joinDashes true cs else '_' :: joinDashes true cs
    else c :: joinDashes false cs

def snakeCase (name : String) : String :=
  String.ofList ((joinDashes false (splitUpper (splitLower name.toList))).map Char.toLower)

def rustKeywords : List String :=
  ["as", "break", "const", "continue", "crate", "else", "enum", "extern", "false", "fn", "for",
    "if", "impl", "in", "let", "loop", "match", "mod", "move", "mut", "pub", "ref", "return",
    "self", "Self", "static", "struct", "super", "trait", "true", "type", "unsafe", "use", "where",
    "while", "async", "await", "dyn"]

def rawIdent (name : String) : String := if name ∈ rustKeywords then "r#" ++ name else name

def fieldName (name : String) : String := rawIdent (snakeCase name)

def lowerCamel (name : String) : String :=
  match name.toList with
  | [] => ""
  | c :: cs => String.ofList (c.toLower :: cs)

example : fieldName "pingId" = "ping_id" := by decide

example : fieldName "type" = "r#type" := by decide

theorem find_self {α β : Type} [DecidableEq β] (f : α → β) (xs : List α) (h : (xs.map f).Nodup)
    (x : α) (hx : x ∈ xs) : xs.find? (fun y => f y = f x) = some x := by
  cases hfound : xs.find? (fun y => f y = f x) with
  | none => exact absurd (decide_eq_true rfl) (List.find?_eq_none.mp hfound x hx)
  | some y =>
    have hy : f y = f x := by simpa using List.find?_some hfound
    rw [List.inj_on_of_nodup_map h (List.mem_of_find?_eq_some hfound) hx hy]

def Named (fields : List FieldDeclaration) : Prop :=
  (fields.map fun field => fieldName field.name).Nodup ∧ (fields.map (·.name)).Nodup

def Declaration.Distinct : Declaration → Prop
  | .struct _ _ fields => Named fields
  | .enum _ _ variants => variants ≠ [] ∧ (variants.map (·.name)).Nodup
  | .union _ _ variants => variants ≠ [] ∧ (variants.map (·.name)).Nodup ∧
      (variants.map fun variant => lowerCamel variant.name).Nodup ∧
      ∀ variant ∈ variants, Named variant.fields ∧ "type" ∉ variant.fields.map (·.name)

def Schema.Finite (schema : Schema) : Prop :=
  ∃ rank : String → ℕ, ∀ path declaration, schema.named path = some declaration →
    ∀ fields ∈ declaration.fieldLists, ∀ field ∈ fields, ∀ inner,
      field.type = .named inner → rank inner < rank path

structure Schema.Accepted (schema : Schema) : Prop where
  valid : validateSchema schema = .ok ()
  distinct : ∀ declaration ∈ schema.declarations, declaration.Distinct
  finite : schema.Finite

instance (fields : List FieldDeclaration) : Decidable (Named fields) :=
  inferInstanceAs (Decidable (_ ∧ _))

instance Declaration.decideDistinct : (declaration : Declaration) → Decidable declaration.Distinct
  | .struct _ _ fields => inferInstanceAs (Decidable (Named fields))
  | .enum _ _ variants =>
    inferInstanceAs (Decidable (variants ≠ [] ∧ (variants.map (·.name)).Nodup))
  | .union _ _ variants =>
    inferInstanceAs (Decidable (variants ≠ [] ∧ (variants.map (·.name)).Nodup ∧
      (variants.map fun variant => lowerCamel variant.name).Nodup ∧
      ∀ variant ∈ variants, Named variant.fields ∧ "type" ∉ variant.fields.map (·.name)))

def TypeRef.rankedBelow (rank : String → ℕ) (bound : ℕ) : TypeRef → Bool
  | .named path => rank path < bound
  | _ => true

def Declaration.ranked (rank : String → ℕ) (declaration : Declaration) : Bool :=
  declaration.fieldLists.all fun fields =>
    fields.all fun field => field.type.rankedBelow rank (rank declaration.typePath)

theorem Schema.accepted_of_rank (rank : String → ℕ)
    (hvalid : validateSchema schema = .ok ())
    (hdistinct : ∀ declaration ∈ schema.declarations, declaration.Distinct)
    (hranked : schema.declarations.all (·.ranked rank) = true) : schema.Accepted := by
  refine ⟨hvalid, hdistinct, rank, ?_⟩
  intro path declaration hnamed fields hfields field hfield inner htype
  have hpath : declaration.typePath = path := by simpa using List.find?_some hnamed
  have hfield := List.all_eq_true.mp (List.all_eq_true.mp
    (List.all_eq_true.mp hranked _ (Schema.named_mem hnamed)) _ hfields) _ hfield
  rw [htype, hpath] at hfield
  exact of_decide_eq_true hfield

section
variable {schema : Schema} {path name typePath : String}

theorem Schema.Accepted.struct_fields {fields : List FieldDeclaration} (h : schema.Accepted)
    (hnamed : schema.named path = some (.struct name typePath fields)) :
    Identified schema fields ∧ Named fields :=
  ⟨validateSchema_ok schema h.valid path _ hnamed, h.distinct _ (Schema.named_mem hnamed)⟩

theorem Schema.Accepted.union_fields {variants : List UnionVariantDeclaration}
    (h : schema.Accepted) (hnamed : schema.named path = some (.union name typePath variants))
    {variant : UnionVariantDeclaration} (hvariant : variant ∈ variants) :
    Identified schema variant.fields ∧ Named variant.fields ∧
      "type" ∉ variant.fields.map (·.name) :=
  ⟨(validateSchema_ok schema h.valid path _ hnamed).2 variant hvariant,
    (h.distinct _ (Schema.named_mem hnamed)).2.2.2 variant hvariant⟩

end

theorem countP_lt {α : Type} (p q : α → Bool) (xs : List α) (himp : ∀ x ∈ xs, p x = true → q x = true)
    (x : α) (hx : x ∈ xs) (hq : q x = true) (hp : p x = false) : xs.countP p < xs.countP q := by
  induction xs with
  | nil => exact absurd hx List.not_mem_nil
  | cons y ys ih =>
    rw [List.forall_mem_cons] at himp
    have hle : ys.countP p ≤ ys.countP q := List.countP_mono_left himp.2
    rw [List.countP_cons, List.countP_cons]
    rcases List.mem_cons.mp hx with rfl | hmem
    · rw [hq, hp, if_pos rfl, if_neg Bool.false_ne_true]
      omega
    · have hlt := ih himp.2 hmem
      by_cases hy : p y = true
      · rw [if_pos hy, if_pos (himp.1 hy)]
        omega
      · rw [if_neg hy]
        omega

section
variable (schema : Schema) (rank : String → ℕ)

def Schema.below (path : String) : ℕ :=
  schema.declarations.countP fun declaration => rank declaration.typePath < rank path

theorem Schema.named_typePath {path : String} {declaration : Declaration}
    (h : schema.named path = some declaration) : declaration.typePath = path := by
  simpa using List.find?_some h

theorem Schema.below_lt {path inner : String} {declaration : Declaration}
    (h : schema.named inner = some declaration) (hrank : rank inner < rank path) :
    schema.below rank inner < schema.below rank path := by
  have hpath := schema.named_typePath h
  apply countP_lt _ _ _ _ declaration (Schema.named_mem h)
  · rw [hpath]
    exact decide_eq_true hrank
  · rw [hpath]
    exact decide_eq_false (Nat.lt_irrefl _)
  · intro other _ hother
    exact decide_eq_true (Nat.lt_trans (of_decide_eq_true hother) hrank)

theorem Schema.below_lt_length {path : String} {declaration : Declaration}
    (h : schema.named path = some declaration) :
    schema.below rank path < schema.declarations.length := by
  have hpath := schema.named_typePath h
  rw [← List.countP_true]
  apply countP_lt _ _ _ _ declaration (Schema.named_mem h) rfl
  · rw [hpath]
    exact decide_eq_false (Nat.lt_irrefl _)
  · exact fun _ _ _ => rfl

def Schema.height : TypeRef → ℕ
  | .named path => schema.below rank path + 1
  | _ => 0

end

end Rieul.Codegen
