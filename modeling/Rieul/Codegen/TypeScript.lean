import Rieul.Codegen.Schema
import Rieul.Web.Cbor

/-!
# The emitted TypeScript code (scripts/codegen/typescript/main.ts)

What the functions that are emitted for a schema compute, over the CBOR values of
the browser.
-/

namespace Rieul.Codegen.TypeScript
open Fallible Record Bytes Rieul.Cbor
open Rieul.Web (CborValue IsSafeInteger)

/-- `overflow` is the `RangeError` of a default that contains itself; `untyped` is what the type
checker excludes. -/
inductive Failure where
  | thrown (message : String)
  | overflow
  | untyped

/-- Numbers of an integer type are kept by their value, those of type `f64` by their bits. An object
has `undefined` at the names of which it has no property. -/
inductive Model where
  | undefined
  | number (n : ℤ)
  | float (bits : UInt64)
  | string (t : String)
  | boolean (b : Bool)
  | bytes (b : Str)
  | array (items : List Model)
  | object (properties : String → Model)

def u53 (value : ℤ) : Except Failure CborValue := do
  ensure (IsSafeInteger value ∧ 0 ≤ value) (.thrown "expected u53")
  .ok (.number value)

def i53 (value : ℤ) : Except Failure CborValue := do
  ensure (IsSafeInteger value) (.thrown "expected i53")
  .ok (.number value)

def cborF64 (value : UInt64) : Except Failure CborValue := do
  ensure (IsFinite value) (.thrown "expected finite f64")
  .ok (.f64 value)

def integer : CborValue → Except Failure ℤ
  | .number n => do
    ensure (IsSafeInteger n) (.thrown "expected CBOR integer")
    .ok n
  | _ => .error (.thrown "expected CBOR integer")

def f64Value : CborValue → Except Failure UInt64
  | .f64 bits => .ok bits
  | _ => .error (.thrown "expected CBOR f64")

def textValue : CborValue → Except Failure String
  | .string t => .ok t
  | _ => .error (.thrown "expected CBOR text")

def boolValue : CborValue → Except Failure Bool
  | .boolean b => .ok b
  | _ => .error (.thrown "expected CBOR bool")

def bytesValue : CborValue → Except Failure Str
  | .bytes b => .ok b
  | _ => .error (.thrown "expected CBOR bytes")

def required (label : String) : Model → Except Failure Unit
  | .undefined => .error (.thrown s!"missing required field {label}")
  | _ => .ok ()

/-- `Map.prototype.set` -/
def setEntry (key : ℤ) (value : CborValue) : List (ℤ × CborValue) → List (ℤ × CborValue)
  | [] => [(key, value)]
  | (k, v) :: entries =>
    if k = key then (key, value) :: entries else (k, v) :: setEntry key value entries

def encodePrimitive : PrimitiveTypeName → Model → Except Failure CborValue
  | .u53, .number n => u53 n
  | .i53, .number n => i53 n
  | .f64, .float bits => cborF64 bits
  | .string, .string t => .ok (.string t)
  | .bool, .boolean b => .ok (.boolean b)
  | .bytes, .bytes b => .ok (.bytes b)
  | _, _ => .error .untyped

/-- The fields of an object that `encode` gives a value. -/
def setFields (encode : FieldDeclaration → Except Failure (Option CborValue))
    (fields : List FieldDeclaration) : Except Failure (List (ℤ × CborValue)) :=
  collect (fun field => (field.id.val : ℤ)) setEntry encode fields []

/-- The entry of a field with its value `encoded`: an optional field that is undefined has none, and
a field of type void is written without being read. -/
def encodeField (owner : String) (field : FieldDeclaration) (value : Model)
    (encoded : Except Failure CborValue) : Except Failure (Option CborValue) :=
  if field.optional then
    match value with
    | .undefined => .ok none
    | _ => some <$> encoded
  else if field.type = .void then some <$> encoded
  else do
    required s!"{owner}.{field.name}" value
    some <$> encoded

mutual
def encodeExpr (schema : Schema) : Model → TypeRef → Except Failure CborValue
  | _, .void => .ok .null
  | .array items, .array item => do
    let values ← encodeItems schema items item
    .ok (.array values)
  | .object value, .named path =>
    match schema.named path with
    | some (.struct name _ fields) => do
      let entries ← setFields (fun field => encodeField name field (value field.name)
        (encodeExpr schema (value field.name) field.type)) fields
      .ok (.map entries)
    | some (.union name _ variants) =>
      match value "type" with
      | .string tag => do
        let variant ← require .untyped (variants.find? fun v => lowerCamel v.name = tag)
        let entries ← setFields (fun field => encodeField s!"{name}.{variant.name}" field
          (value field.name) (encodeExpr schema (value field.name) field.type)) variant.fields
        .ok (.array [.number variant.id.val, .map entries])
      | _ => .error .untyped
    | _ => .error .untyped
  | .number n, .named path =>
    match schema.named path with
    | some (.enum _ _ _) => CborValue.number <$> integer (.number n)
    | _ => .error .untyped
  | value, .primitive name => encodePrimitive name value
  | _, _ => .error .untyped

def encodeItems (schema : Schema) : List Model → TypeRef → Except Failure (List CborValue)
  | [], _ => .ok []
  | value :: items, item => do
    let first ← encodeExpr schema value item
    let rest ← encodeItems schema items item
    .ok (first :: rest)
end

def defaultPrimitive : PrimitiveTypeName → Model
  | .u53 => .number 0
  | .i53 => .number 0
  | .f64 => .float 0
  | .string => .string ""
  | .bool => .boolean false
  | .bytes => .bytes []

/-- An object with a tag: no field is named `type`. -/
def tagged (tag : String) (properties : String → Model) : String → Model :=
  fun name => if name = "type" then .string tag else properties name

/-- The default of a type, nested less than `stack` deep. -/
def defaultExpr (schema : Schema) : ℕ → TypeRef → Except Failure Model
  | 0, _ => .error .overflow
  | _ + 1, .void => .ok .undefined
  | _ + 1, .array _ => .ok (.array [])
  | _ + 1, .primitive name => .ok (defaultPrimitive name)
  | stack + 1, .named path =>
    match schema.named path with
    | some (.enum _ _ (variant :: _)) => .ok (.number variant.id.val)
    | some (.struct _ _ fields) => do
      let value ← fill (fun field => field.name) .undefined (fun field =>
        if field.optional then .ok .undefined else defaultExpr schema stack field.type) fields
      .ok (.object value)
    | some (.union _ _ (variant :: _)) => do
      let value ← fill (fun field => field.name) .undefined (fun field =>
        if field.optional then .ok .undefined else defaultExpr schema stack field.type)
        variant.fields
      .ok (.object (tagged (lowerCamel variant.name) value))
    | _ => .error .untyped

def default (schema : Schema) (type : TypeRef) : Except Failure Model :=
  defaultExpr schema (schema.declarations.length + 1) type

abbrev Decoder := TypeRef → Except Failure Model

def optionalField (value : Option Decoder) (type : TypeRef) : Except Failure Model :=
  match value with
  | some decode => decode type
  | none => .ok .undefined

def fieldOrDefault (schema : Schema) (value : Option Decoder) (type : TypeRef) :
    Except Failure Model :=
  match value with
  | some decode => decode type
  | none => default schema type

def decodeFieldExpr (schema : Schema) (fields : List (ℤ × Decoder)) (field : FieldDeclaration) :
    Except Failure Model :=
  if field.optional then optionalField (fields.lookup (field.id.val : ℤ)) field.type
  else fieldOrDefault schema (fields.lookup (field.id.val : ℤ)) field.type

def decodeFields (schema : Schema) (entries : List (ℤ × Decoder))
    (fields : List FieldDeclaration) : Except Failure (String → Model) :=
  fill (fun field => field.name) .undefined (decodeFieldExpr schema entries) fields

/-- `array(value).map(..)` -/
def decodeItems : List Decoder → TypeRef → Except Failure (List Model)
  | [], _ => .ok []
  | decode :: items, item => do
    let first ← decode item
    let rest ← decodeItems items item
    .ok (first :: rest)

def decodePrimitive : PrimitiveTypeName → CborValue → Except Failure Model
  | .u53, value => Model.number <$> integer value
  | .i53, value => Model.number <$> integer value
  | .f64, value => Model.float <$> f64Value value
  | .string, value => Model.string <$> textValue value
  | .bool, value => Model.boolean <$> boolValue value
  | .bytes, value => Model.bytes <$> bytesValue value

structure Parts where
  value : CborValue
  items : Except Failure (List Decoder)
  fields : Except Failure (List (ℤ × Decoder))
  union : Except Failure (ℤ × List (ℤ × Decoder))

def decodeParts (schema : Schema) (parts : Parts) : Decoder
  | .void => .ok .undefined
  | .array item => do
    let items ← parts.items
    let values ← decodeItems items item
    .ok (.array values)
  | .primitive name => decodePrimitive name parts.value
  | .named path =>
    match schema.named path with
    | some (.struct _ _ fields) => do
      let entries ← parts.fields
      let value ← decodeFields schema entries fields
      .ok (.object value)
    | some (.enum name _ variants) => do
      let id ← integer parts.value
      ensure (id ∈ variants.map fun variant => (variant.id.val : ℤ))
        (.thrown s!"unknown {name} variant {id}")
      .ok (.number id)
    | some (.union name _ variants) => do
      let (variantId, entries) ← parts.union
      let variant ← require (.thrown s!"unknown {name} variant {variantId}")
        (variants.find? fun variant => (variant.id.val : ℤ) = variantId)
      let value ← decodeFields schema entries variant.fields
      .ok (.object (tagged (lowerCamel variant.name) value))
    | none => .error .untyped

mutual
def array (schema : Schema) : CborValue → Except Failure (List Decoder)
  | .array items => .ok (decoders schema items)
  | _ => .error (.thrown "expected CBOR array")

def expectMap (schema : Schema) : CborValue → Except Failure (List (ℤ × Decoder))
  | .map entries => .ok (entryDecoders schema entries)
  | _ => .error (.thrown "expected CBOR map")

def expectUnion (schema : Schema) : CborValue → Except Failure (ℤ × List (ℤ × Decoder))
  | .array [id, fields] => do
    let variantId ← integer id
    let fields ← expectMap schema fields
    .ok (variantId, fields)
  | _ => .error (.thrown "expected CBOR union tuple")

def decoders (schema : Schema) : List CborValue → List Decoder
  | [] => []
  | value :: items =>
    decodeParts schema ⟨value, array schema value, expectMap schema value,
      expectUnion schema value⟩ :: decoders schema items

def entryDecoders (schema : Schema) : List (ℤ × CborValue) → List (ℤ × Decoder)
  | [] => []
  | (key, value) :: entries =>
    (key, decodeParts schema ⟨value, array schema value, expectMap schema value,
      expectUnion schema value⟩) :: entryDecoders schema entries
end

def decodeExpr (schema : Schema) (value : CborValue) : Decoder :=
  decodeParts schema ⟨value, array schema value, expectMap schema value, expectUnion schema value⟩

end Rieul.Codegen.TypeScript
