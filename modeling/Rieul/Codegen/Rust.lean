import Rieul.Codegen.Schema
import Rieul.Core.CborDecode

/-!
# The emitted Rust code (scripts/codegen/rust/main.ts)

What the functions that are emitted for a schema compute. The emitted code of a
type calls that of its parts; here the schema is a parameter and the recursion is
over the value.
-/

namespace Rieul.Codegen.Rust
open Fallible Record Bytes Rieul.Cbor

inductive CodecError where
  | Cbor (error : CborError)
  | ExpectedArray
  | ExpectedBool
  | ExpectedBytes
  | ExpectedF64
  | ExpectedInteger
  | ExpectedMap
  | ExpectedText
  | IntegerOutOfRange (typeName : String)
  | NonFiniteFloat (typeName : String)
  | UnknownEnumVariant (typeName : String) (variantId : UInt64)
  | UnknownUnionVariant (typeName : String) (variantId : UInt64)

/-- `overflow` ends a default that contains itself; `untyped` is what the type checker excludes. -/
inductive Fault where
  | codec (error : CodecError)
  | overflow
  | untyped

/-- The fields of a record have `unit` at the names that it does not declare. -/
inductive Model where
  | unit
  | u64 (n : UInt64)
  | i64 (n : Int64)
  | f64 (bits : UInt64)
  | string (t : String)
  | bool (b : Bool)
  | bytes (b : Str)
  | vec (items : List Model)
  | none
  | some (value : Model)
  | struct (fields : String → Model)
  | enum (variant : String)
  | union (variant : String) (fields : String → Model)

/-- An id as a literal of type `u64`. -/
def u64Id (id : Id) : UInt64 := UInt64.ofNat id.val

def maxU53 : UInt64 := 9007199254740991
def minI53 : ℤ := -9007199254740991
def maxI53 : ℤ := 9007199254740991

def encodeU53 (value : UInt64) : Except CodecError Value := do
  ensure (value ≤ maxU53) (.IntegerOutOfRange "u53")
  .ok (.u64 value)

def encodeI53 (value : Int64) : Except CodecError Value := do
  ensure (minI53 ≤ value.toInt ∧ value.toInt ≤ maxI53) (.IntegerOutOfRange "i53")
  .ok (.i64 value)

def encodeF64 (value : UInt64) : Except CodecError Value := do
  ensure (IsFinite value) (.NonFiniteFloat "f64")
  .ok (.f64 value)

def expectU64 : Value → Except CodecError UInt64
  | .u64 n => .ok n
  | .i64 n => if 0 ≤ n.toInt then .ok (UInt64.ofNat n.toInt.toNat) else .error .ExpectedInteger
  | _ => .error .ExpectedInteger

def expectI64 : Value → Except CodecError Int64
  | .i64 n => .ok n
  | .u64 n => if n.toNat < 2 ^ 63 then .ok (Int64.ofNat n.toNat) else .error .ExpectedInteger
  | _ => .error .ExpectedInteger

def expectF64 : Value → Except CodecError UInt64
  | .f64 bits => .ok bits
  | _ => .error .ExpectedF64

def expectText : Value → Except CodecError String
  | .text t => .ok t
  | _ => .error .ExpectedText

def expectBool : Value → Except CodecError Bool
  | .bool b => .ok b
  | _ => .error .ExpectedBool

def expectBytes : Value → Except CodecError Str
  | .bytes b => .ok b
  | _ => .error .ExpectedBytes

def encodePrimitive : PrimitiveTypeName → Model → Except Fault Value
  | .u53, .u64 n => liftError .codec (encodeU53 n)
  | .i53, .i64 n => liftError .codec (encodeI53 n)
  | .f64, .f64 bits => liftError .codec (encodeF64 bits)
  | .string, .string t => .ok (.text t)
  | .bool, .bool b => .ok (.bool b)
  | .bytes, .bytes b => .ok (.bytes b)
  | _, _ => .error .untyped

/-- The fields of `self` that `encode` gives a value, as `BTreeMap::insert` leaves them. -/
def insertFields (encode : FieldDeclaration → Except Fault (Option Value))
    (fields : List FieldDeclaration) : Except Fault Entries :=
  collect (fun field => u64Id field.id) insertEntry encode fields []

/-- The arm of a variant binds `fields` to its map before it reads the field of this name. -/
def shadowed (field : FieldDeclaration) : Bool :=
  fieldName field.name = "fields" && (field.optional || field.type ≠ .void)

mutual
def encodeExpr (schema : Schema) : Model → TypeRef → Except Fault Value
  | .unit, .void => .ok .null
  | .vec items, .array item => do
    let values ← encodeArray schema items item
    .ok (.array values)
  | .struct self, .named path =>
    match schema.named path with
    | some (.struct _ _ fields) => do
      let entries ← insertFields (fun field =>
        if field.optional then encodeSome schema (self (fieldName field.name)) field.type
        else some <$> encodeExpr schema (self (fieldName field.name)) field.type) fields
      .ok (.map entries)
    | _ => .error .untyped
  | .enum variant, .named path =>
    match schema.named path with
    | some (.enum _ _ variants) => do
      let variant ← require .untyped (variants.find? fun v => v.name = variant)
      .ok (.u64 (u64Id variant.id))
    | _ => .error .untyped
  | .union variant self, .named path =>
    match schema.named path with
    | some (.union _ _ variants) => do
      let variant ← require .untyped (variants.find? fun v => v.name = variant)
      let entries ← insertFields (fun field =>
        if shadowed field then .error .untyped
        else if field.optional then encodeSome schema (self (fieldName field.name)) field.type
        else some <$> encodeExpr schema (self (fieldName field.name)) field.type) variant.fields
      .ok (.array [.u64 (u64Id variant.id), .map entries])
    | _ => .error .untyped
  | value, .primitive name => encodePrimitive name value
  | _, _ => .error .untyped

/-- `if let Some(value)`: an absent field has no entry. -/
def encodeSome (schema : Schema) : Model → TypeRef → Except Fault (Option Value)
  | .some value, type => some <$> encodeExpr schema value type
  | .none, _ => .ok none
  | _, _ => .error .untyped

/-- The loop of `encode_array`. -/
def encodeArray (schema : Schema) : List Model → TypeRef → Except Fault (List Value)
  | [], _ => .ok []
  | value :: items, item => do
    let first ← encodeExpr schema value item
    let rest ← encodeArray schema items item
    .ok (first :: rest)
end

def encodeField (schema : Schema) (self : String → Model) (field : FieldDeclaration) :
    Except Fault (Option Value) :=
  if field.optional then encodeSome schema (self (fieldName field.name)) field.type
  else some <$> encodeExpr schema (self (fieldName field.name)) field.type

def encodeArm (schema : Schema) (self : String → Model) (field : FieldDeclaration) :
    Except Fault (Option Value) :=
  if shadowed field then .error .untyped else encodeField schema self field

def defaultPrimitive : PrimitiveTypeName → Model
  | .u53 => .u64 0
  | .i53 => .i64 0
  | .f64 => .f64 0
  | .string => .string ""
  | .bool => .bool false
  | .bytes => .bytes []

/-- The default of a type, nested less than `stack` deep. -/
def defaultExpr (schema : Schema) : ℕ → TypeRef → Except Fault Model
  | 0, _ => .error .overflow
  | _ + 1, .void => .ok .unit
  | _ + 1, .array _ => .ok (.vec [])
  | _ + 1, .primitive name => .ok (defaultPrimitive name)
  | stack + 1, .named path =>
    match schema.named path with
    | some (.enum _ _ (variant :: _)) => .ok (.enum variant.name)
    | some (.struct _ _ fields) => do
      let self ← fill (fun field => fieldName field.name) .unit (fun field =>
        if field.optional then .ok .none else defaultExpr schema stack field.type) fields
      .ok (.struct self)
    | some (.union _ _ (variant :: _)) => do
      let self ← fill (fun field => fieldName field.name) .unit (fun field =>
        if field.optional then .ok .none else defaultExpr schema stack field.type) variant.fields
      .ok (.union variant.name self)
    | _ => .error .untyped

def default (schema : Schema) (type : TypeRef) : Except Fault Model :=
  defaultExpr schema (schema.declarations.length + 1) type

abbrev Decoder := TypeRef → Except Fault Model

def optionalField (value : Option Decoder) (type : TypeRef) : Except Fault Model :=
  match value with
  | some decode => Model.some <$> decode type
  | none => .ok .none

def fieldOrDefault (schema : Schema) (value : Option Decoder) (type : TypeRef) : Except Fault Model :=
  match value with
  | some decode => decode type
  | none => default schema type

def decodeFieldExpr (schema : Schema) (fields : List (UInt64 × Decoder)) (field : FieldDeclaration) :
    Except Fault Model :=
  if field.optional then optionalField (fields.lookup (u64Id field.id)) field.type
  else fieldOrDefault schema (fields.lookup (u64Id field.id)) field.type

def decodeFields (schema : Schema) (entries : List (UInt64 × Decoder))
    (fields : List FieldDeclaration) : Except Fault (String → Model) :=
  fill (fun field => fieldName field.name) .unit (decodeFieldExpr schema entries) fields

/-- The loop of `decode_array`. -/
def decodeArray : List Decoder → TypeRef → Except Fault (List Model)
  | [], _ => .ok []
  | decode :: items, item => do
    let first ← decode item
    let rest ← decodeArray items item
    .ok (first :: rest)

def decodePrimitive : PrimitiveTypeName → Value → Except CodecError Model
  | .u53, value => Model.u64 <$> expectU64 value
  | .i53, value => Model.i64 <$> expectI64 value
  | .f64, value => Model.f64 <$> expectF64 value
  | .string, value => Model.string <$> expectText value
  | .bool, value => Model.bool <$> expectBool value
  | .bytes, value => Model.bytes <$> expectBytes value

structure Parts where
  value : Value
  items : Except Fault (List Decoder)
  fields : Except Fault (List (UInt64 × Decoder))
  union : Except Fault (UInt64 × List (UInt64 × Decoder))

def decodeParts (schema : Schema) (parts : Parts) : Decoder
  | .void => .ok .unit
  | .array item => do
    let items ← parts.items
    let values ← decodeArray items item
    .ok (.vec values)
  | .primitive name => liftError .codec (decodePrimitive name parts.value)
  | .named path =>
    match schema.named path with
    | some (.struct _ _ fields) => do
      let entries ← parts.fields
      let self ← decodeFields schema entries fields
      .ok (.struct self)
    | some (.enum name _ variants) => do
      let variantId ← liftError .codec (expectU64 parts.value)
      let variant ← require (.codec (.UnknownEnumVariant name variantId))
        (variants.find? fun variant => u64Id variant.id = variantId)
      .ok (.enum variant.name)
    | some (.union name _ variants) => do
      let (variantId, entries) ← parts.union
      let variant ← require (.codec (.UnknownUnionVariant name variantId))
        (variants.find? fun variant => u64Id variant.id = variantId)
      let self ← decodeFields schema entries variant.fields
      .ok (.union variant.name self)
    | none => .error .untyped

mutual
def expectArray (schema : Schema) : Value → Except Fault (List Decoder)
  | .array items => .ok (decoders schema items)
  | _ => .error (.codec .ExpectedArray)

def expectMap (schema : Schema) : Value → Except Fault (List (UInt64 × Decoder))
  | .map entries => .ok (entryDecoders schema entries)
  | _ => .error (.codec .ExpectedMap)

def expectUnion (schema : Schema) : Value → Except Fault (UInt64 × List (UInt64 × Decoder))
  | .array [id, fields] => do
    let variantId ← liftError .codec (expectU64 id)
    let fields ← expectMap schema fields
    .ok (variantId, fields)
  | _ => .error (.codec .ExpectedArray)

def decoders (schema : Schema) : List Value → List Decoder
  | [] => []
  | value :: items =>
    decodeParts schema ⟨value, expectArray schema value, expectMap schema value,
      expectUnion schema value⟩ :: decoders schema items

def entryDecoders (schema : Schema) : Entries → List (UInt64 × Decoder)
  | [] => []
  | (key, value) :: entries =>
    (key, decodeParts schema ⟨value, expectArray schema value, expectMap schema value,
      expectUnion schema value⟩) :: entryDecoders schema entries
end

def decodeExpr (schema : Schema) (value : Value) : Decoder :=
  decodeParts schema ⟨value, expectArray schema value, expectMap schema value,
    expectUnion schema value⟩

end Rieul.Codegen.Rust
