import ConditionLint.Types.Table
import ConditionLint.Json.Decode

/-!
# Types as JSON

The written form of descriptors: a choice named by the kind of type, with every field written. The
reader also takes records whose lists are left out.
-/

set_option autoImplicit false

namespace ConditionLint

/-- Ids are written in 32 bits, which hold numbers below `2 ^ 32`. -/
def idLimit : Nat :=
  0x100000000

def TypeId.toJson (id : TypeId) : Json :=
  .nat id.index

def TypeId.ofJson? (j : Json) : Option TypeId :=
  (j.natBelow? idLimit).map TypeId.mk

def Intrinsic.ofKeyword? : String → Option Intrinsic
  | "any" => some .any
  | "unknown" => some .unknown
  | "never" => some .never
  | "void" => some .void
  | "undefined" => some .undefined
  | "null" => some .null
  | "string" => some .string
  | "number" => some .number
  | "bigint" => some .bigint
  | "symbol" => some .symbol
  | "object" => some .object
  | _ => none

def IndexKind.ofKeyword? : String → Option IndexKind
  | "string" => some .string
  | "number" => some .number
  | "symbol" => some .symbol
  | _ => none

def LiteralValue.toJson : LiteralValue → Json
  | string value => .object [("string", .string value)]
  | number value => .object [("number", .number (.double value))]
  | bigint digits => .object [("bigint", .string digits)]
  | boolean value => .object [("boolean", .bool value)]

def LiteralValue.ofJson? (j : Json) : Option LiteralValue :=
  match j.choice? with
  | some ("string", some payload) => payload.string?.map .string
  | some ("number", some payload) => payload.double?.map .number
  | some ("bigint", some payload) => payload.string?.map .bigint
  | some ("boolean", some payload) => payload.bool?.map .boolean
  | _ => none

def Property.toJson (p : Property) : Json :=
  .object [("name", .string p.name), ("ty", p.type.toJson)]

def Property.ofJson? (j : Json) : Option Property :=
  match j.fields? ["name", "ty"] with
  | some [name, type] => do
    return { name := ← Json.required? Json.string? name
             type := ← Json.required? TypeId.ofJson? type }
  | _ => none

def IndexSignature.toJson (s : IndexSignature) : Json :=
  .object [("key", .string s.key.keyword), ("ty", s.type.toJson)]

def IndexSignature.ofJson? (form : Json.Form) (j : Json) : Option IndexSignature :=
  match j.fields? ["key", "ty"] with
  | some [key, type] => do
    return { key := ← Json.required? (Json.word? form IndexKind.ofKeyword?) key
             type := ← Json.required? TypeId.ofJson? type }
  | _ => none

def Signature.toJson (s : Signature) : Json :=
  .object [("params", .array (s.params.map TypeId.toJson)), ("return_type", s.returnType.toJson)]

def Signature.ofJson? (j : Json) : Option Signature :=
  match j.fields? ["params", "return_type"] with
  | some [params, returnType] => do
    return { params := ← Json.defaulted? [] (Json.list? TypeId.ofJson?) params
             returnType := ← Json.required? TypeId.ofJson? returnType }
  | _ => none

def ObjectShape.toJson (s : ObjectShape) : Json :=
  .object
    [("properties", .array (s.properties.map Property.toJson)),
      ("index_signatures", .array (s.indexSignatures.map IndexSignature.toJson)),
      ("call_signatures", .array (s.callSignatures.map Signature.toJson))]

def ObjectShape.ofJson? (form : Json.Form) (j : Json) : Option ObjectShape :=
  match j.fields? ["properties", "index_signatures", "call_signatures"] with
  | some [properties, indexSignatures, callSignatures] => do
    return { properties := ← Json.defaulted? [] (Json.list? Property.ofJson?) properties
             indexSignatures :=
               ← Json.defaulted? [] (Json.list? (IndexSignature.ofJson? form)) indexSignatures
             callSignatures := ← Json.defaulted? [] (Json.list? Signature.ofJson?) callSignatures }
  | _ => none

namespace Descriptor

def idsToJson (ids : List TypeId) : Json :=
  .array (ids.map TypeId.toJson)

def toJson : Descriptor → Json
  | intrinsic keyword => .object [("intrinsic", .string keyword.keyword)]
  | literal value => .object [("literal", value.toJson)]
  | object shape => .object [("object", shape.toJson)]
  | array element => .object [("array", element.toJson)]
  | tuple elements => .object [("tuple", idsToJson elements)]
  | union members => .object [("union", idsToJson members)]
  | intersection members => .object [("intersection", idsToJson members)]
  | typeParameter name constraint =>
    .object [("type_parameter",
      .object [("name", .string name), ("constraint", Json.ofOption TypeId.toJson constraint)])]
  | indexedAccess target index =>
    .object [("indexed_access",
      .object [("object", target.toJson), ("index", index.toJson)])]

def typeParameterOfJson? (j : Json) : Option Descriptor :=
  match j.fields? ["name", "constraint"] with
  | some [name, constraint] => do
    return .typeParameter (← Json.required? Json.string? name)
      (← Json.optional? TypeId.ofJson? constraint)
  | _ => none

def indexedAccessOfJson? (form : Json.Form) (j : Json) : Option Descriptor :=
  match Json.ownFields? form ["object", "index"] j with
  | some [target, index] => do
    return .indexedAccess (← Json.required? TypeId.ofJson? target)
      (← Json.required? TypeId.ofJson? index)
  | _ => none

def ofJson? (form : Json.Form) (j : Json) : Option Descriptor :=
  match j.choice? with
  | some ("intrinsic", some payload) =>
    (Json.word? form Intrinsic.ofKeyword? payload).map .intrinsic
  | some ("literal", some payload) => (LiteralValue.ofJson? payload).map .literal
  | some ("object", some payload) => (ObjectShape.ofJson? form payload).map .object
  | some ("array", some payload) => (TypeId.ofJson? payload).map .array
  | some ("tuple", some payload) => (Json.list? TypeId.ofJson? payload).map .tuple
  | some ("union", some payload) => (Json.list? TypeId.ofJson? payload).map .union
  | some ("intersection", some payload) => (Json.list? TypeId.ofJson? payload).map .intersection
  | some ("type_parameter", some payload) => typeParameterOfJson? payload
  | some ("indexed_access", some payload) => indexedAccessOfJson? form payload
  | _ => none

end Descriptor

def Table.toJson (t : Table) : Json :=
  .array (t.entries.toList.map Descriptor.toJson)

end ConditionLint
