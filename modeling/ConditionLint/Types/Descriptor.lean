import ConditionLint.Decimal.Shortest
import ConditionLint.Decimal.Read

/-!
# Type descriptors

A descriptor says what one type is and refers to other types by id. `references` lists these ids
in reading order. Literal values carry the facts that conditions need: whether the value counts as
true, and which property it names.
-/

set_option autoImplicit false

namespace ConditionLint

open Decimal

/-- The place of a type in its table. The limit of ids to 32 bits is left out: a place is any
number, which agrees with the id as long as the table has at most `2 ^ 32` entries. -/
structure TypeId where
  index : Nat
deriving DecidableEq, Hashable, Repr, Inhabited

namespace TypeId

def any : TypeId := ⟨0⟩
def unknown : TypeId := ⟨1⟩
def never : TypeId := ⟨2⟩
def void : TypeId := ⟨3⟩
def undefined : TypeId := ⟨4⟩
def null : TypeId := ⟨5⟩
def string : TypeId := ⟨6⟩
def number : TypeId := ⟨7⟩
def bigint : TypeId := ⟨8⟩
def symbol : TypeId := ⟨9⟩
def true : TypeId := ⟨10⟩
def false : TypeId := ⟨11⟩
/-- The type `boolean`, which is the union of its two literals. -/
def boolean : TypeId := ⟨12⟩
def object : TypeId := ⟨13⟩

/-- The name of an id where no descriptor can be shown. -/
def text (id : TypeId) : String :=
  "#" ++ toString id.index

def ofBool (value : Bool) : TypeId :=
  bif value then TypeId.true else TypeId.false

end TypeId

inductive Intrinsic where
  | any
  | unknown
  | never
  | void
  | undefined
  | null
  | string
  | number
  | bigint
  | symbol
  | object
deriving DecidableEq, Hashable, Repr, Inhabited

def Intrinsic.keyword : Intrinsic → String
  | .any => "any"
  | .unknown => "unknown"
  | .never => "never"
  | .void => "void"
  | .undefined => "undefined"
  | .null => "null"
  | .string => "string"
  | .number => "number"
  | .bigint => "bigint"
  | .symbol => "symbol"
  | .object => "object"

/-- The value of a literal type. A bigint is kept as its digits. -/
inductive LiteralValue where
  | string (value : String)
  | number (value : Binary64)
  | bigint (digits : String)
  | boolean (value : Bool)
deriving DecidableEq, Hashable, Repr, Inhabited

/-- A bigint text denotes a number other than zero: behind its minus signs some digit is not
zero. -/
def bigintIsTruthy (digits : List Char) : Bool :=
  (digits.dropWhile (· == '-')).any (· != '0')

namespace LiteralValue

def isTruthy : LiteralValue → Bool
  | string value => !value.isEmpty
  | number value => !value.isZero && !value.isNaN
  | bigint digits => bigintIsTruthy digits.toList
  | boolean value => value

/-- The property that the value names as a key. -/
def propertyName? : LiteralValue → Option String
  | string value => some value
  | number value => some value.toText
  | bigint _ | boolean _ => none

end LiteralValue

inductive IndexKind where
  | string
  | number
  | symbol
deriving DecidableEq, Hashable, Repr, Inhabited

def IndexKind.keyword : IndexKind → String
  | .string => "string"
  | .number => "number"
  | .symbol => "symbol"

structure Property where
  name : String
  type : TypeId
deriving DecidableEq, Hashable, Repr, Inhabited

structure IndexSignature where
  key : IndexKind
  type : TypeId
deriving DecidableEq, Hashable, Repr, Inhabited

structure Signature where
  params : List TypeId
  returnType : TypeId
deriving DecidableEq, Hashable, Repr, Inhabited

structure ObjectShape where
  properties : List Property
  indexSignatures : List IndexSignature
  callSignatures : List Signature
deriving DecidableEq, Hashable, Repr, Inhabited

inductive Descriptor where
  | intrinsic (keyword : Intrinsic)
  | literal (value : LiteralValue)
  | object (shape : ObjectShape)
  | array (element : TypeId)
  | tuple (elements : List TypeId)
  | union (members : List TypeId)
  | intersection (members : List TypeId)
  | typeParameter (name : String) (constraint : Option TypeId)
  | indexedAccess (object index : TypeId)
deriving DecidableEq, Hashable, Repr, Inhabited

/-- The ids in an object type: of properties, index signatures, then parameters and result of
each call signature. -/
def ObjectShape.references (shape : ObjectShape) : List TypeId :=
  shape.properties.map Property.type ++ shape.indexSignatures.map IndexSignature.type ++
    shape.callSignatures.flatMap fun signature => signature.params ++ [signature.returnType]

def Descriptor.references : Descriptor → List TypeId
  | intrinsic _ | literal _ => []
  | object shape => shape.references
  | array element => [element]
  | tuple members | union members | intersection members => members
  | typeParameter _ constraint => constraint.toList
  | indexedAccess target index => [target, index]

/-- The descriptors of the ids that every table starts with. -/
def wellKnown : List Descriptor :=
  [.intrinsic .any, .intrinsic .unknown, .intrinsic .never, .intrinsic .void,
    .intrinsic .undefined, .intrinsic .null, .intrinsic .string, .intrinsic .number,
    .intrinsic .bigint, .intrinsic .symbol, .literal (.boolean true), .literal (.boolean false),
    .union [.true, .false], .intrinsic .object]

end ConditionLint
