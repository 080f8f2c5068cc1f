import ConditionLint.Types.Descriptor

/-!
# Kinds of types

Every descriptor has one kind. Questions about a type ask whether its kind, or the kind of one of
its union members, is in a set. A set of kinds is also written as a bit mask, each kind having its
own bit.
-/

set_option autoImplicit false

namespace ConditionLint

/-- The kind of a type. No descriptor has the kind `boolean`, because `boolean` is a union. -/
inductive Kind where
  | any
  | unknown
  | string
  | number
  | boolean
  | bigint
  | stringLiteral
  | numberLiteral
  | booleanLiteral
  | bigintLiteral
  | symbol
  | void
  | undefined
  | null
  | never
  | typeParameter
  | object
  | union
  | intersection
  | indexedAccess
  | nonPrimitive
deriving DecidableEq, Repr, Inhabited

namespace Kind

def all : List Kind :=
  [any, unknown, string, number, boolean, bigint, stringLiteral, numberLiteral, booleanLiteral,
    bigintLiteral, symbol, void, undefined, null, never, typeParameter, object, union,
    intersection, indexedAccess, nonPrimitive]

def bit (k : Kind) : Nat :=
  1 <<< all.idxOf k

def mask (kinds : List Kind) : Nat :=
  (all.filter (kinds.contains ·)).foldr (fun k bits => k.bit + bits) 0

/-- The kinds whose bits are set; other bits are dropped. -/
def ofMask (bits : Nat) : List Kind :=
  all.filter fun k => bits / k.bit % 2 = 1

/-- The kinds `null` and `undefined`. -/
def nullable : List Kind :=
  [null, undefined]

/-- Kinds of types that are only known once they are instantiated. -/
def typeVariable : List Kind :=
  [typeParameter, indexedAccess]

/-- Kinds of types that have a falsy inhabitant. A literal counts as falsy here. -/
def possiblyFalsy : List Kind :=
  [stringLiteral, numberLiteral, bigintLiteral, booleanLiteral, void, undefined, null, string,
    number, bigint, boolean]

end Kind

def Intrinsic.kind : Intrinsic → Kind
  | any => .any
  | unknown => .unknown
  | never => .never
  | void => .void
  | undefined => .undefined
  | null => .null
  | string => .string
  | number => .number
  | bigint => .bigint
  | symbol => .symbol
  | object => .nonPrimitive

def LiteralValue.kind : LiteralValue → Kind
  | string _ => .stringLiteral
  | number _ => .numberLiteral
  | bigint _ => .bigintLiteral
  | boolean _ => .booleanLiteral

def Descriptor.kind : Descriptor → Kind
  | intrinsic keyword => keyword.kind
  | literal value => value.kind
  | object _ | array _ | tuple _ => .object
  | union _ => .union
  | intersection _ => .intersection
  | typeParameter _ _ => .typeParameter
  | indexedAccess _ _ => .indexedAccess

/-- The kind of index signature that a key selects, by the kinds the key has. -/
def IndexKind.forKey? (kinds : List Kind) : Option IndexKind :=
  if kinds.any (· ∈ [.string, .stringLiteral]) then some .string
  else if kinds.any (· ∈ [.number, .numberLiteral]) then some .number
  else if kinds.any (· ∈ [.symbol]) then some .symbol
  else none

end ConditionLint
