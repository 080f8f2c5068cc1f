import ConditionLint.Types.Table

/-!
# Questions about types

Answers about an id come from its descriptor and from the answers about the ids it refers to.
`descend` is that scheme once for all questions: `step` answers for one descriptor and may ask
about other ids. In a table whose entries refer to earlier ones only, no chain of questions is
longer than the table, so the limit that `ask` sets is never met.
-/

set_option autoImplicit false

namespace ConditionLint

namespace Table

/-- The answer for an id, going at most `levels` entries deep; `stuck` is the answer beyond. -/
def descend {α : Type} (t : Table) (step : TypeId → Option Descriptor → (TypeId → α) → α)
    (stuck : α) : Nat → TypeId → α
  | 0, _ => stuck
  | levels + 1, id => step id (t.get? id) (t.descend step stuck levels)

/-- The answer for an id, with a limit that holds every chain of different ids. -/
def ask {α : Type} (t : Table) (step : TypeId → Option Descriptor → (TypeId → α) → α)
    (stuck : α) (id : TypeId) : α :=
  t.descend step stuck (t.size + 1) id

def kinds (t : Table) (id : TypeId) : List Kind :=
  (t.unionParts id).filterMap t.kind?

def kindIn (t : Table) (id : TypeId) (set : List Kind) : Bool :=
  (t.kind? id).any (· ∈ set)

def hasKind (t : Table) (id : TypeId) (set : List Kind) : Bool :=
  (t.kinds id).any (· ∈ set)

def isUnion (t : Table) (id : TypeId) : Bool :=
  t.kindIn id [.union]

/-- The type is a string, number or bigint literal. -/
def isLiteral (t : Table) (id : TypeId) : Bool :=
  t.kindIn id [.stringLiteral, .numberLiteral, .bigintLiteral]

def isBooleanLiteral (t : Table) (id : TypeId) : Bool :=
  t.kindIn id [.booleanLiteral]

def isArray (t : Table) (id : TypeId) : Bool :=
  match t.get? id with
  | some (.array _) => true
  | _ => false

def isTuple (t : Table) (id : TypeId) : Bool :=
  match t.get? id with
  | some (.tuple _) => true
  | _ => false

def literal? (t : Table) (id : TypeId) : Option LiteralValue :=
  match t.get? id with
  | some (.literal value) => some value
  | _ => none

/-- The position that a property name denotes: digits, after at most one plus sign, of a number
that fits 64 bits. -/
def position? (name : String) : Option Nat :=
  let digits :=
    match name.toList with
    | '+' :: rest => rest
    | cs => cs
  if !digits.isEmpty && digits.all Char.isDigit &&
      Decimal.digitsValue digits < Decimal.wordLimit then
    some (Decimal.digitsValue digits)
  else
    none

def lengthType? (name : String) : Option TypeId :=
  if name = "length" then some .number else none

/-- The declared type of a property: of objects, arrays, tuples and strings, of the first member
of an intersection that has it, and of the constraint of a type parameter. -/
def propertyStep (name : String) (_ : TypeId) (d : Option Descriptor)
    (answer : TypeId → Option TypeId) : Option TypeId :=
  match d with
  | some (.object shape) => (shape.properties.find? (·.name == name)).map Property.type
  | some (.array _) => lengthType? name
  | some (.tuple elements) =>
    lengthType? name <|> (position? name).bind fun position => elements[position]?
  | some (.intrinsic .string) | some (.literal (.string _)) => lengthType? name
  | some (.intersection members) => members.findSome? answer
  | some (.typeParameter _ (some constraint)) => answer constraint
  | _ => none

def propertyType? (t : Table) (id : TypeId) (name : String) : Option TypeId :=
  t.ask (propertyStep name) none id

def distinct (kinds : List IndexKind) : List IndexKind :=
  kinds.foldl (fun found kind => if found.contains kind then found else found ++ [kind]) []

/-- The key kinds of an object's index signatures, of arrays and tuples, and of the members of an
intersection. -/
def indexKindsStep (_ : TypeId) (d : Option Descriptor) (answer : TypeId → List IndexKind) :
    List IndexKind :=
  match d with
  | some (.object shape) => shape.indexSignatures.map IndexSignature.key
  | some (.array _) | some (.tuple _) => [.number]
  | some (.intersection members) => distinct (members.flatMap answer)
  | _ => []

def indexKinds (t : Table) (id : TypeId) : List IndexKind :=
  t.ask indexKindsStep [] id

/-- The value type of an index signature: of objects, of arrays, and of the first member of an
intersection that has it. A tuple has none, since its elements differ. -/
def indexStep (kind : IndexKind) (_ : TypeId) (d : Option Descriptor)
    (answer : TypeId → Option TypeId) : Option TypeId :=
  match d with
  | some (.object shape) =>
    (shape.indexSignatures.find? (·.key == kind)).map IndexSignature.type
  | some (.array element) => if kind = .number then some element else none
  | some (.intersection members) => members.findSome? answer
  | _ => none

def indexType? (t : Table) (id : TypeId) (kind : IndexKind) : Option TypeId :=
  t.ask (indexStep kind) none id

/-- The signatures of all members, or none at all if one member has none. -/
def allCallable (members : List (List Signature)) : List Signature :=
  if members.any List.isEmpty then [] else members.flatten

/-- The call signatures of objects, of the members of an intersection, of a union whose members
are all callable, and of the constraint of a type parameter. -/
def callSignaturesStep (_ : TypeId) (d : Option Descriptor) (answer : TypeId → List Signature) :
    List Signature :=
  match d with
  | some (.object shape) => shape.callSignatures
  | some (.intersection members) => members.flatMap answer
  | some (.union members) => allCallable (members.map answer)
  | some (.typeParameter _ (some constraint)) => answer constraint
  | _ => []

def callSignatures (t : Table) (id : TypeId) : List Signature :=
  t.ask callSignaturesStep [] id

/-- The type that reading a key from an object gives: the property that a literal key names, or
else the value type of the index signature that the key selects. -/
def accessType? (t : Table) (object key : TypeId) : Option TypeId :=
  let declared := ((t.literal? key).bind LiteralValue.propertyName?).bind (t.propertyType? object)
  declared <|> (IndexKind.forKey? (t.kind? key).toList).bind (t.indexType? object)

/-- The base constraint of a type parameter is that of its constraint, or the constraint itself;
that of an indexed access is what it reads once its object and index are resolved. -/
def baseConstraintStep (t : Table) (_ : TypeId) (d : Option Descriptor)
    (answer : TypeId → Option TypeId) : Option TypeId :=
  match d with
  | some (.typeParameter _ (some constraint)) => some ((answer constraint).getD constraint)
  | some (.indexedAccess object index) =>
    t.accessType? ((answer object).getD object) ((answer index).getD index)
  | _ => none

def baseConstraint? (t : Table) (id : TypeId) : Option TypeId :=
  t.ask t.baseConstraintStep none id

/-- A type, or its base constraint if it has one. -/
def constrained (t : Table) (id : TypeId) : TypeId :=
  (t.baseConstraint? id).getD id

end Table

end ConditionLint
