import ConditionLint.Types.Query
import ConditionLint.Text.Quoted

/-!
# Showing types

Types are shown in source syntax. Unions, intersections and functions get parentheses where they
stand inside another type; a union shows `boolean` for its two literals and ends with `null` and
`undefined`.
-/

set_option autoImplicit false

namespace ConditionLint

def LiteralValue.text : LiteralValue → String
  | string value => Text.quoted value
  | number value => value.toText
  | bigint digits => digits ++ "n"
  | boolean value => if value then "true" else "false"

def parenthesized (needed : Bool) (text : String) : String :=
  if needed then "(" ++ text ++ ")" else text

/-- The shown members of a union: `none` stands for `boolean`, in place of the first of its two
literals, and the nullish members come last. -/
def unionDisplayOrder (members : List TypeId) : List (Option TypeId) :=
  let isHalf (id : TypeId) : Bool :=
    members.contains .true && members.contains .false && (id == .true || id == .false)
  let plain := members.filter fun id => id != .null && id != .undefined
  let shown := plain.foldl (fun shown id =>
    if isHalf id then (if shown.contains none then shown else shown ++ [none])
    else shown ++ [some id]) []
  shown ++ ([TypeId.null, TypeId.undefined].filter members.contains).map some

def unionText (members : List TypeId) (textOf : TypeId → Bool → String) (nested : Bool) : String :=
  let shown := unionDisplayOrder members
  let texts := shown.map fun
    | some id => textOf id true
    | none => "boolean"
  parenthesized (nested && 1 < shown.length) (" | ".intercalate texts)

def functionText (signature : Signature) (textOf : TypeId → Bool → String) (nested : Bool) :
    String :=
  let params := signature.params.zipIdx.map fun (param, position) =>
    "arg" ++ toString position ++ ": " ++ textOf param false
  parenthesized nested
    ("(" ++ ", ".intercalate params ++ ") => " ++ textOf signature.returnType false)

/-- The texts of an object's properties, index signatures and call signatures. -/
def ObjectShape.memberTexts (shape : ObjectShape) (textOf : TypeId → Bool → String) :
    List String :=
  shape.properties.map (fun property => property.name ++ ": " ++ textOf property.type false) ++
    shape.indexSignatures.map (fun index =>
      "[key: " ++ index.key.keyword ++ "]: " ++ textOf index.type false) ++
    shape.callSignatures.map fun signature =>
      "(" ++ ", ".intercalate (signature.params.map (textOf · true)) ++ "): " ++
        textOf signature.returnType false

/-- The text of an object type. One with a single call signature and nothing else is shown as a
function. -/
def ObjectShape.text (shape : ObjectShape) (textOf : TypeId → Bool → String) (nested : Bool) :
    String :=
  match shape with
  | ⟨[], [], [signature]⟩ => functionText signature textOf nested
  | ⟨[], [], []⟩ => "\x7b\x7d"
  | shape => "\x7b " ++ "; ".intercalate (shape.memberTexts textOf) ++ " \x7d"

namespace Table

/-- The text of one descriptor, by the texts of the types it refers to. The truth value says
whether the type stands inside another one. -/
def displayStep (id : TypeId) (d : Option Descriptor) (answer : TypeId → Bool → String)
    (nested : Bool) : String :=
  match d with
  | none => id.text
  | some (.intrinsic keyword) => keyword.keyword
  | some (.literal value) => value.text
  | some (.array element) => answer element true ++ "[]"
  | some (.tuple elements) => "[" ++ ", ".intercalate (elements.map (answer · true)) ++ "]"
  | some (.union members) => unionText members answer nested
  | some (.intersection members) =>
    parenthesized nested (" & ".intercalate (members.map (answer · true)))
  | some (.object shape) => shape.text answer nested
  | some (.typeParameter name _) => name
  | some (.indexedAccess object index) => answer object true ++ "[" ++ answer index false ++ "]"

def display (t : Table) (id : TypeId) : String :=
  t.ask displayStep (fun _ => "") id false

end Table

def Composite.noun : Composite → String
  | .union => "union"
  | .intersection => "intersection"

def Irregularity.message : Irregularity → String
  | .fewerThanTwo => "fewer than two members"
  | .nested => "nested member of the same kind"
  | .never => "`never` member"

def TableFault.message : TableFault → String
  | .missingWellKnown size =>
    "type table has " ++ toString size ++ " entries, expected at least " ++
      toString wellKnown.length
  | .wellKnownMismatch index _ =>
    "type #" ++ toString index ++ " must be the well-known type `" ++
      Table.initial.display ⟨index⟩ ++ "`"
  | .danglingReference index target =>
    "type #" ++ toString index ++ " refers to " ++ target.text ++ ", which is not defined before it"
  | .unnormalized index composite irregularity =>
    "type #" ++ toString index ++ " is not a normalized " ++ composite.noun ++ ": " ++
      irregularity.message
  | .duplicate index first =>
    "type #" ++ toString index ++ " duplicates " ++ first.text

end ConditionLint
