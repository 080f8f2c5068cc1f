import ConditionLint.Program

/-!
# Where nullability comes from

With `a` of type `{ b: string } | undefined`, the access `a?.b` is nullable only because `a` is: no
member of the union declares a nullable `b`. Such a step passes the nullability of its base on and
must not be judged by the type of the property alone.
-/

set_option autoImplicit false

namespace ConditionLint

namespace Table

/-- Reading a key of a type that is no union can give a nullish value: the property that a literal
key names is nullable, or an index signature stands for it. -/
def keyMayBeNullish (t : Table) (object key : TypeId) : Bool :=
  match ((t.literal? key).bind LiteralValue.propertyName?).bind (t.propertyType? object) with
  | some property => t.isNullable property
  | none => (IndexKind.forKey? (t.kind? key).toList).any (t.indexKinds object).contains

def someKeyMayBeNullish (t : Table) (object key : TypeId) : Bool :=
  (t.unionParts key).any (t.keyMayBeNullish object)

def nameMayBeNullish (t : Table) (name : String) (object : TypeId) : Bool :=
  match t.propertyType? object name with
  | some property => t.isNullable property
  | none => (t.indexKinds object).contains .string

end Table

def Expr.isIdentifier : Expr → Bool
  | .identifier _ => true
  | _ => false

namespace Program

/-- Some member of the object type declares a nullish value for the key; none if the key cannot be
followed, because it is computed by more than a name or its type is unknown. -/
def declaresNullish? (p : Program) (object : TypeId) : MemberKey → Option Bool
  | .named name => some ((p.table.unionParts object).any (p.table.nameMayBeNullish name.name))
  | .computed key =>
    if key.isIdentifier then
      (p.constrainedType? key).map fun keyType =>
        (p.table.unionParts object).any (p.table.someKeyMayBeNullish · keyType)
    else
      none

/-- A member access is nullable only because its object is. -/
def inheritsFromObject (p : Program) (object : Expr) (key : MemberKey) : Bool :=
  match p.constrainedType? object with
  | none => false
  | some type =>
    p.table.isUnion type && p.declaresNullish? type key == some false && p.table.isNullable type

def returnsNullish (p : Program) (callee : TypeId) : Bool :=
  ((p.table.unionParts callee).flatMap p.table.callSignatures).any
    (p.table.isNullable ·.returnType)

/-- A call is nullable only because its callee is. -/
def inheritsFromCallee (p : Program) (callee : Expr) : Bool :=
  match p.constrainedType? callee with
  | none => false
  | some type => p.table.isUnion type && !p.returnsNullish type && p.table.isNullable type

end Program

end ConditionLint
