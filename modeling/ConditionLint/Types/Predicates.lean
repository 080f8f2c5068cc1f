import ConditionLint.Types.Query

/-!
# What a type says about its values

Each predicate asks what the inhabitants of a type can be. "Possibly" errs towards yes: it holds
when some inhabitant could be so. Members of unions and intersections are first resolved to their
base constraints.
-/

set_option autoImplicit false

namespace ConditionLint.Table

/-- The union members of a type, where a generic member gives the members of its constraint. -/
def constrainedUnionParts (t : Table) (id : TypeId) : List TypeId :=
  (t.unionParts id).flatMap fun part => t.unionParts (t.constrained part)

/-- The intersection members of a type, each resolved to its constraint. -/
def constrainedIntersectionParts (t : Table) (id : TypeId) : List TypeId :=
  (t.intersectionParts id).map t.constrained

def isTruthyLiteral (t : Table) (id : TypeId) : Bool :=
  (t.literal? id).any LiteralValue.isTruthy

def isTrueLiteral (t : Table) (id : TypeId) : Bool :=
  t.literal? id == some (.boolean true)

/-- A type with falsy inhabitants only. -/
def isFalsy (t : Table) (id : TypeId) : Bool :=
  t.kindIn id [.undefined, .null, .void] || (t.literal? id).any (!·.isTruthy)

/-- Some inhabitant may be falsy. -/
def isPossiblyFalsy (t : Table) (id : TypeId) : Bool :=
  (t.constrainedUnionParts id).any fun part =>
    (t.constrainedIntersectionParts part).any fun constituent =>
      !t.isTruthyLiteral constituent && t.hasKind constituent Kind.possiblyFalsy

/-- Some inhabitant may be truthy. An intersection may be truthy only if none of its members is
falsy. -/
def isPossiblyTruthy (t : Table) (id : TypeId) : Bool :=
  (t.constrainedUnionParts id).any fun part =>
    (t.constrainedIntersectionParts part).all fun constituent => !t.isFalsy constituent

/-- The type `null` or `undefined` itself. -/
def isNullish (t : Table) (id : TypeId) : Bool :=
  t.kindIn id Kind.nullable

def isPossiblyNullish (t : Table) (id : TypeId) : Bool :=
  (t.constrainedUnionParts id).any t.isNullish

def isAlwaysNullish (t : Table) (id : TypeId) : Bool :=
  (t.constrainedUnionParts id).all t.isNullish

/-- A direct union member is nullish. -/
def isNullable (t : Table) (id : TypeId) : Bool :=
  t.hasKind id Kind.nullable

/-- A type with one value, on which a comparison can be evaluated. -/
def isBareLiteral (t : Table) (id : TypeId) : Bool :=
  t.isBooleanLiteral id || t.kindIn id [.undefined, .null, .void] || t.isLiteral id

/-- Some union member can be anything, or is still generic. -/
def isIndeterminate (t : Table) (id : TypeId) : Bool :=
  (t.constrainedUnionParts id).any fun part => t.kindIn part (.any :: .unknown :: Kind.typeVariable)

/-- The type `never`, or a union that holds it. -/
def isNever (t : Table) (id : TypeId) : Bool :=
  t.hasKind id [.never]

end ConditionLint.Table
