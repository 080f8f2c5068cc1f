import ConditionLint.Analysis.Finding

/-!
# Comparisons

A comparison is decided if both operand types have one value each, or, under strict null checks,
if it asks for `undefined` or `null` where the other type cannot be that.
-/

set_option autoImplicit false

namespace ConditionLint

namespace Table

def isOfKind (t : Table) (id : TypeId) (kind : Kind) : Bool :=
  t.kind? id == some kind

/-- A type may equal a value of the given kinds: it has such a member, or one that could be
anything. Loose equality takes `undefined`, `null` and `void` for equal. -/
def mayEqual (t : Table) (loose : Bool) (id : TypeId) (kinds : List Kind) : Bool :=
  t.hasKind id
    (kinds ++ .any :: .unknown :: Kind.typeVariable ++
      if loose then .void :: Kind.nullable else [])

/-- The first type is exactly `undefined` or exactly `null`, and the second cannot be. -/
def isNullishOutside (t : Table) (loose : Bool) (nullish other : TypeId) : Bool :=
  (t.isOfKind nullish .undefined && !t.mayEqual loose other [.undefined, .void]) ||
    (t.isOfKind nullish .null && !t.mayEqual loose other [.null])

def cannotOverlap (t : Table) (loose : Bool) (left right : TypeId) : Bool :=
  t.isNullishOutside loose left right || t.isNullishOutside loose right left

end Table

namespace Program

def comparisonVerdict? (p : Program) (operator : BinaryOperator) (left right : TypeId) :
    Option Verdict :=
  if p.table.isBareLiteral left && p.table.isBareLiteral right then some .literalComparison
  else if p.strictNullChecks && p.table.cannotOverlap operator.isLooseEquality left right then
    some .noOverlap
  else
    none

/-- Judge a binary operation; only comparisons are decided. -/
def judgeComparison (p : Program) (node : Node) (operator : BinaryOperator) (left right : Expr) :
    Judgement :=
  if operator.isComparison then
    match p.constrainedType? left, p.constrainedType? right with
    | some leftType, some rightType =>
      match p.comparisonVerdict? operator leftType rightType with
      | some verdict => .decided ⟨verdict, node.span, none⟩
      | none => .silent
    | _, _ => .silent
  else
    .silent

end Program

end ConditionLint
