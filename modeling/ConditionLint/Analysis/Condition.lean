import ConditionLint.Analysis.Element
import ConditionLint.Analysis.Finding

/-!
# Conditions

A condition is decided by the truth of its type. A negation swaps the verdict; a logical operator
is decided by its right operand alone, because its left operand is a condition of its own.
-/

set_option autoImplicit false

namespace ConditionLint

namespace Table

def truthVerdict? (t : Table) (type : TypeId) : Option Verdict :=
  if t.isNever type then some .never
  else if !t.isPossiblyTruthy type then some .alwaysFalsy
  else if !t.isPossiblyFalsy type then some .alwaysTruthy
  else none

end Table

namespace Program

/-- Judge a condition by its own type, without looking into it. -/
def judgeTruth (p : Program) (e : Expr) (negated : Bool) : Judgement :=
  match p.constrainedType? e with
  | none => .silent
  | some type =>
    if p.table.isIndeterminate type then .doubtful (.openCondition e.span type)
    else
      match p.table.truthVerdict? type with
      | none => .silent
      | some verdict =>
        .decided ⟨if negated then verdict.negate else verdict, e.span, some type⟩

/-- Judge a condition under an even or odd number of negations. The operand that decides a logical
operator is judged as it stands. -/
def judgeConditionUnder (p : Program) (negated : Bool) : Expr → Judgement
  | .unary _ .not operand => p.judgeConditionUnder (!negated) operand
  | .logical _ .and _ right | .logical _ .or _ right => p.judgeConditionUnder false right
  | e =>
    if p.readsElement e then .doubtful (.missingElement e.span)
    else p.judgeTruth e negated

def judgeCondition (p : Program) (e : Expr) : Judgement :=
  p.judgeConditionUnder false e

/-- The type of the expression is the literal `true`. -/
def isConstantTrue (p : Program) (e : Expr) : Bool :=
  (p.constrainedType? e).any p.table.isTrueLiteral

end Program

end ConditionLint
