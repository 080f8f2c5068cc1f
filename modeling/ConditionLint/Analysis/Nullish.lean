import ConditionLint.Analysis.Element
import ConditionLint.Analysis.Finding
import ConditionLint.Analysis.Origin

/-!
# Nullish operands

The left operand of `??` and `??=` is decided if its type has only nullish members or none. A type
without nullish members decides nothing where the value can be missing all the same.
-/

set_option autoImplicit false

namespace ConditionLint

/-- The expression asserts that its value is there. -/
def Expr.isNonNull : Expr → Bool
  | .nonNull _ _ => true
  | _ => false

namespace Program

/-- The value of the expression can be missing although its type does not say so. -/
def mayBeMissing (p : Program) (e : Expr) : Bool :=
  p.readsElement e ||
    match e with
    | .chain _ inner => !inner.isNonNull && p.passesElement inner
    | .member _ object key _ => p.inheritsFromObject object key
    | _ => false

/-- Judge the left operand of `??` or `??=`. -/
def judgeNullish (p : Program) (e : Expr) : Judgement :=
  match p.constrainedType? e with
  | none => .silent
  | some type =>
    if p.table.isIndeterminate type then .doubtful (.openOperand e.span)
    else if p.table.isNever type then .decided ⟨.never, e.span, some type⟩
    else if !p.table.isPossiblyNullish type then
      if p.mayBeMissing e then .doubtful (.missingValue e.span)
      else .decided ⟨.neverNullish, e.span, some type⟩
    else if p.table.isAlwaysNullish type then .decided ⟨.alwaysNullish, e.span, some type⟩
    else .silent

end Program

end ConditionLint
