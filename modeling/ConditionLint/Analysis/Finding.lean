import ConditionLint.Program

/-!
# Findings

A check looks at one site of a program. Either the types fix the outcome, which is a finding, or
the site stays undecided; where a doubt kept it so, the doubt is told.
-/

set_option autoImplicit false

namespace ConditionLint

inductive Verdict where
  | alwaysTruthy
  | alwaysFalsy
  | callbackAlwaysTruthy
  | callbackAlwaysFalsy
  | alwaysNullish
  | neverNullish
  | never
  | literalComparison
  | noOverlap
  /-- The optional step at `operator` may as well be spelled as `replacement`. -/
  | redundantStep (operator : Span) (replacement : String)
deriving DecidableEq, Repr, Inhabited

def Verdict.name : Verdict → String
  | .alwaysTruthy => "AlwaysTruthy"
  | .alwaysFalsy => "AlwaysFalsy"
  | .callbackAlwaysTruthy => "AlwaysTruthyFunc"
  | .callbackAlwaysFalsy => "AlwaysFalsyFunc"
  | .alwaysNullish => "AlwaysNullish"
  | .neverNullish => "NeverNullish"
  | .never => "Never"
  | .literalComparison => "LiteralComparison"
  | .noOverlap => "NoTypeOverlap"
  | .redundantStep _ _ => "RedundantOptionalStep"

def Verdict.negate : Verdict → Verdict
  | .alwaysTruthy => .alwaysFalsy
  | .alwaysFalsy => .alwaysTruthy
  | verdict => verdict

/-- A verdict, where it is reported, and the type it was read from if there is a single one. -/
structure Finding where
  verdict : Verdict
  span : Span
  type : Option TypeId
deriving DecidableEq, Repr, Inhabited

/-- Why a site that could have been decided was not. -/
inductive Doubt where
  | missingElement (condition : Span)
  | openCondition (condition : Span) (type : TypeId)
  | openOperand (operand : Span)
  /-- The operand has a type without nullish members, but the value may be missing. -/
  | missingValue (operand : Span)
  | afterElement (step : Span)
  | untypedBase (base : Span)
  | notCallable (callback : Span)
deriving DecidableEq, Repr, Inhabited

inductive Judgement where
  | decided (finding : Finding)
  | undecided (doubt : Option Doubt)
deriving DecidableEq, Repr, Inhabited

namespace Judgement

/-- Nothing to say about the site. -/
def silent : Judgement :=
  .undecided none

def doubtful (doubt : Doubt) : Judgement :=
  .undecided (some doubt)

def finding? : Judgement → Option Finding
  | .decided finding => some finding
  | .undecided _ => none

end Judgement

end ConditionLint
