import ConditionLint.Analysis.Callback
import ConditionLint.Analysis.Comparison
import ConditionLint.Analysis.Nullish
import ConditionLint.Analysis.OptionalStep
import ConditionLint.Syntax.Visit

/-!
# Sites

A site is a place of a program that a check looks at. Every visit of the walk has the sites of its
own construct only, so the sites of a tree come in the order of the walk.
-/

set_option autoImplicit false

namespace ConditionLint

/-- A place that is judged. -/
inductive Site where
  /-- A condition that is not that of a loop. -/
  | condition (test : Expr)
  | loopCondition (test : Expr)
  | nullish (operand : Expr)
  | comparison (node : Node) (operator : BinaryOperator) (left right : Expr)
  | predicateCall (callee : Expr) (arguments : List Expr)
  | step (step : Expr)

def Expr.sites (e : Expr) : List Site :=
  match e with
  | .conditional _ test _ _ => [.condition test]
  | .logical _ .and left _ | .logical _ .or left _ => [.condition left]
  | .logical _ .nullish left _ => [.nullish left]
  | .assignment _ .logicalAnd left _ | .assignment _ .logicalOr left _ => [.condition left]
  | .assignment _ .nullish left _ => [.nullish left]
  | .binary node operator left right => [.comparison node operator left right]
  | .member _ _ _ _ => [.step e]
  | .call _ callee arguments _ => [.predicateCall callee arguments, .step e]
  | _ => []

def Stmt.sites (s : Stmt) : List Site :=
  match s with
  | .ifElse condition _ _ _ => [.condition condition]
  | _ => (s.loopTest?.map Site.loopCondition).toList

def Visit.sites : Visit → List Site
  | .expression e => e.sites
  | .statement s => s.sites
  | _ => []

def Program.judge (p : Program) (tokens : TokenStream) : Site → Except MissingOperator Judgement
  | .condition test | .loopCondition test => .ok (p.judgeCondition test)
  | .nullish operand => .ok (p.judgeNullish operand)
  | .comparison node operator left right => .ok (p.judgeComparison node operator left right)
  | .predicateCall callee arguments => .ok (p.judgePredicateCall callee arguments)
  | .step e => p.judgeStep tokens e

end ConditionLint
