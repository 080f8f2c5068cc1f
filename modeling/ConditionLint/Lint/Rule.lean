import ConditionLint.Analysis.Finding
import ConditionLint.Json.Value
import ConditionLint.Lint.Severity

/-!
# The rule

What is said about the rule itself, and the message for each of its verdicts.
-/

set_option autoImplicit false

namespace ConditionLint

def Verdict.message : Verdict → String
  | .alwaysTruthy => "Unnecessary conditional, value is always truthy."
  | .alwaysFalsy => "Unnecessary conditional, value is always falsy."
  | .callbackAlwaysTruthy =>
    "This callback should return a conditional, but return is always truthy."
  | .callbackAlwaysFalsy =>
    "This callback should return a conditional, but return is always falsy."
  | .alwaysNullish =>
    "Unnecessary conditional, left-hand side of `??` operator is always `null` or `undefined`."
  | .neverNullish =>
    "Unnecessary conditional, expected left-hand side of `??` operator to be " ++
      "possibly null or undefined."
  | .never => "Unnecessary conditional, value is `never`."
  | .literalComparison =>
    "Unnecessary conditional, both sides of the expression are literal values."
  | .noOverlap => "Unnecessary conditional, the types have no overlap."
  | .redundantStep _ _ => "Unnecessary optional chain on a non-nullish value."

namespace Lint

inductive Category where
  | correctness
deriving DecidableEq, Repr, Inhabited

def Category.text : Category → String
  | .correctness => "correctness"

structure Rule where
  /-- The name that a configuration uses. -/
  name : String
  /-- The short name that diagnostics show. -/
  code : String
  description : String
  category : Category
  /-- The severity where the configuration gives none. -/
  severity : Severity
  /-- Some diagnostics of the rule have a fix. -/
  fixable : Bool
deriving DecidableEq, Repr, Inhabited

def fixedConditionRule : Rule where
  name := "no-unnecessary-condition"
  code := "L1101"
  description := "Disallow conditionals whose outcome is fixed by the types"
  category := .correctness
  severity := .warn
  fixable := true

def looseNullChecksMessage : String :=
  "This rule requires the `strictNullChecks` compiler option to be turned on to function correctly."

def Rule.toJson (r : Rule) : Json :=
  .object
    [("name", .string r.name), ("code", .string r.code), ("description", .string r.description),
      ("category", .string r.category.text), ("default_severity", .string r.severity.text),
      ("fixable", .bool r.fixable)]

end Lint

end ConditionLint
