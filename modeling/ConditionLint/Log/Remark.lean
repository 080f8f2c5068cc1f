import ConditionLint.Lint.Run
import ConditionLint.Log.Event

/-!
# Remarks as events

The course of a run as log events. Each remark is told by the part of the analysis that it comes
from.
-/

set_option autoImplicit false

namespace ConditionLint

def Span.detail (s : Span) : String :=
  "Span \x7b start: " ++ toString s.start ++ ", end: " ++ toString s.stop ++ ", line: " ++
    toString s.line ++ ", column: " ++ toString s.column ++ " \x7d"

def Verdict.detail (v : Verdict) : String :=
  match v with
  | .redundantStep operator replacement =>
    v.name ++ " \x7b operator: " ++ operator.detail ++ ", replacement: " ++
      Text.quoted replacement ++ " \x7d"
  | v => v.name

namespace Log

def conditionsPart : String :=
  "condcheck_engine::analysis::conditions"

def comparisonPart : String :=
  "condcheck_engine::analysis::comparison"

def optionalStepPart : String :=
  "condcheck_engine::analysis::optional_chain"

def callbackPart : String :=
  "condcheck_engine::analysis::predicate_callback"

def rulePart : String :=
  "condcheck_engine::linter::rules::no_unnecessary_condition"

def linterPart : String :=
  "condcheck_engine::linter"

def commandPart : String :=
  "condcheck::commands::lint"

def ofDoubt (table : Table) : Doubt → Event
  | .missingElement span =>
    ⟨.trace, conditionsPart, "array index access, elements may be missing", [("span", span.place)]⟩
  | .openCondition span type =>
    ⟨.trace, conditionsPart, "indeterminate condition type",
      [("span", span.place), ("ty", table.display type)]⟩
  | .openOperand span =>
    ⟨.trace, conditionsPart, "indeterminate nullish operand", [("span", span.place)]⟩
  | .missingValue span =>
    ⟨.trace, conditionsPart, "non-nullable type but value may be missing", [("span", span.place)]⟩
  | .afterElement span =>
    ⟨.trace, optionalStepPart, "optional step after an array index", [("span", span.place)]⟩
  | .untypedBase span =>
    ⟨.trace, optionalStepPart, "untyped optional chain base", [("span", span.place)]⟩
  | .notCallable span =>
    ⟨.trace, callbackPart, "predicate callback is not callable", [("span", span.place)]⟩

def ofRemark (file : String) (table : Table) : Lint.Remark → Event
  | .doubt doubt => ofDoubt table doubt
  | .comparison finding =>
    ⟨.trace, comparisonPart, "constant comparison",
      [("span", finding.span.place), ("verdict", finding.verdict.detail)]⟩
  | .allowedLoop span =>
    ⟨.trace, rulePart, "constant loop condition allowed", [("at", span.place)]⟩
  | .reported finding =>
    ⟨.debug, rulePart, "unnecessary condition",
      [("file", Text.quoted file), ("at", finding.span.place), ("verdict", finding.verdict.detail)]⟩

def lintedFile (file : String) (rules : Nat) (ds : List Lint.Diagnostic) : Event :=
  ⟨.debug, linterPart, "linted file",
    [("file", file), ("rules", toString rules), ("diagnostics", toString ds.length),
      ("fixable", toString (Lint.countFixable ds))]⟩

def loadingConfig (path : String) : Event :=
  ⟨.debug, commandPart, "loading lint configuration", [("config", path)]⟩

def skippedFixes (file : String) (skipped : Nat) : Event :=
  ⟨.debug, commandPart, "skipped overlapping fixes",
    [("file", file), ("skipped", toString skipped)]⟩

def appliedFixes (path : String) (applied : Nat) : Event :=
  ⟨.info, commandPart, "applied fixes", [("file", path), ("applied", toString applied)]⟩

end Log

end ConditionLint
