import ConditionLint.Lint.Rule
import ConditionLint.Types.Display

/-!
# Diagnostics

A diagnostic is what the reader gets to see of a finding. It is made at the severity of its rule;
a run then sets the severity that the configuration asks for.
-/

set_option autoImplicit false

namespace ConditionLint.Lint

structure Fix where
  span : Span
  replacement : String
deriving DecidableEq, Repr, Inhabited

structure Diagnostic where
  rule : String
  code : String
  message : String
  span : Span
  severity : Severity
  fix : Option Fix
  notes : List String
deriving DecidableEq, Repr, Inhabited

def fixFor? : Verdict → Option Fix
  | .redundantStep operator replacement => some ⟨operator, replacement⟩
  | _ => none

namespace Diagnostic

/-- A diagnostic of the rule, without fix and notes. -/
def plain (message : String) (span : Span) : Diagnostic where
  rule := fixedConditionRule.name
  code := fixedConditionRule.code
  message := message
  span := span
  severity := fixedConditionRule.severity
  fix := none
  notes := []

/-- The diagnostic of a finding; its note shows the type that the verdict was read from. -/
def ofFinding (table : Table) (f : Finding) : Diagnostic :=
  { plain f.verdict.message f.span with
    fix := fixFor? f.verdict
    notes := (f.type.map fun type => "type is `" ++ table.display type ++ "`").toList }

/-- The diagnostic about a program without strict null checks, at the start of the file. -/
def looseNullChecks : Diagnostic :=
  plain looseNullChecksMessage ⟨0, 0, 1, 1⟩

def isFixable (d : Diagnostic) : Bool :=
  d.fix.isSome

end Diagnostic

def Fix.toJson (f : Fix) : Json :=
  .object [("span", f.span.toJson), ("replacement", .string f.replacement)]

/-- The written form of a diagnostic. A fix that is absent and an empty list of notes are left
out. -/
def Diagnostic.toJson (d : Diagnostic) : Json :=
  .object
    ([("rule", .string d.rule), ("code", .string d.code), ("message", .string d.message),
        ("span", d.span.toJson), ("severity", .string d.severity.text)] ++
      (d.fix.map fun fix => ("fix", fix.toJson)).toList ++
      if d.notes.isEmpty then [] else [("notes", .array (d.notes.map Json.string))])

def countSeverity (severity : Severity) (ds : List Diagnostic) : Nat :=
  ds.countP (·.severity == severity)

def countFixable (ds : List Diagnostic) : Nat :=
  ds.countP Diagnostic.isFixable

end ConditionLint.Lint
