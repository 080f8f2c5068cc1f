/-!
# Severities

How a diagnostic counts: not at all, as a warning, or as an error.
-/

set_option autoImplicit false

namespace ConditionLint.Lint

inductive Severity where
  | off
  | warn
  | error
deriving DecidableEq, Repr, Inhabited

namespace Severity

def text : Severity → String
  | off => "off"
  | warn => "warn"
  | error => "error"

/-- The severity of a name; warnings have two. -/
def ofText? : String → Option Severity
  | "off" => some off
  | "warn" | "warning" => some warn
  | "error" => some error
  | _ => none

theorem ofText?_text (s : Severity) : ofText? s.text = some s := by
  cases s <;> rfl

end Severity

end ConditionLint.Lint
