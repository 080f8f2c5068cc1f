import ConditionLint.Lint.Severity

/-!
# Configuration

A configuration overrides the severity of rules and sets the options of the one rule there is.
-/

set_option autoImplicit false

namespace ConditionLint.Lint

structure Options where
  /-- A loop whose condition has the type `true` is left alone. -/
  allowConstantLoops : Bool
  /-- A program without strict null checks is accepted without a word. -/
  allowLooseNullChecks : Bool
deriving DecidableEq, Repr, Inhabited

def Options.default : Options :=
  ⟨false, false⟩

/-- Severities by rule name, the latest first, and options. -/
structure Config where
  overrides : List (String × Severity)
  options : Options
deriving DecidableEq, Repr, Inhabited

namespace Config

def default : Config :=
  ⟨[], .default⟩

def setSeverity (c : Config) (rule : String) (severity : Severity) : Config :=
  { c with overrides := (rule, severity) :: c.overrides }

/-- The severity of a rule, with a value for when it is not set. -/
def severityOf (c : Config) (rule : String) (unset : Severity) : Severity :=
  (c.overrides.lookup rule).getD unset

def isDisabled (c : Config) (rule : String) : Bool :=
  c.overrides.lookup rule == some .off

end Config

end ConditionLint.Lint
