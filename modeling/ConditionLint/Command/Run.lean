import ConditionLint.Command.Lint

/-!
# The program

The plan for each thing that the program can be asked to do, and the files that have to be read for
it.
-/

set_option autoImplicit false

namespace ConditionLint.Command

open Files

def versionText : String :=
  "condcheck 0.1.0\n"

def helpText : String :=
  "Find conditions made unnecessary by their types\n\n" ++
  "Usage: condcheck lint [PATHS] [--format pretty|json] [--fix] [--config FILE] " ++
  "[--color auto|always|never]\n" ++
  "       condcheck rules\n" ++
  "       condcheck --help | --version\n"

def ruleText (colors : Bool) (rule : Lint.Rule) : String :=
  Style.strong.apply colors rule.code ++ "  " ++ rule.name ++
    Style.hint.apply colors
      ("  [" ++ rule.severity.text ++ (if rule.fixable then ", fixable" else "") ++ "]") ++
    "\n    " ++ rule.description ++ "\n"

def World.plan (w : World) (environment : Environment) : Option Invocation → Plan
  | none => ⟨[.complain helpText], usageCode⟩
  | some .help => ⟨[.print helpText], successCode⟩
  | some .version => ⟨[.print versionText], successCode⟩
  | some .rules =>
    ⟨[.print (ruleText (environment.hasColors none) Lint.fixedConditionRule)], successCode⟩
  | some (.lint a) => w.lint a (environment.hasColors a.color)

/-- The files whose texts linting needs: the configuration and the dumps. -/
def World.inputs (w : World) (a : LintArguments) : List Path :=
  (w.configPath? a).toList ++
    match collect w.files a.paths with
    | .ok dumps => dumps
    | .error _ => []

def Environment.filter (e : Environment) : Log.Filter :=
  Log.Filter.ofText (e.logFilter.getD "")

end ConditionLint.Command
