import ConditionLint.Lint.Config
import ConditionLint.Lint.Rule
import ConditionLint.Toml.Read

/-!
# Configuration files

A configuration file has a table `lint`, in which `rules` gives severities by rule name and a table
named for the rule gives its options. Keys that are not known are skipped, except among the options.
A table may also be written as an array of its values in order, and a date in the place of a table
counts as one with a single unknown key.
-/

set_option autoImplicit false

namespace ConditionLint.Lint

open Toml

/-- The values of a table's keys, absent where it does not give them, and whether it has no other
keys. -/
structure Record where
  values : List (Option Value)
  isClosed : Bool

def record? (names : List String) : Value → Option Record
  | .table _ entries =>
    some ⟨names.map fun name => entries.lookup name,
      entries.all fun entry => names.contains entry.1⟩
  | .array items => some ⟨(List.range names.length).map fun i => items[i]?, true⟩
  | .tables elements =>
    some ⟨(List.range names.length).map fun i => elements[i]?.map (Value.table .header), true⟩
  | .datetime _ => some ⟨names.map fun _ => none, false⟩
  | _ => none

def isEmptyContainer : Value → Bool
  | .array [] | .tables [] | .table _ [] => true
  | _ => false

/-- Read a severity: its name, or a table that has the name as its only key, with an empty
container under it. -/
def severity? : Value → Option Severity
  | .string name => Severity.ofText? name
  | .table _ [(name, payload)] => if isEmptyContainer payload then Severity.ofText? name else none
  | _ => none

def overrides? : Value → Option (List (String × Severity))
  | .table _ entries => entries.mapM fun (name, value) => (severity? value).map (name, ·)
  | _ => none

/-- Read a switch that is off where it is not given. -/
def switch? : Option Value → Option Bool
  | none => some false
  | some (.boolean value) => some value
  | some _ => none

def allowConstantLoopsKey : String :=
  "allow-constant-loop-conditions"

def allowLooseNullChecksKey : String :=
  "allow-rule-to-run-without-strict-null-checks-i-know-what-i-am-doing"

/-- Read the options of the rule, which have no other keys. -/
def options? (value : Value) : Option Options := do
  let found ← record? [allowConstantLoopsKey, allowLooseNullChecksKey] value
  guard found.isClosed
  match found.values with
  | [loops, nullChecks] => return ⟨← switch? loops, ← switch? nullChecks⟩
  | _ => none

def valueOr? {α : Type} (unset : α) (read : Value → Option α) : Option Value → Option α
  | none => some unset
  | some value => read value

def lintTable? (value : Value) : Option Config := do
  let found ← record? ["rules", fixedConditionRule.name] value
  match found.values with
  | [rules, options] =>
    return ⟨← valueOr? [] overrides? rules, ← valueOr? Options.default options? options⟩
  | _ => none

def Config.ofEntries? (entries : Entries) : Option Config :=
  valueOr? Config.default lintTable? (entries.lookup "lint")

def Config.ofText? (text : String) : Option Config :=
  (Toml.ofText? text).bind Config.ofEntries?

end ConditionLint.Lint
