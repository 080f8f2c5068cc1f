import ConditionLint.Proofs.Command.Disk
import ConditionLint.Proofs.Files.Parent

/-!
# Results of dumps

Dumps are linted one by one, and what is reported and written follows from what each of them comes
to by itself.
-/

set_option autoImplicit false

namespace ConditionLint

namespace Lint

end Lint

namespace Command

open Files

variable {w : World} {config : Lint.Config} {colors : Bool} {dump : Path} {paths : List Path}
  {results : List DumpResult} {s : Session}

/-!
## Dumps by themselves
-/

/-- Where a file is written, and its fixed text. -/
def FileResult.write (r : FileResult) : Path × String :=
  (r.sourcePath, r.fixed.text)

/-- What is told about fixes behind the diagnostics. -/
def fixNote (a : LintArguments) (colors : Bool) (results : List DumpResult) : String :=
  if total DumpResult.fixable results = 0 then ""
  else if a.format == .pretty then
    if a.fix then fixedSentence colors (reportedFiles results)
    else fixableSentence colors (total DumpResult.fixable results)
  else ""

/-- The last sentence, where there is one. -/
def summaryNote (a : LintArguments) (colors : Bool) (results : List DumpResult) : String :=
  if a.format == .pretty then
    summary colors results.length (total DumpResult.errors results)
      (total DumpResult.warnings results)
  else ""

/-- What is printed behind the diagnostics. -/
def closing (a : LintArguments) (colors : Bool) (results : List DumpResult) : String :=
  fixNote a colors results ++ summaryNote a colors results

end Command

end ConditionLint
