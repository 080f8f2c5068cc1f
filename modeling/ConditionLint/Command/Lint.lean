import ConditionLint.Command.Arguments
import ConditionLint.Command.Dump
import ConditionLint.Command.Plan
import ConditionLint.Json.Write
import ConditionLint.Lint.ConfigFile
import ConditionLint.Lint.FixedSource
import ConditionLint.Log.Remark
import ConditionLint.Snippet.Render

/-!
# Linting dumps

The plan for linting: the configuration is read, the dumps are collected and linted one by one, the
diagnostics are printed, the fixes written, and the counts summed up. A dump that cannot be loaded
counts as one error and affects no other.
-/

set_option autoImplicit false

namespace ConditionLint.Command

open Files

def configName : String :=
  "condcheck.toml"

/-- The nearest configuration file, from the working directory upwards. -/
def World.nearestConfig? (w : World) : Option Path :=
  (w.files.ancestors.map fun names =>
    (FileTree.absolutePath names).child (Name.ofText configName)).find? w.files.isFile

def World.configPath? (w : World) (a : LintArguments) : Option Path :=
  match a.config with
  | some path => some path
  | none => w.nearestConfig?

def World.readConfig? (w : World) (path : Path) : Option Lint.Config :=
  match w.read path with
  | .ok text => Lint.Config.ofText? text
  | .error _ => none

structure FileResult where
  /-- The path of the source as the dump gives it. -/
  path : String
  sourcePath : Path
  source : String
  diagnostics : List Lint.Diagnostic
deriving Repr

inductive DumpResult where
  | linted (file : FileResult)
  | unloadable (fault : LoadFault)
deriving Repr

namespace DumpResult

def errors : DumpResult → Nat
  | linted file => Lint.countSeverity .error file.diagnostics
  | unloadable _ => 1

def warnings : DumpResult → Nat
  | linted file => Lint.countSeverity .warn file.diagnostics
  | unloadable _ => 0

def fixable : DumpResult → Nat
  | linted file => Lint.countFixable file.diagnostics
  | unloadable _ => 0

def file? : DumpResult → Option FileResult
  | linted file => if file.diagnostics.isEmpty then none else some file
  | unloadable _ => none

end DumpResult

structure DumpRun where
  effects : List Effect
  outcome : Except MissingOperator DumpResult

/-- Tell a problem that ends nothing. -/
def problem (colors : Bool) (message : String) : Effect :=
  .complain (Style.error.apply colors "error" ++ ": " ++ message ++ "\n")

def lintFile (config : Lint.Config) (dump : Path) (file : SourceFile) (p : Program) : DumpRun :=
  let trail := config.lint file p
  let remarks := trail.remarks.map fun remark => Effect.log (Log.ofRemark file.path p.table remark)
  match trail.outcome with
  | .ok ds =>
    ⟨remarks ++ [.log (Log.lintedFile file.path config.activeRules ds)],
      .ok (.linted ⟨file.path, sourcePath dump file.path, file.source, ds⟩)⟩
  | .error fault => ⟨remarks ++ [.complain (fault.message ++ "\n")], .error fault⟩

def World.lintDump (w : World) (config : Lint.Config) (colors : Bool) (dump : Path) : DumpRun :=
  match w.load dump with
  | .ok (file, p) => lintFile config dump file p
  | .error fault => ⟨[problem colors (fault.message dump)], .ok (.unloadable fault)⟩

/-- Dumps linted one after the other; a fault of the tokens ends the run. -/
def World.lintDumps (w : World) (config : Lint.Config) (colors : Bool) :
    List Path → List Effect × Except MissingOperator (List DumpResult)
  | [] => ([], .ok [])
  | dump :: rest =>
    let first := w.lintDump config colors dump
    match first.outcome with
    | .error fault => (first.effects, .error fault)
    | .ok result =>
      let (effects, later) := w.lintDumps config colors rest
      (first.effects ++ effects, later.map (result :: ·))

def FileResult.toJson (r : FileResult) : Json :=
  .object
    [("file", .string r.path), ("diagnostics", .array (r.diagnostics.map Lint.Diagnostic.toJson))]

def diagnosticsText (format : Format) (files : List FileResult) : String :=
  match format with
  | .json => (Json.array (files.map FileResult.toJson)).toText ++ "\n"
  | .pretty => String.join (files.map fun r => Snippet.render r.path r.source r.diagnostics)

def FileResult.fixed (r : FileResult) : Lint.FixedSource :=
  Lint.applyFixes r.source r.diagnostics

/-- The steps of fixing a file, which is written if a fix was applied. -/
def FileResult.fixEffects (r : FileResult) : List Effect :=
  let fixed := r.fixed
  (if fixed.skipped = 0 then [] else [.log (Log.skippedFixes r.path fixed.skipped)]) ++
    if fixed.applied = 0 then []
    else
      [.write r.sourcePath fixed.text, .log (Log.appliedFixes r.sourcePath.text fixed.applied)]

def total {α : Type} (part : α → Nat) (items : List α) : Nat :=
  items.foldr (fun item sum => part item + sum) 0

def plural (count : Nat) (noun : String) : String :=
  toString count ++ " " ++ noun ++ if count = 1 then "" else "s"

def fixedSentence (colors : Bool) (files : List FileResult) : String :=
  let applied (r : FileResult) : Nat := r.fixed.applied
  "\n" ++
    Style.success.apply colors
      ("Fixed " ++ plural (total applied files) "issue" ++ " in " ++
        plural (files.countP (0 < applied ·)) "file" ++ ".") ++ "\n"

def fixableSentence (colors : Bool) (fixable : Nat) : String :=
  "\n" ++
    Style.hint.apply colors
      (plural fixable "issue" ++ " auto-fixable. Run `condcheck lint --fix` to apply.") ++ "\n"

def summary (colors : Bool) (dumps errors warnings : Nat) : String :=
  let found :=
    if errors = 0 && warnings = 0 then Style.success.apply colors "no issues found."
    else
      (if errors = 0 then "" else Style.error.apply colors (plural errors "error")) ++
        (if errors = 0 || warnings = 0 then "" else ", ") ++
        (if warnings = 0 then "" else Style.warning.apply colors (plural warnings "warning")) ++ "."
  "\nLinted " ++ plural dumps "file" ++ ": " ++ found ++ "\n"

/-- The files that have diagnostics. -/
def reportedFiles (results : List DumpResult) : List FileResult :=
  results.filterMap DumpResult.file?

def fixSteps (a : LintArguments) (colors : Bool) (results : List DumpResult) : List Effect :=
  let files := reportedFiles results
  let isPretty := a.format == .pretty
  if total DumpResult.fixable results = 0 then []
  else if a.fix then
    files.flatMap FileResult.fixEffects ++
      if isPretty then [.print (fixedSentence colors files)] else []
  else if isPretty then [.print (fixableSentence colors (total DumpResult.fixable results))]
  else []

def reportSteps (a : LintArguments) (colors : Bool) (results : List DumpResult) : List Effect :=
  .print (diagnosticsText a.format (reportedFiles results)) :: fixSteps a colors results ++
    if a.format == .pretty then
      [.print (summary colors results.length (total DumpResult.errors results)
        (total DumpResult.warnings results))]
    else
      []

def resultCode (results : List DumpResult) : Nat :=
  if 0 < total DumpResult.errors results then failureCode else successCode

def World.planDumps (w : World) (a : LintArguments) (colors : Bool) (config : Lint.Config)
    (dumps : List Path) : Plan :=
  match w.lintDumps config colors dumps with
  | (effects, .error _) => ⟨effects, brokenCode⟩
  | (effects, .ok results) => ⟨effects ++ reportSteps a colors results, resultCode results⟩

def World.planLint (w : World) (a : LintArguments) (colors : Bool) (config : Lint.Config) : Plan :=
  match collect w.files a.paths with
  | .error fault => .failed [] fault.message
  | .ok [] => ⟨[problem colors "no .typed.json files found"], failureCode⟩
  | .ok dumps => w.planDumps a colors config dumps

def Plan.after (effects : List Effect) (plan : Plan) : Plan :=
  ⟨effects ++ plan.effects, plan.code⟩

def World.lint (w : World) (a : LintArguments) (colors : Bool) : Plan :=
  match w.configPath? a with
  | none => w.planLint a colors .default
  | some path =>
    let loading := [Effect.log (Log.loadingConfig path.text)]
    match w.readConfig? path with
    | some config => (w.planLint a colors config).after loading
    | none => .failed loading ("invalid configuration " ++ path.text)

end ConditionLint.Command
