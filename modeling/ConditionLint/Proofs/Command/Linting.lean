import ConditionLint.Proofs.Command.Dumps
import ConditionLint.Proofs.Command.Results
import ConditionLint.Proofs.Lint.FlaggedSteps
import ConditionLint.Proofs.TypedSource.RoundTrip

/-!
# What linting comes to

The code of a run, what it prints and the files that it writes follow from what its dumps come to by
themselves, in the order of the dumps. Neither fixing nor the format has a share in the code.
-/

set_option autoImplicit false

namespace ConditionLint.Command

open Files

variable {w : World} {e : Environment} {a : LintArguments} {config : Lint.Config}
  {colors : Bool} {dump : Path} {paths : List Path} {results : List DumpResult}

/-!
## Runs
-/

/-- The dumps that are collected; none where a path is neither there nor a pattern. -/
def World.dumps (w : World) (a : LintArguments) : List Path :=
  match collect w.files a.paths with
  | .ok dumps => dumps
  | .error _ => []

/-- Linting as it is asked for by arguments. -/
def World.runLint (w : World) (e : Environment) (a : LintArguments) : Nat × Session :=
  w.run (w.plan e (some (.lint a)))

namespace TwoDumps

/-!
Fixing what two dumps are about: one for `o?.p?.[0]`, where both steps are flagged on the same
token, and one that is no text.
-/

def types : Json :=
  .array (wellKnown.map Descriptor.toJson)

def nodeTypes : Json :=
  .array [.array [.nat 0, .nat 13], .array [.nat 2, .nat 13]]

/-- The chain as the dump writes it. -/
def chain : Json :=
  .object [("member", .array
    [.nat 4,
      .object [("member", .array
        [.nat 2,
          .object [("identifier", .array
            [.nat 0, .string "o", .array [.nat 0, .nat 1, .nat 1, .nat 1]])],
          .object [("identifier", .array
            [.nat 1, .string "p", .array [.nat 3, .nat 4, .nat 1, .nat 4]])],
          .bool true, .array [.nat 0, .nat 4, .nat 1, .nat 1]])],
      .object [("computed", .object [("literal", .array
        [.nat 3, .object [("number", .nat 0)], .array [.nat 7, .nat 8, .nat 1, .nat 8]])])],
      .bool true, .array [.nat 0, .nat 9, .nat 1, .nat 1]])]

def fileMembers : List (String × Json) :=
  [("path", .string "twice.ts"), ("source", .string "o?.p?.[0];"),
    ("module", .array
      [.array [.object [("expression", .array
          [chain, .array [.nat 0, .nat 10, .nat 1, .nat 1]])]],
        .array [.nat 0, .nat 10, .nat 1, .nat 1]]),
    ("tokens", .array [.array
      [.string "punctuator", .string "?.", .array [.nat 4, .nat 6, .nat 1, .nat 5]]])]

def text : String :=
  "\x7b\"path\": \"twice.ts\", \"source\": \"o?.p?.[0];\", \"module\": [[\x7b\"expression\": [
      \x7b\"member\": [4, \x7b\"member\": [2, \x7b\"identifier\": [0, \"o\", [0, 1, 1, 1]]\x7d,
          \x7b\"identifier\": [1, \"p\", [3, 4, 1, 4]]\x7d, true, [0, 4, 1, 1]]\x7d,
        \x7b\"computed\": \x7b\"literal\": [3, \x7b\"number\": 0\x7d, [7, 8, 1, 8]]\x7d\x7d, true,
        [0, 9, 1, 1]]\x7d, [0, 10, 1, 1]]\x7d], [0, 10, 1, 1]],
    \"tokens\": [[\"punctuator\", \"?.\", [4, 6, 1, 5]]],
    \"types\": [\x7b\"intrinsic\": \"any\"\x7d, \x7b\"intrinsic\": \"unknown\"\x7d,
      \x7b\"intrinsic\": \"never\"\x7d, \x7b\"intrinsic\": \"void\"\x7d,
      \x7b\"intrinsic\": \"undefined\"\x7d, \x7b\"intrinsic\": \"null\"\x7d,
      \x7b\"intrinsic\": \"string\"\x7d, \x7b\"intrinsic\": \"number\"\x7d,
      \x7b\"intrinsic\": \"bigint\"\x7d, \x7b\"intrinsic\": \"symbol\"\x7d,
      \x7b\"literal\": \x7b\"boolean\": true\x7d\x7d,
      \x7b\"literal\": \x7b\"boolean\": false\x7d\x7d, \x7b\"union\": [10, 11]\x7d,
      \x7b\"intrinsic\": \"object\"\x7d],
    \"node_types\": [[0, 13], [2, 13]]\x7d"

def source : TypedSource :=
  ⟨Twice.file, true, .ofList wellKnown, [⟨⟨0⟩, .object⟩, ⟨⟨2⟩, .object⟩]⟩

set_option maxRecDepth 10000 in
private theorem objectOfText_text : Json.objectOfText text =
    ⟨fileMembers ++ [("types", types), ("node_types", nodeTypes)], true⟩ := by
  have spelled : text.toList = _ := String.toList_ofList
  rw [Json.objectOfText, spelled]
  rfl

private theorem ofList_operator : TokenStream.ofList [Twice.operator] = Twice.file.tokens := by
  simp [TokenStream.ofList, Twice.file]

private theorem ofMembers?_fileMembers : SourceFile.ofMembers? fileMembers = some Twice.file := by
  have file : SourceFile.ofMembers? fileMembers =
      some { Twice.file with tokens := .ofList [Twice.operator] } := rfl
  rw [file, ofList_operator]

private theorem ofText_text : TypedSource.ofText text = .ok source := by
  have read : types.list? (Descriptor.ofJson? .document) = some wellKnown := by decide +kernel
  have accepted : Table.ofDescriptors? wellKnown = .ok source.table :=
    Table.ofDescriptors?_eq_ok_iff.mpr ⟨by decide, by decide, rfl⟩
  have typed : TypedSource.Draft.add ⟨none, none, none, fileMembers.reverse⟩ "types" types =
      .ok ⟨none, some source.table, none, fileMembers.reverse⟩ :=
    TypedSource.Draft.add_types rfl read accepted
  have judged : TypedSource.Draft.empty.addAll
      (fileMembers ++ [("types", types), ("node_types", nodeTypes)]) =
      .ok ⟨none, some source.table, some source.nodeTypes, fileMembers.reverse⟩ := by
    change (TypedSource.Draft.add ⟨none, none, none, fileMembers.reverse⟩ "types" types).bind _ = _
    rw [typed]
    rfl
  rw [TypedSource.ofText, objectOfText_text, TypedSource.ofReading_eq, judged]
  exact TypedSource.Draft.finish_eq ofMembers?_fileMembers

private theorem program_source : source.program = .ok Twice.program := rfl

def chainDump : Path :=
  .ofText "src/one.typed.json"

def otherDump : Path :=
  .ofText "two.typed.json"

def world : World where
  files :=
    ⟨.directory
      [(.ofText "src", .directory [(.ofText "one.typed.json", .file)]),
        (.ofText "two.typed.json", .file)], []⟩
  read := fun q => if q = chainDump then .ok text else .error .notText

def arguments : LintArguments where
  paths := ["src/one.typed.json", "two.typed.json"]
  format := .pretty
  fix := true
  config := none
  color := none

def environment : Environment :=
  ⟨true, none, none⟩

private theorem dumps : world.dumps arguments = [chainDump, otherDump] := by
  have each : dumpsOfEach world.files arguments.paths = .ok [chainDump, otherDump] := by
    decide +kernel
  have ordered : [chainDump, otherDump].mergeSort Path.le = [chainDump, otherDump] :=
    List.mergeSort_of_pairwise (by decide +kernel)
  rw [World.dumps, collect, each]
  simp only [Except.map, ordered]
  decide +kernel

def fixes : List Lint.Fix :=
  [⟨Twice.operator.span, ""⟩, ⟨Twice.operator.span, "."⟩]

end TwoDumps

end ConditionLint.Command
