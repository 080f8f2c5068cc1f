import ConditionLint.Files.Search
import ConditionLint.TypedSource

/-!
# Dumps

A dump is a file with a typed source. Dumps are collected from the paths on the command line: a
file is taken whatever its name, a directory stands for the dumps below it, and anything else is a
pattern that stands for the dumps it leads to.
-/

set_option autoImplicit false

namespace ConditionLint.Command

open Files

inductive ReadFault where
  /-- It holds bytes that are no text. -/
  | notText
  | refused (reason : String)
deriving DecidableEq, Repr

def ReadFault.reason : ReadFault → String
  | .notText => "stream did not contain valid UTF-8"
  | .refused reason => reason

/-- What the program can see: the names of files, and their texts. -/
structure World where
  files : FileTree
  read : Path → Except ReadFault String

def dumpEnding : String :=
  ".typed.json"

/-- The path has the name of a dump, which is text. -/
def isDump (p : Path) : Bool :=
  (p.fileName?.bind Name.text?).any (·.endsWith dumpEnding)

/-- The dumps that one path on the command line stands for; none at all if it is no pattern. -/
def dumpsOf? (t : FileTree) (argument : String) : Option (List Path) :=
  let path := Path.ofText argument
  match t.entry? path with
  | some .file => some [path]
  | some (.directory entries) => some (filesAmong isDump path entries)
  | none => (glob? t argument).map fun found => found.filter fun p => t.isFile p && isDump p

/-- The paths without those that are the same as the one before. -/
def withoutRepeats : List Path → List Path
  | first :: second :: rest =>
    match withoutRepeats (second :: rest) with
    | next :: rest => if first.isSame next then first :: rest else first :: next :: rest
    | [] => [first]
  | paths => paths

structure PatternFault where
  argument : String
deriving DecidableEq, Repr

def PatternFault.message (f : PatternFault) : String :=
  "invalid path pattern `" ++ f.argument ++ "`"

def dumpsOfEach (t : FileTree) : List String → Except PatternFault (List Path)
  | [] => .ok []
  | argument :: rest =>
    match dumpsOf? t argument with
    | none => .error ⟨argument⟩
    | some dumps => (dumpsOfEach t rest).map (dumps ++ ·)

/-- The dumps for the paths on the command line, in order and each once. -/
def collect (t : FileTree) (arguments : List String) : Except PatternFault (List Path) :=
  (dumpsOfEach t arguments).map fun dumps => withoutRepeats (dumps.mergeSort Path.le)

inductive LoadFault where
  | unreadable (fault : ReadFault)
  | source (fault : SourceFault)
  | type (fault : UnknownType)
deriving DecidableEq, Repr

def LoadFault.message (path : Path) : LoadFault → String
  | .unreadable fault =>
    "failed to load " ++ path.text ++ ": failed to read " ++ path.text ++ ": " ++ fault.reason ++
      ": " ++ fault.reason
  | .source .malformed => "failed to load " ++ path.text ++ ": malformed typed source"
  | .source (.table fault) =>
    "failed to load " ++ path.text ++ ": malformed typed source: " ++ fault.message
  | .type fault => "inconsistent typed dump " ++ path.text ++ ": " ++ fault.message

def World.load (w : World) (dump : Path) : Except LoadFault (SourceFile × Program) :=
  match w.read dump with
  | .error fault => .error (.unreadable fault)
  | .ok text =>
    match TypedSource.ofText text with
    | .error fault => .error (.source fault)
    | .ok source =>
      match source.program with
      | .error fault => .error (.type fault)
      | .ok program => .ok (source.file, program)

/-- Where the source of a dump lies: its path is taken from the directory of the dump. -/
def sourcePath (dump : Path) (source : String) : Path :=
  dump.parent.join (.ofText source)

end ConditionLint.Command
