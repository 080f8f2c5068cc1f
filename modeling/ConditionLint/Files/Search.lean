import ConditionLint.Files.Pattern
import ConditionLint.Files.Tree

/-!
# Searching a file tree

The files below a directory, and the paths that a path pattern leads to. Both write every path as
it is reached from where the search starts; only the working directory itself is not written. A
pattern describes texts, so it leads to no name that is none.
-/

set_option autoImplicit false

namespace ConditionLint.Files

/-- A search does not enter hidden directories and those of installed packages. -/
def isSkipped (name : Name) : Bool :=
  name.shown.toList.head? == some '.' || name.shown == "node_modules"

mutual

def filesBelow (condition : Path → Bool) (directory : Path) : Name × Entry → List Path
  | (name, .file) => if condition (directory.child name) then [directory.child name] else []
  | (name, .directory entries) =>
    if isSkipped name then [] else filesAmong condition (directory.child name) entries

/-- The files below entries of a directory that satisfy a condition. -/
def filesAmong (condition : Path → Bool) (directory : Path) : List (Name × Entry) → List Path
  | [] => []
  | entry :: rest => filesBelow condition directory entry ++ filesAmong condition directory rest

end

def isHere (p : Path) : Bool :=
  p.components == [.current]

def reach (directory : Path) (name : Name) : Path :=
  if isHere directory then ⟨name⟩ else directory.child name

mutual

def pathsBelow (directory : Path) : Name × Entry → List Path
  | (name, .file) => [reach directory name]
  | (name, .directory entries) =>
    reach directory name :: pathsAmong (reach directory name) entries

/-- Entries of a directory and everything below them. -/
def pathsAmong (directory : Path) : List (Name × Entry) → List Path
  | [] => []
  | entry :: rest => pathsBelow directory entry ++ pathsAmong directory rest

end

/-- A name by which a path leaves the tree of names. -/
def isSpecial (name : Name) : Bool :=
  name == Name.here || name == Name.up

def acceptsName (pattern : Pattern) (p : Path) : Bool :=
  (p.fileName?.bind Name.text?).any fun name => pattern.accepts name.toList

/-- The special names that a pattern describes, which has to start with a point. -/
def specialNames (pattern : Pattern) : List Name :=
  if pattern.head? == some (.char '.') then
    ((["..", "."] : List String).filter fun name => pattern.accepts name.toList).map Name.ofText
  else
    []

def result (t : FileTree) (directoryOnly : Bool) (p : Path) : List Path :=
  if !directoryOnly || t.isDirectory p then [p] else []

/-- The paths that the components of a pattern lead to from a directory. -/
def expand (t : FileTree) (directoryOnly : Bool) : List Pattern → Path → List Path
  | [], p => result t directoryOnly p
  | pattern :: rest, p =>
    match pattern.literal? with
    | some literal =>
      let name := Name.ofText literal
      let next := reach p name
      if (if isSpecial name then t.isDirectory p else (t.entry? next).isSome) then
        expand t directoryOnly rest next
      else
        []
    | none =>
      match t.entry? p with
      | some (.directory entries) =>
        if pattern.isRecursive then
          let below := pathsAmong p entries
          match rest with
          | [] => below.filter t.isDirectory
          | next :: rest =>
            (below.filter (acceptsName next)).flatMap (expand t directoryOnly rest)
        else
          (((specialNames pattern).map p.child) ++
              ((entries.map fun entry => reach p entry.1).filter (acceptsName pattern))).flatMap
            (expand t directoryOnly rest)
      | _ => []

/-- The patterns with each row of recursive ones as a single one. -/
def collapse : List Pattern → List Pattern
  | first :: second :: rest =>
    if first.isRecursive && second.isRecursive then collapse (second :: rest)
    else first :: collapse (second :: rest)
  | patterns => patterns

/-- The components of a pattern; a separator at the end starts no further one. -/
def patternPieces (cs : List Char) : List (List Char) :=
  let pieces := pieces '/' cs
  if pieces.getLast? == some [] then pieces.dropLast else pieces

/-- The paths that a path pattern leads to; none at all if it is no pattern. -/
def glob? (t : FileTree) (pattern : String) : Option (List Path) := do
  let cs := pattern.toList
  let _ ← Pattern.ofText? cs
  let root := cs.takeWhile (· = '/')
  let patterns ← (patternPieces (cs.dropWhile (· = '/'))).mapM Pattern.ofText?
  let start := Path.ofText (if root.isEmpty then "." else String.ofList root)
  let directoryOnly := cs.getLast? == some '/'
  if patterns.isEmpty then return [] else return expand t directoryOnly (collapse patterns) start

def isFixed (piece : List Char) : Bool :=
  !piece.any fun c => c = '*' || c = '?' || c = '['

/-- The names that a piece of a path leads to, by the names alone. -/
def step (names : List Name) (piece : Name) : List Name :=
  if piece.isEmpty || piece = Name.here then names
  else if piece = Name.up then names.dropLast
  else names ++ [piece]

/-- The directories, by the names from the root to each, that a path pattern passes before it
branches. -/
def passed (workingDirectory : List Name) (pattern : String) : List (List Name) :=
  let fixed := ((pieces '/' pattern.toList).takeWhile isFixed).map Text.encode
  let start := if (Path.ofText pattern).isAbsolute then [] else workingDirectory
  (List.range (fixed.length + 1)).map fun count => (fixed.take count).foldl step start

end ConditionLint.Files
