import ConditionLint.Command.Run

/-!
# The command line

Looks at the file system as far as the arguments need it, and carries out the plan for what it
sees. Lean's own view of the file system shows names as texts, so a name that is none is not seen as
it is.
-/

set_option autoImplicit false

namespace ConditionLint.Command

open Files

/-- What is at a place of the file system. Directories that cannot be read count as empty. -/
partial def entryAt (place : IO.FS.DirEntry) : IO Entry := do
  if ← place.path.isDir then
    let children ← try place.path.readDir catch _ => pure #[]
    let entries ← children.toList.mapM fun child =>
      return (Name.ofText child.fileName, ← entryAt child)
    return .directory entries
  else
    return .file

def placeOf (names : List Name) : IO.FS.DirEntry :=
  { root := "/", fileName := "/".intercalate (names.map Name.shown) }

/-- The tree with everything that one path on the command line can lead to. -/
def explore (t : FileTree) (argument : String) : IO FileTree := do
  let mut tree := t
  let stops := passed t.workingDirectory argument
  for names in stops do
    if ← (placeOf names).path.isDir then
      tree := tree.addDirectory names
  match stops.getLast? with
  | some names =>
    if ← (placeOf names).path.pathExists then
      tree := tree.add names (← entryAt (placeOf names))
  | none => pure ()
  return tree

/-- The tree with the configuration files above the working directory. -/
def exploreConfigs (t : FileTree) : IO FileTree := do
  let mut tree := t
  for names in t.ancestors do
    let config := names ++ [Name.ofText configName]
    let place := placeOf config
    if (← place.path.pathExists) && !(← place.path.isDir) then
      tree := tree.add config .file
  return tree

def readText (path : Path) : IO (Except ReadFault String) := do
  try
    match String.fromUTF8? (← IO.FS.readBinFile path.text) with
    | some text => return .ok text
    | none => return .error .notText
  catch fault => return .error (.refused (toString fault))

def observe (a : LintArguments) : IO World := do
  let here := ((← IO.currentDir).components.filter (!·.isEmpty)).map Name.ofText
  let start : FileTree := { root := .directory [], workingDirectory := here }
  let explored ← a.paths.foldlM explore (start.addDirectory here)
  let files ← exploreConfigs explored
  let names : World := { files := files, read := fun _ => .error (.refused "not read") }
  let texts ← (names.inputs a).mapM fun path => return (path, ← readText path)
  return { names with read := fun path => (texts.lookup path).getD (names.read path) }

def nothing : World where
  files := { root := .directory [], workingDirectory := [] }
  read := fun _ => .error (.refused "not read")

def readEnvironment : IO Environment := do
  return {
    noColor := (← IO.getEnv "NO_COLOR").isSome
    terminal := ← IO.getEnv "TERM"
    logFilter := ← IO.getEnv "RUST_LOG" }

def terminalHost (filter : Log.Filter) : Host IO where
  print := IO.print
  complain := IO.eprint
  log := fun event => if filter.shows event then IO.eprintln event.text else pure ()
  write := fun path text => do
    try
      IO.FS.writeFile path.text text
      return true
    catch _ => return false

end ConditionLint.Command

open ConditionLint.Command in
def main (arguments : List String) : IO UInt32 := do
  let environment ← readEnvironment
  let invocation := Invocation.ofList? arguments
  let world ←
    match invocation with
    | some (.lint a) => observe a
    | _ => pure nothing
  let code ← (terminalHost environment.filter).run (world.plan environment invocation)
  return UInt32.ofNat code
