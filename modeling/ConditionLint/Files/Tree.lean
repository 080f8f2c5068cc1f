import ConditionLint.Files.Path

/-!
# File trees

The names of a file system, which need not be text: files, and directories with what is in them. A
path is followed from the root or from the working directory; every step but the last has to be a
directory, and so has the last if the path goes on behind it.
-/

set_option autoImplicit false

namespace ConditionLint.Files

inductive Entry where
  | file
  | directory (entries : List (Name × Entry))
deriving Repr, Inhabited

namespace Entry

def isDirectory : Entry → Bool
  | directory _ => true
  | file => false

def entries : Entry → List (Name × Entry)
  | directory entries => entries
  | file => []

def find? (e : Entry) : List Name → Option Entry
  | [] => some e
  | name :: names => (e.entries.lookup name).bind (find? · names)

end Entry

/-- Put an entry at the end of a row of names, into directories that are made where there are
none. -/
def put (entry : Entry) : List Name → List (Name × Entry) → List (Name × Entry)
  | [], entries => entries
  | [name], entries => (name, entry) :: entries.filter (·.1 != name)
  | name :: rest, entries =>
    let inner := ((entries.lookup name).map Entry.entries).getD []
    (name, .directory (put entry rest inner)) :: entries.filter (·.1 != name)

structure FileTree where
  root : Entry
  /-- The names from the root to the working directory. -/
  workingDirectory : List Name
deriving Repr

namespace FileTree

def absolutePath (names : List Name) : Path :=
  ⟨separator :: [separator].intercalate names⟩

/-- Follow one piece of a path from the directory with the given names. -/
def follow? (t : FileTree) (names : List Name) (piece : Name) : Option (List Name) :=
  match t.root.find? names with
  | some (.directory entries) =>
    if piece.isEmpty || piece = Name.here then some names
    else if piece = Name.up then some names.dropLast
    else if (entries.lookup piece).isSome then some (names ++ [piece])
    else none
  | _ => none

def origin (t : FileTree) (p : Path) : List Name :=
  if p.isAbsolute then [] else t.workingDirectory

def walk (t : FileTree) (start : List Name) (pieces : List Name) : Option (List Name) :=
  pieces.foldlM t.follow? start

/-- The names from the root to what a path leads to. -/
def resolve? (t : FileTree) (p : Path) : Option (List Name) :=
  if p.bytes.isEmpty then none else t.walk (t.origin p) p.pieces

def entry? (t : FileTree) (p : Path) : Option Entry :=
  (t.resolve? p).bind t.root.find?

def isFile (t : FileTree) (p : Path) : Bool :=
  (t.entry? p).any (!·.isDirectory)

def isDirectory (t : FileTree) (p : Path) : Bool :=
  (t.entry? p).any Entry.isDirectory

/-- A piece of a path can name a new entry: it is no step to a directory, has no NUL byte and takes
at most 255 bytes. -/
def isEntryName (piece : Name) : Bool :=
  !(piece.isEmpty || piece = Name.here || piece = Name.up || piece.contains 0) &&
    piece.length ≤ 255

/-- The names of the file that writing to a path makes or replaces: an existing file, or a new name
in an existing directory. -/
def target? (t : FileTree) (p : Path) : Option (List Name) :=
  match t.resolve? p with
  | some names => if t.isFile p then some names else none
  | none =>
    match p.pieces.getLast? with
    | some name =>
      if isEntryName name then
        (t.walk (t.origin p) p.pieces.dropLast).bind fun names =>
          if (t.root.find? names).any Entry.isDirectory then some (names ++ [name]) else none
      else none
    | none => none

/-- The tree with an entry put at the end of a row of names. -/
def add (t : FileTree) (names : List Name) (entry : Entry) : FileTree :=
  if names.isEmpty then { t with root := entry }
  else { t with root := .directory (put entry names t.root.entries) }

/-- The tree with a directory at the end of a row of names, where there is nothing yet. -/
def addDirectory (t : FileTree) (names : List Name) : FileTree :=
  if (t.root.find? names).isSome then t else t.add names (.directory [])

/-- The directories from the working directory up to the root. -/
def ancestors (t : FileTree) : List (List Name) :=
  let names := t.workingDirectory
  ((List.range (names.length + 1)).map fun length => names.take length).reverse

end FileTree

end ConditionLint.Files
