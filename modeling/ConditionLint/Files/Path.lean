import ConditionLint.Text.Utf8

/-!
# Paths

A path keeps the bytes it was written with, which need not be text; messages show the text that can
be read of them. Two paths are the same if their components are: repeated and trailing separators do
not count, and neither does a `.` that is not the start of a relative path.
-/

set_option autoImplicit false

namespace ConditionLint.Files

/-- A name in the file system, as its bytes: they need not be text. -/
abbrev Name := List UInt8

namespace Name

def ofText (text : String) : Name :=
  Text.encode text.toList

/-- The text that the name is; some names are none. -/
def text? (name : Name) : Option String :=
  Text.ofBytes? name

/-- The text that the name is shown as, which a name that is no text shares with others. -/
def shown (name : Name) : String :=
  Text.shown name

def here : Name := ofText "."

def up : Name := ofText ".."

end Name

def separator : UInt8 := 0x2f

def pieces {α : Type} [DecidableEq α] (separator : α) : List α → List (List α)
  | [] => [[]]
  | a :: rest =>
    if a = separator then [] :: pieces separator rest
    else
      match pieces separator rest with
      | [] => [[a]]
      | piece :: others => (a :: piece) :: others

inductive Component where
  | root
  | current
  | parent
  | name (name : Name)
deriving DecidableEq, Repr, Inhabited

namespace Component

def rank : Component → Nat
  | root => 0
  | current => 1
  | parent => 2
  | name _ => 3

/-- The first component comes before the second; names are compared byte by byte. -/
def isBefore : Component → Component → Bool
  | name a, name b => a < b
  | a, b => a.rank < b.rank

end Component

structure Path where
  bytes : List UInt8
deriving DecidableEq, Repr, Inhabited

namespace Path

def ofText (text : String) : Path :=
  ⟨Text.encode text.toList⟩

def text (p : Path) : String :=
  Text.shown p.bytes

def isAbsolute (p : Path) : Bool :=
  p.bytes.head? == some separator

def pieces (p : Path) : List Name :=
  Files.pieces separator p.bytes

/-- A component and the number of bytes of the path up to its end. -/
structure Step where
  component : Component
  stop : Nat
deriving Repr

/-- The component of a piece, unless it is one of those that do not count. -/
def componentOf? (isFirst : Bool) (piece : Name) : Option Component :=
  if piece.isEmpty then none
  else if piece = Name.here then (if isFirst then some .current else none)
  else if piece = Name.up then some .parent
  else some (.name piece)

def stepsFrom (isFirst : Bool) (start : Nat) : List Name → List Step
  | [] => []
  | piece :: rest =>
    let stop := start + piece.length
    ((componentOf? isFirst piece).map (Step.mk · stop)).toList ++ stepsFrom false (stop + 1) rest

/-- The steps of a path. In an absolute one nothing is in front of the first separator. -/
def steps (p : Path) : List Step :=
  (if p.isAbsolute then [⟨.root, 1⟩] else []) ++ stepsFrom true 0 p.pieces

def components (p : Path) : List Component :=
  p.steps.map Step.component

def isOrdered : List Component → List Component → Bool
  | [], _ => true
  | _ :: _, [] => false
  | a :: as, b :: bs => a.isBefore b || (a == b && isOrdered as bs)

def le (p q : Path) : Bool :=
  isOrdered p.components q.components

def isSame (p q : Path) : Bool :=
  p.components == q.components

def fileName? (p : Path) : Option Name :=
  match p.components.getLast? with
  | some (.name name) => some name
  | _ => none

/-- The path without its last component; empty if there is nothing before it. -/
def parent (p : Path) : Path :=
  match p.steps.dropLast.getLast? with
  | some step => ⟨p.bytes.take step.stop⟩
  | none => ⟨[]⟩

def child (p : Path) (steps : List UInt8) : Path :=
  if p.bytes.isEmpty || p.bytes.getLast? == some separator then ⟨p.bytes ++ steps⟩
  else ⟨p.bytes ++ separator :: steps⟩

/-- A path taken from inside a directory; an absolute one stays as it is. -/
def join (p q : Path) : Path :=
  if q.isAbsolute then q else p.child q.bytes

end Path

end ConditionLint.Files
