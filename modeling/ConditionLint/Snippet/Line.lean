import ConditionLint.Text.Cut
import ConditionLint.Text.DisplayWidth
import ConditionLint.Text.Lines

/-!
# Lines of a snippet

A source text as numbered lines, and a line as cells: characters with their byte offset and the
columns they take, where a tab reaches to the next multiple of four.
-/

set_option autoImplicit false

namespace ConditionLint.Snippet

structure Line where
  number : Nat
  /-- The byte offset of the line in the text. -/
  start : Nat
  /-- The characters, with the line end. -/
  chars : List Char
deriving Repr, Inhabited

/-- Number lines from a first number and offset on. -/
def numberLines (number start : Nat) : List (List Char) → List Line
  | [] => []
  | chars :: rest =>
    ⟨number, start, chars⟩ :: numberLines (number + 1) (start + Text.byteSize chars) rest

def linesOf (source : String) : List Line :=
  numberLines 1 0 (Text.lines source.toList)

/-- The line that holds a byte offset; offsets past the end are in the last line. -/
def lineAt (lines : List Line) (offset : Nat) : Line :=
  ((lines.takeWhile (·.start ≤ offset)).getLast?).getD default

namespace Line

/-- The characters that are shown: line ends and null characters at the end are not. -/
def shown (line : Line) : List Char :=
  (line.chars.reverse.dropWhile fun c => c = '\n' || c = '\r' || c = '\x00').reverse

/-- How many of the characters end at or before a byte offset from the start of the line. -/
def countComplete (offset : Nat) : List Char → Nat
  | [] => 0
  | c :: cs =>
    if c.utf8Size ≤ offset then countComplete (offset - c.utf8Size) cs + 1 else 0

/-- The column of a byte offset of the text, from 1 on. -/
def column (line : Line) (offset : Nat) : Nat :=
  countComplete (offset - line.start) line.chars + 1

end Line

structure Cell where
  offset : Nat
  width : Nat
  char : Char
deriving Repr

/-- The columns between two tab stops. -/
def tabWidth : Nat :=
  4

def widthAt (column : Nat) (c : Char) : Nat :=
  if c = '\t' then tabWidth - column % tabWidth else Text.displayWidth c

def cellsFrom (column offset : Nat) : List Char → List Cell
  | [] => []
  | c :: cs =>
    let width := widthAt column c
    ⟨offset, width, c⟩ :: cellsFrom (column + width) (offset + c.utf8Size) cs

def Line.cells (line : Line) : List Cell :=
  cellsFrom 0 0 line.shown

def Cell.filled (cell : Cell) (c : Char) : List Char :=
  List.replicate cell.width c

/-- The cell as it is shown: tabs as spaces. -/
def Cell.text (cell : Cell) : List Char :=
  if cell.char = '\t' then cell.filled ' ' else [cell.char]

def Line.text (line : Line) : String :=
  String.ofList (line.cells.flatMap Cell.text)

end ConditionLint.Snippet
