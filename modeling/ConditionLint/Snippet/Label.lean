import ConditionLint.Snippet.Line
import ConditionLint.Text.Whitespace

/-!
# Labels

A label marks a range of a source text. Within one line it is a row of carets under the line.
Over several lines it is a frame at their left: it opens at the first line, runs down, and closes
under the last one.
-/

set_option autoImplicit false

namespace ConditionLint.Snippet

/-- How a label over several lines touches one of them. -/
inductive Mark where
  /-- The label starts at an offset of the line. -/
  | opening (start : Nat)
  | running
  /-- The label stops at an offset of the line. -/
  | closing (stop : Nat)
deriving DecidableEq, Repr, Inhabited

/-- A message behind what it is about; an empty one adds nothing. -/
def trailing (message : String) : String :=
  if message.isEmpty then "" else " " ++ message

/-- The character under one cell: a caret if the cell overlaps the label, and a space before the
end of the label. -/
def caret? (start stop : Nat) (cell : Cell) : Option Char :=
  if max start cell.offset < min stop (cell.offset + cell.char.utf8Size) then some '^'
  else if cell.offset < stop then some ' '
  else none

/-- The carets under a line for a label from `start` to `stop`. The place after the last character
can have a caret too, and every label is at least one byte wide. -/
def carets (line : Line) (start stop : Nat) : String :=
  let stop := max stop (start + 1)
  let cells := line.cells ++ [⟨Text.byteSize line.shown, 1, '\x00'⟩]
  String.ofList (cells.flatMap fun cell =>
    match caret? start stop cell with
    | some c => cell.filled c
    | none => [])

def bar (line : Line) (stop : Nat) : String :=
  String.ofList ((line.cells.takeWhile (·.offset < stop)).flatMap (·.filled '─'))

/-- The offset is not behind the whitespace that the line starts with. -/
def opensAtMargin (line : Line) (start : Nat) : Bool :=
  start ≤ Text.byteSize (line.shown.takeWhile Text.isWhitespace)

/-- The frame at the left of a line. -/
def frame (line : Line) : Option Mark → String
  | none => "  "
  | some (.opening start) => if opensAtMargin line start then " ╭" else "  "
  | some .running | some (.closing _) => " │"

/-- What stands under a line where the frame opens or closes. -/
def frameEnd? (line : Line) (message : String) : Option Mark → Option String
  | some (.opening start) =>
    if opensAtMargin line start then none else some (" ╭" ++ bar line (start + 1) ++ "^")
  | some (.closing stop) => some (" ╰" ++ bar line stop ++ "^" ++ trailing message)
  | _ => none

structure MarkedLine where
  number : Nat
  mark : Mark
  /-- The line is shown whatever lies around it. -/
  isShown : Bool
deriving Repr

/-- How many lines are shown after the first one of a label. -/
def linesAfterFirst : Nat :=
  3

/-- How many lines are shown before the last one of a label. -/
def linesBeforeLast : Nat :=
  1

def runningLines (first last : Nat) : List MarkedLine :=
  (List.range (last - first - 1)).map fun i =>
    let number := first + 1 + i
    ⟨number, .running, number - first ≤ linesAfterFirst || last - number ≤ linesBeforeLast⟩

/-- The lines that a label from `start` to `stop` marks, from top to bottom. A label may stop in a
line above the one it starts in. -/
def markedLines (first last : Line) (start stop : Nat) : List MarkedLine :=
  let opening : MarkedLine := ⟨first.number, .opening (start - first.start), true⟩
  let closing : MarkedLine := ⟨last.number, .closing (stop - last.start), true⟩
  if first.number < last.number then
    opening :: runningLines first.number last.number ++ [closing]
  else
    [closing, opening]

end ConditionLint.Snippet
