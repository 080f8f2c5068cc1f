import ConditionLint.Lint.Diagnostic
import ConditionLint.Snippet.Label

/-!
# Rendering diagnostics

A diagnostic is shown with the lines of the source that it is about: a header with the message, the
place, the lines with the label, then the notes behind a margin. A blank line ends it.
-/

set_option autoImplicit false

namespace ConditionLint.Snippet

open Lint

/-- The margin at the left of everything but the header: as wide as the largest line number. -/
structure Margin where
  width : Nat
deriving Repr

namespace Margin

def blank (m : Margin) : String :=
  String.ofList (List.replicate m.width ' ') ++ " "

def numbered (m : Margin) (number : Nat) : String :=
  let digits := toString number
  String.ofList (List.replicate (m.width - digits.length) ' ') ++ digits ++ " "

def sourceRow (m : Margin) (line : Line) (frame : String) : String :=
  m.numbered line.number ++ "│" ++ frame ++ " " ++ line.text

end Margin

def singleRows (m : Margin) (line : Line) (start stop : Nat) (message : String) : List String :=
  [m.sourceRow line "",
    m.blank ++ "│ " ++ carets line (start - line.start) (stop - line.start) ++ trailing message]

def framedRows (m : Margin) (lines : Array Line) (message : String) (number : Nat)
    (mark : Option Mark) : List String :=
  match lines[number - 1]? with
  | none => []
  | some line =>
    m.sourceRow line (frame line mark) ::
      ((frameEnd? line message mark).map fun text => m.blank ++ "│" ++ text).toList

/-- The rows between two shown lines: nothing, the one line between them, or a break, which keeps
the frame of the line above. -/
def rowsBetween (m : Margin) (lines : Array Line) (marked : List MarkedLine) (message : String)
    (above below : MarkedLine) : List String :=
  if below.number = above.number + 1 then []
  else if below.number = above.number + 2 then
    let mark := (marked.find? (·.number == above.number + 1)).map MarkedLine.mark
    framedRows m lines message (above.number + 1) mark
  else
    let bar :=
      match above.mark with
      | .opening _ => "  "
      | .running | .closing _ => " │"
    [m.blank ++ "·" ++ bar]

def shownRows (m : Margin) (lines : Array Line) (marked : List MarkedLine) (message : String) :
    List MarkedLine → List String
  | [] => []
  | [last] => framedRows m lines message last.number (some last.mark)
  | above :: below :: rest =>
    framedRows m lines message above.number (some above.mark) ++
      rowsBetween m lines marked message above below ++
      shownRows m lines marked message (below :: rest)

def multiRows (m : Margin) (lines : List Line) (first last : Line) (start stop : Nat)
    (message : String) : List String :=
  let marked := markedLines first last start stop
  shownRows m lines.toArray marked message (marked.filter MarkedLine.isShown)

/-- The lines of a note, without their line ends. A line feed at the end starts no further line. -/
def noteLines (note : String) : List String :=
  let pieces := Text.lines note.toList
  let pieces := if pieces.getLast? == some [] then pieces.dropLast else pieces
  pieces.map fun piece =>
    String.ofList
      (match piece.reverse with
      | '\n' :: '\r' :: rest => rest.reverse
      | '\n' :: rest => rest.reverse
      | _ => piece)

def noteRows (m : Margin) (note : String) : List String :=
  match noteLines note with
  | [] => []
  | first :: rest =>
    (m.blank ++ "= " ++ first) :: rest.map fun line => m.blank ++ "  " ++ line

/-- The word for a severity; nothing is shown of a diagnostic that is turned off. -/
def severityWord? : Severity → Option String
  | .off => none
  | .warn => some "warning"
  | .error => some "error"

def header (word code message : String) : String :=
  word ++ (if code.isEmpty then "" else "[" ++ code ++ "]") ++ ": " ++ message

/-- The notes of a diagnostic, of which the first tells the fix. -/
def notesOf (d : Diagnostic) : List String :=
  (d.fix.map fun fix => "help: replace with '" ++ fix.replacement ++ "'").toList ++ d.notes

def bodyRows (path : String) (lines : List Line) (d : Diagnostic) : List String :=
  let start := d.span.start
  let stop := d.span.stop
  let first := lineAt lines start
  let last := lineAt lines stop
  let m : Margin := ⟨max (toString first.number).length (toString last.number).length⟩
  let isSingle := first.number == last.number
  let empty := m.blank ++ (if isSingle then "│" else "│  ")
  let place :=
    path ++ ":" ++ toString first.number ++ ":" ++ toString (first.column start)
  let rows :=
    if isSingle then singleRows m first start stop d.rule
    else multiRows m lines first last start stop d.rule
  let notes := notesOf d
  [m.blank ++ "┌─ " ++ place, empty] ++ rows ++ (if notes.isEmpty then [] else [empty]) ++
    notes.flatMap (noteRows m)

/-- The rows of a diagnostic, with the blank one at its end. -/
def diagnosticRows (path : String) (lines : List Line) (d : Diagnostic) : List String :=
  match severityWord? d.severity with
  | none => []
  | some word => header word d.code d.message :: bodyRows path lines d ++ [""]

def render (path source : String) (ds : List Diagnostic) : String :=
  let lines := linesOf source
  String.join ((ds.flatMap (diagnosticRows path lines)).map (· ++ "\n"))

end ConditionLint.Snippet
