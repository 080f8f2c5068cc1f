import ConditionLint.Json.Decode
import ConditionLint.Text.Cut

/-!
# Spans

A span is a range of byte offsets in a source text, with the line and column of its start. Nothing
ties the four numbers together: they are taken as a document gives them.
-/

set_option autoImplicit false

namespace ConditionLint

structure Span where
  start : Nat
  stop : Nat
  line : Nat
  column : Nat
deriving DecidableEq, Hashable, Repr, Inhabited

namespace Span

/-- Offsets are written in 64 bits, which hold numbers below `2 ^ 64`. -/
def offsetLimit : Nat :=
  0x10000000000000000

/-- Lines and columns are written in 32 bits, which hold numbers below `2 ^ 32`. -/
def placeLimit : Nat :=
  0x100000000

/-- The number of bytes in the span; none if it ends before it starts. -/
def length? (s : Span) : Option Nat :=
  if s.start ≤ s.stop then some (s.stop - s.start) else none

def isEmpty (s : Span) : Bool :=
  s.start == s.stop

def slice? (s : Span) (text : String) : Option String :=
  (Text.slice? text.toList s.start s.stop).map String.ofList

def place (s : Span) : String :=
  toString s.line ++ ":" ++ toString s.column

def toJson (s : Span) : Json :=
  .object
    [("start", .nat s.start), ("end", .nat s.stop), ("line", .nat s.line),
      ("column", .nat s.column)]

def ofJson? (j : Json) : Option Span :=
  match j.fields? ["start", "end", "line", "column"] with
  | some [start, stop, line, column] => do
    return { start := ← Json.required? (Json.natBelow? offsetLimit) start
             stop := ← Json.required? (Json.natBelow? offsetLimit) stop
             line := ← Json.required? (Json.natBelow? placeLimit) line
             column := ← Json.required? (Json.natBelow? placeLimit) column }
  | _ => none

end Span

end ConditionLint
