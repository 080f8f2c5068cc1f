import ConditionLint.Lint.Diagnostic
import ConditionLint.Text.Cut

/-!
# Fixed sources

The fixes of a file are applied from its end towards its start, so that the offsets of those to
come stay right. A fix that reaches into the one before it, or does not start and end between
characters, is skipped.
-/

set_option autoImplicit false

namespace ConditionLint.Lint

structure FixedSource where
  source : List Char
  /-- Where the fix applied last starts. -/
  lastStart : Option Nat
  applied : Nat
  skipped : Nat
deriving Repr

namespace FixedSource

def ofText (source : String) : FixedSource :=
  ⟨source.toList, none, 0, 0⟩

def text (s : FixedSource) : String :=
  String.ofList s.source

/-- The fix ends before the one applied last starts. -/
def isBefore (fix : Fix) (lastStart : Option Nat) : Bool :=
  lastStart.all (fix.span.stop ≤ ·)

def skip (s : FixedSource) : FixedSource :=
  { s with skipped := s.skipped + 1 }

def add (s : FixedSource) (fix : Fix) : FixedSource :=
  if isBefore fix s.lastStart then
    match Text.replace? s.source fix.span.start fix.span.stop fix.replacement.toList with
    | some source =>
      { s with source := source, lastStart := some fix.span.start, applied := s.applied + 1 }
    | none => s.skip
  else
    s.skip

/-- The order in which fixes are applied: by falling start, and as given where starts are equal. -/
def order (fixes : List Fix) : List Fix :=
  fixes.mergeSort fun a b => b.span.start ≤ a.span.start

end FixedSource

def applyFixes (source : String) (ds : List Diagnostic) : FixedSource :=
  (FixedSource.order (ds.filterMap Diagnostic.fix)).foldl FixedSource.add (.ofText source)

end ConditionLint.Lint
