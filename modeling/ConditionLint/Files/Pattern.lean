/-!
# Name patterns

A pattern describes names: `?` stands for any character, `*` for any row of characters, and a class
in brackets for one of its characters, or for none of them if it starts with `!`. Two asterisks
stand for any row of directories and must be a whole component of a path.
-/

set_option autoImplicit false

namespace ConditionLint.Files

structure CharRange where
  first : Char
  last : Char
deriving DecidableEq, Repr

inductive Token where
  | char (c : Char)
  | anyChar
  | anySequence
  | anyDirectories
  | within (ranges : List CharRange)
  | except (ranges : List CharRange)
deriving DecidableEq, Repr

abbrev Pattern := List Token

def rangesOf : List Char → List CharRange
  | first :: '-' :: last :: rest => ⟨first, last⟩ :: rangesOf rest
  | c :: rest => ⟨c, c⟩ :: rangesOf rest
  | [] => []

/-- A class behind its opening bracket, and the text after it. The first character belongs to the
class even if it is a bracket. -/
def class? : List Char → Option (Token × List Char)
  | '!' :: c :: rest =>
    let inner := rest.takeWhile (· != ']')
    match rest.dropWhile (· != ']') with
    | _ :: rest => some (.except (rangesOf (c :: inner)), rest)
    | [] => none
  | '!' :: [] => none
  | c :: rest =>
    let inner := rest.takeWhile (· != ']')
    match rest.dropWhile (· != ']') with
    | _ :: rest => some (.within (rangesOf (c :: inner)), rest)
    | [] => none
  | [] => none

/-- Read a pattern; the truth value says that a component starts here. A row of two asterisks has
to be a component of its own, and there are no longer rows. -/
def readPattern : Nat → Bool → List Char → Option Pattern
  | 0, _, _ => none
  | fuel + 1, atStart, cs =>
    match cs with
    | [] => some []
    | '?' :: rest => (readPattern fuel false rest).map (.anyChar :: ·)
    | '*' :: '*' :: rest =>
      match atStart, rest with
      | true, [] => some [.anyDirectories]
      | true, '/' :: rest => (readPattern fuel true rest).map (.anyDirectories :: ·)
      | _, _ => none
    | '*' :: rest => (readPattern fuel false rest).map (.anySequence :: ·)
    | '[' :: rest =>
      (class? rest).bind fun (token, rest) => (readPattern fuel false rest).map (token :: ·)
    | c :: rest => (readPattern fuel (c = '/') rest).map (.char c :: ·)

namespace Pattern

def ofText? (cs : List Char) : Option Pattern :=
  readPattern (cs.length + 1) true cs

/-- The pattern stands for any row of directories. -/
def isRecursive (p : Pattern) : Bool :=
  p.contains .anyDirectories

/-- The text that a pattern without special parts stands for. -/
def literal? (p : Pattern) : Option String :=
  (p.mapM fun
    | Token.char c => some c
    | _ => none).map String.ofList

def inRanges (ranges : List CharRange) (c : Char) : Bool :=
  ranges.any fun range => range.first ≤ c && c ≤ range.last

def takes (token : Token) (c : Char) : Bool :=
  match token with
  | .char expected => c == expected
  | .anyChar => true
  | .within ranges => inRanges ranges c
  | .except ranges => !inRanges ranges c
  | .anySequence | .anyDirectories => false

/-- Some rest of a text satisfies a condition. -/
def someRest (condition : List Char → Bool) : List Char → Bool
  | [] => condition []
  | c :: cs => condition (c :: cs) || someRest condition cs

/-- The pattern describes the whole name. -/
def accepts : Pattern → List Char → Bool
  | [], cs => cs.isEmpty
  | .anySequence :: rest, cs | .anyDirectories :: rest, cs => someRest (accepts rest) cs
  | token :: rest, c :: cs => takes token c && accepts rest cs
  | _ :: _, [] => false

end Pattern

end ConditionLint.Files
