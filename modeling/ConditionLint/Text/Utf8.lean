/-!
# Bytes and texts

Texts as their bytes in UTF-8, and what can be read of bytes that need not be text. Bytes that
belong to no character are read in runs, each of which could have been the start of a character.
-/

set_option autoImplicit false

namespace ConditionLint.Text

def encode (cs : List Char) : List UInt8 :=
  cs.flatMap String.utf8EncodeChar

/-- The character that bytes start with, if they do. -/
def startOf? (bytes : List UInt8) : Option Char :=
  bytes.toByteArray.utf8DecodeChar? 0

def isContinuation (b : UInt8) : Bool :=
  0x80 ≤ b && b < 0xc0

/-- Some character starts with the two bytes. Four first bytes leave only a part of the second ones:
the others would spell a character that fewer bytes do, a surrogate, or no character at all. -/
def isStart (first second : UInt8) : Bool :=
  0xc2 ≤ first && first < 0xf5 && isContinuation second &&
    (first != 0xe0 || 0xa0 ≤ second) && (first != 0xed || second < 0xa0) &&
    (first != 0xf0 || 0x90 ≤ second) && (first != 0xf4 || second < 0x90)

/-- The length of the run in front of bytes that start with no character. -/
def strayLength : List UInt8 → Nat
  | first :: second :: rest =>
    if !isStart first second then 1 else if rest.head?.any isContinuation then 3 else 2
  | _ => 1

/-- The characters of bytes, with nothing in place of each run that belongs to none. -/
def decode : List UInt8 → List (Option Char)
  | [] => []
  | first :: rest =>
    match startOf? (first :: rest) with
    | some c => some c :: decode (rest.drop (c.utf8Size - 1))
    | none => none :: decode (rest.drop (strayLength (first :: rest) - 1))
termination_by bytes => bytes.length
decreasing_by all_goals simp only [List.length_drop, List.length_cons]; omega

/-- The text of bytes, if they are text. -/
def ofBytes? (bytes : List UInt8) : Option String :=
  ((decode bytes).mapM id).map String.ofList

/-- The text that bytes are shown as, with a mark for each run that is no text. -/
def shown (bytes : List UInt8) : String :=
  String.ofList ((decode bytes).map (·.getD '\uFFFD'))

end ConditionLint.Text
