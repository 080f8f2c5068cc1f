/-!
# TOML texts

Blanks, comments and the four forms of strings. Each reader returns what it read and the text after
it, or nothing where the text breaks the grammar. The forms with three quotes may hold line ends,
which are read as line feeds, and up to two quotes in a row.
-/

set_option autoImplicit false

namespace ConditionLint.Toml

def isBlank (c : Char) : Bool :=
  c = ' ' || c = '\t'

/-- The character may stand in a comment: it is a tab or no control character. -/
def isPlain (c : Char) : Bool :=
  c = '\t' || (' ' ≤ c && c != '\x7f')

def skipBlanks (cs : List Char) : List Char :=
  cs.dropWhile isBlank

def afterNewline? : List Char → Option (List Char)
  | '\n' :: rest => some rest
  | '\r' :: '\n' :: rest => some rest
  | _ => none

def skipComment : List Char → List Char
  | '#' :: rest => rest.dropWhile isPlain
  | cs => cs

/-- The text after the rest of a line that holds nothing but blanks and a comment. -/
def afterLine? (cs : List Char) : Option (List Char) :=
  match skipComment (skipBlanks cs) with
  | [] => some []
  | rest => afterNewline? rest

/-- The text after blanks, line ends and comments; the truth value says that a comment is open. -/
def skipSpace (inComment : Bool) : List Char → List Char
  | [] => []
  | '\n' :: rest => skipSpace false rest
  | '\r' :: '\n' :: rest => skipSpace false rest
  | c :: rest =>
    if inComment then (if isPlain c then skipSpace true rest else c :: rest)
    else if isBlank c then skipSpace false rest
    else if c = '#' then skipSpace true rest
    else c :: rest

def hexValue? (c : Char) : Option Nat :=
  if c.isDigit then some (c.toNat - '0'.toNat)
  else if 'a' ≤ c && c ≤ 'f' then some (c.toNat - 'a'.toNat + 10)
  else if 'A' ≤ c && c ≤ 'F' then some (c.toNat - 'A'.toNat + 10)
  else none

def scalar? (digits : List Char) : Option Char := do
  let number ← digits.foldlM (fun n c => (hexValue? c).map (16 * n + ·)) 0
  if number.isValidChar then some (Char.ofNat number) else none

def shortEscape? : Char → Option Char
  | 'b' => some '\x08'
  | 'f' => some '\x0c'
  | 'n' => some '\n'
  | 'r' => some '\r'
  | 't' => some '\t'
  | '\\' => some '\\'
  | '"' => some '"'
  | _ => none

def ofReversed (reversed : List Char) : String :=
  String.ofList reversed.reverse

def readBasic (read : List Char) : List Char → Option (String × List Char)
  | [] => none
  | '"' :: rest => some (ofReversed read, rest)
  | '\\' :: 'u' :: a :: b :: c :: d :: rest =>
    match scalar? [a, b, c, d] with
    | some char => readBasic (char :: read) rest
    | none => none
  | '\\' :: 'U' :: a :: b :: c :: d :: e :: f :: g :: h :: rest =>
    match scalar? [a, b, c, d, e, f, g, h] with
    | some char => readBasic (char :: read) rest
    | none => none
  | '\\' :: c :: rest =>
    match shortEscape? c with
    | some char => readBasic (char :: read) rest
    | none => none
  | c :: rest => if isPlain c && c != '\\' then readBasic (c :: read) rest else none

/-- Read a string up to its closing three double quotes. After a backslash at the end of a line,
which the truth value tells, blanks and line ends are skipped. -/
def readLongBasic (joining : Bool) (read : List Char) : List Char → Option (String × List Char)
  | [] => none
  | '"' :: '"' :: '"' :: '"' :: '"' :: rest => some (ofReversed ('"' :: '"' :: read), rest)
  | '"' :: '"' :: '"' :: '"' :: rest => some (ofReversed ('"' :: read), rest)
  | '"' :: '"' :: '"' :: rest => some (ofReversed read, rest)
  | '\n' :: rest => readLongBasic joining (if joining then read else '\n' :: read) rest
  | '\r' :: '\n' :: rest => readLongBasic joining (if joining then read else '\n' :: read) rest
  | '\\' :: 'u' :: a :: b :: c :: d :: rest =>
    match scalar? [a, b, c, d] with
    | some char => readLongBasic false (char :: read) rest
    | none => none
  | '\\' :: 'U' :: a :: b :: c :: d :: e :: f :: g :: h :: rest =>
    match scalar? [a, b, c, d, e, f, g, h] with
    | some char => readLongBasic false (char :: read) rest
    | none => none
  | '\\' :: c :: rest =>
    match shortEscape? c with
    | some char => readLongBasic false (char :: read) rest
    | none =>
      if (afterNewline? (skipBlanks (c :: rest))).isSome then readLongBasic true read rest
      else none
  | c :: rest =>
    if joining && isBlank c then readLongBasic true read rest
    else if isPlain c && c != '\\' then readLongBasic false (c :: read) rest
    else none

def readLiteral (read : List Char) : List Char → Option (String × List Char)
  | [] => none
  | '\x27' :: rest => some (ofReversed read, rest)
  | c :: rest => if isPlain c then readLiteral (c :: read) rest else none

def readLongLiteral (read : List Char) : List Char → Option (String × List Char)
  | [] => none
  | '\x27' :: '\x27' :: '\x27' :: '\x27' :: '\x27' :: rest =>
    some (ofReversed ('\x27' :: '\x27' :: read), rest)
  | '\x27' :: '\x27' :: '\x27' :: '\x27' :: rest => some (ofReversed ('\x27' :: read), rest)
  | '\x27' :: '\x27' :: '\x27' :: rest => some (ofReversed read, rest)
  | '\n' :: rest => readLongLiteral ('\n' :: read) rest
  | '\r' :: '\n' :: rest => readLongLiteral ('\n' :: read) rest
  | c :: rest => if isPlain c then readLongLiteral (c :: read) rest else none

def skipNewline (cs : List Char) : List Char :=
  (afterNewline? cs).getD cs

def readString : List Char → Option (String × List Char)
  | '"' :: '"' :: '"' :: rest => readLongBasic false [] (skipNewline rest)
  | '"' :: rest => readBasic [] rest
  | '\x27' :: '\x27' :: '\x27' :: rest => readLongLiteral [] (skipNewline rest)
  | '\x27' :: rest => readLiteral [] rest
  | _ => none

end ConditionLint.Toml
