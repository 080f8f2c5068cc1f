import ConditionLint.Toml.Datetime
import ConditionLint.Toml.Number
import ConditionLint.Toml.Table
import ConditionLint.Toml.Text

/-!
# Reading TOML text

A document is a list of lines: blank ones, headers, and keys with their values. What stands between
a fault and the end of the text is never read, because no text with a fault has a meaning.
-/

set_option autoImplicit false

namespace ConditionLint.Toml

/-- Arrays and inline tables nest less deeply than this, and keys have fewer parts. -/
def depthLimit : Nat :=
  80

def isKeyChar (c : Char) : Bool :=
  c.isAlphanum || c = '-' || c = '_'

def readKeyPart (cs : List Char) : Option (String × List Char) :=
  match cs with
  | '"' :: rest => readBasic [] rest
  | '\x27' :: rest => readLiteral [] rest
  | _ =>
    let name := cs.takeWhile isKeyChar
    if name.isEmpty then none else some (String.ofList name, cs.dropWhile isKeyChar)

/-- Read the parts of a key, separated by points; blanks may stand around each. -/
def readKeyParts : Nat → List Char → Option (List String × List Char)
  | 0, _ => none
  | fuel + 1, cs =>
    match readKeyPart (skipBlanks cs) with
    | none => none
    | some (part, rest) =>
      match skipBlanks rest with
      | '.' :: rest => (readKeyParts fuel rest).map fun (parts, rest) => (part :: parts, rest)
      | rest => some ([part], rest)

def readKey (cs : List Char) : Option (List String × List Char) := do
  let (parts, rest) ← readKeyParts (cs.length + 1) cs
  guard (parts.length < depthLimit)
  return (parts, rest)

def readNumeric (cs : List Char) : Option (Value × List Char) :=
  readDatetime cs <|>
    match readDecimal cs with
    | some result => some result
    | none => readSpecial cs <|> readInteger cs

mutual

/-- Read a value; `levels` more arrays and inline tables may open. -/
def readValue : Nat → Nat → List Char → Option (Value × List Char)
  | 0, _, _ => none
  | fuel + 1, levels, cs =>
    match cs with
    | 't' :: 'r' :: 'u' :: 'e' :: rest => some (.boolean true, rest)
    | 'f' :: 'a' :: 'l' :: 's' :: 'e' :: rest => some (.boolean false, rest)
    | '[' :: rest =>
      match levels with
      | 0 => none
      | levels + 1 =>
        (readItems fuel levels (skipSpace false rest)).map fun (items, rest) =>
          (.array items, rest)
    | '\x7b' :: rest =>
      match levels with
      | 0 => none
      | levels + 1 =>
        match skipBlanks rest with
        | '\x7d' :: rest => some (.table .inline [], rest)
        | rest =>
          (readPairs fuel levels [] rest).map fun (entries, rest) => (.table .inline entries, rest)
    | _ =>
      match readString cs with
      | some (text, rest) => some (.string text, rest)
      | none => readNumeric cs

def readItems : Nat → Nat → List Char → Option (List Value × List Char)
  | 0, _, _ => none
  | fuel + 1, levels, cs =>
    match cs with
    | ']' :: rest => some ([], rest)
    | _ =>
      match readValue fuel levels cs with
      | none => none
      | some (item, rest) =>
        match skipSpace false rest with
        | ',' :: rest =>
          (readItems fuel levels (skipSpace false rest)).map fun (items, rest) =>
            (item :: items, rest)
        | ']' :: rest => some ([item], rest)
        | _ => none

def readPairs : Nat → Nat → Entries → List Char → Option (Entries × List Char)
  | 0, _, _, _ => none
  | fuel + 1, levels, entries, cs =>
    match readKey cs with
    | some (key, '=' :: rest) =>
      match readValue fuel levels (skipBlanks rest) with
      | none => none
      | some (value, rest) =>
        match entries.add? key value with
        | none => none
        | some entries =>
          match skipBlanks rest with
          | ',' :: rest => readPairs fuel levels entries rest
          | '\x7d' :: rest => some (entries, rest)
          | _ => none
    | _ => none

end

/-- The document read so far: its table, and the path of the last header. -/
structure Draft where
  root : Entries
  path : List String

namespace Draft

def header? (d : Draft) (path : List String) (isElement : Bool) : Option Draft :=
  (d.root.open? path isElement).map (⟨·, path⟩)

def add? (d : Draft) (key : List String) (value : Value) : Option Draft :=
  (d.root.change? (Entries.add? key value) d.path).map (⟨·, d.path⟩)

end Draft

def readHeader (d : Draft) (isElement : Bool) (cs : List Char) : Option (Draft × List Char) :=
  match isElement, readKey cs with
  | false, some (path, ']' :: rest) => do
    let rest ← afterLine? rest
    return (← d.header? path false, rest)
  | true, some (path, ']' :: ']' :: rest) => do
    let rest ← afterLine? rest
    return (← d.header? path true, rest)
  | _, _ => none

def readPair (d : Draft) (cs : List Char) : Option (Draft × List Char) :=
  match readKey cs with
  | some (key, '=' :: rest) => do
    let (value, rest) ← readValue (rest.length + 1) (depthLimit - 1) (skipBlanks rest)
    let rest ← afterLine? rest
    return (← d.add? key value, rest)
  | _ => none

def readLines : Nat → Draft → List Char → Option Entries
  | 0, _, _ => none
  | fuel + 1, d, cs =>
    match skipBlanks cs with
    | [] => some d.root
    | '[' :: '[' :: rest =>
      (readHeader d true rest).bind fun (d, rest) => readLines fuel d rest
    | '[' :: rest => (readHeader d false rest).bind fun (d, rest) => readLines fuel d rest
    | '#' :: rest => (afterLine? ('#' :: rest)).bind (readLines fuel d)
    | rest =>
      match afterNewline? rest with
      | some rest => readLines fuel d rest
      | none => (readPair d rest).bind fun (d, rest) => readLines fuel d rest

/-- The text without the mark that may come first in a file. -/
def skipMark : List Char → List Char
  | '\ufeff' :: rest => rest
  | cs => cs

def ofText? (s : String) : Option Entries :=
  let cs := skipMark s.toList
  readLines (cs.length + 1) ⟨[], []⟩ cs

end ConditionLint.Toml
