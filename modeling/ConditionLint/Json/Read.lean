import ConditionLint.Json.Value
import ConditionLint.Decimal.Read

/-!
# Reading JSON text

A scanner over the characters of a document. Each reader returns what it read and the text after
it, or nothing where the text breaks the grammar. `readMembers` also returns the members that come
before a fault, because a reader of a whole document may judge them before it meets the fault.
-/

set_option autoImplicit false

namespace ConditionLint.Json

open Decimal

def skipBlanks : List Char → List Char
  | [] => []
  | c :: cs => if c = ' ' || c = '\t' || c = '\n' || c = '\r' then skipBlanks cs else c :: cs

def hexValue? (c : Char) : Option Nat :=
  if '0' ≤ c && c ≤ '9' then some (c.toNat - '0'.toNat)
  else if 'a' ≤ c && c ≤ 'f' then some (c.toNat - 'a'.toNat + 10)
  else if 'A' ≤ c && c ≤ 'F' then some (c.toNat - 'A'.toNat + 10)
  else none

def codeUnit? (a b c d : Char) : Option Nat := do
  return ((← hexValue? a) * 16 + (← hexValue? b)) * 256 + (← hexValue? c) * 16 + (← hexValue? d)

structure TextSoFar where
  /-- The characters, last first. -/
  reversed : List Char
  /-- The first half of a surrogate pair that still waits for the second. -/
  half : Option Nat
  /-- No surrogate stands alone so far. -/
  sound : Bool

namespace TextSoFar

def empty : TextSoFar :=
  ⟨[], none, true⟩

def push (t : TextSoFar) (c : Char) : TextSoFar :=
  ⟨c :: t.reversed, none, t.sound && t.half.isNone⟩

/-- Append a code unit: a character, or half of a surrogate pair. -/
def pushUnit (t : TextSoFar) (unit : Nat) : TextSoFar :=
  if 0xD800 ≤ unit && unit < 0xDC00 then
    ⟨t.reversed, some unit, t.sound && t.half.isNone⟩
  else if 0xDC00 ≤ unit && unit < 0xE000 then
    match t.half with
    | some high =>
      ⟨Char.ofNat (0x10000 + (high - 0xD800) * 0x400 + (unit - 0xDC00)) :: t.reversed, none,
        t.sound⟩
    | none => ⟨t.reversed, none, false⟩
  else
    t.push (Char.ofNat unit)

/-- The text, unless a surrogate stands alone in it. -/
def finish (t : TextSoFar) : Option String :=
  if t.sound && t.half.isNone then some (String.ofList t.reversed.reverse) else none

end TextSoFar

def shortEscape? : Char → Option Char
  | '"' => some '"'
  | '\\' => some '\\'
  | '/' => some '/'
  | 'b' => some '\x08'
  | 'f' => some '\x0c'
  | 'n' => some '\n'
  | 'r' => some '\r'
  | 't' => some '\t'
  | _ => none

/-- Read a text up to its closing quote. The inner result is absent when a surrogate stands
alone. -/
def readText (t : TextSoFar) : List Char → Option (Option String × List Char)
  | [] => none
  | '"' :: rest => some (t.finish, rest)
  | '\\' :: 'u' :: a :: b :: c :: d :: rest =>
    match codeUnit? a b c d with
    | some unit => readText (t.pushUnit unit) rest
    | none => none
  | '\\' :: c :: rest =>
    match shortEscape? c with
    | some c => readText (t.push c) rest
    | none => none
  | c :: rest => if c < ' ' || c = '\\' then none else readText (t.push c) rest

structure NumberParts where
  negative : Bool
  whole : List Char
  fraction : Option (List Char)
  exponent : Option Int

namespace NumberParts

/-- The value of a number text. Integers that fit 64 bits stay integers, except that the zero
with a minus sign is a double. -/
def value (p : NumberParts) : Json :=
  let whole := Significand.pushWhole ⟨0, 0⟩ p.whole
  if p.fraction.isNone && p.exponent.isNone && whole.power = 0 && !p.negative then
    .number (.integer whole.digits)
  else if p.fraction.isNone && p.exponent.isNone && whole.power = 0 && 0 < whole.digits &&
      whole.digits ≤ 0x8000000000000000 then
    .number (.integer (-(whole.digits : Int)))
  else
    let all := whole.pushFraction (p.fraction.getD [])
    match Significand.value? ⟨all.digits, all.power + p.exponent.getD 0⟩ with
    | some x => .number (.double (x.withSign p.negative))
    | none => .unreadable

end NumberParts

def readExponent (cs : List Char) : Option (Option Int × List Char) :=
  match cs with
  | c :: rest =>
    if c = 'e' || c = 'E' then
      let (negative, rest) := takeSign rest
      let digits := rest.takeWhile Char.isDigit
      if digits.isEmpty then none
      else
        let size : Int := digitsValue digits
        some (some (if negative then -size else size), rest.dropWhile Char.isDigit)
    else
      some (none, cs)
  | [] => some (none, cs)

def readFraction (cs : List Char) : Option (Option (List Char) × List Char) :=
  match cs with
  | '.' :: rest =>
    let digits := rest.takeWhile Char.isDigit
    if digits.isEmpty then none else some (some digits, rest.dropWhile Char.isDigit)
  | _ => some (none, cs)

/-- Read a number. No digit may follow a leading zero. -/
def readNumber (cs : List Char) : Option (Json × List Char) := do
  let (negative, cs) :=
    match cs with
    | '-' :: rest => (true, rest)
    | _ => (false, cs)
  let whole := cs.takeWhile Char.isDigit
  guard (!whole.isEmpty && (whole.head? != some '0' || whole.length = 1))
  let (fraction, cs) ← readFraction (cs.dropWhile Char.isDigit)
  let (exponent, cs) ← readExponent cs
  return ((NumberParts.mk negative whole fraction exponent).value, cs)

/-- The members read from an object: those before a fault or the closing brace, and the text after
the brace if it was reached. A name is absent when a surrogate stands alone in it. -/
structure Members where
  found : List (Option String × Json)
  rest : Option (List Char)

/-- The object of the members read, which is unreadable when one of its names is. -/
def Members.value (found : List (Option String × Json)) : Json :=
  match found.mapM fun (name, value) => name.map fun name => (name, value) with
  | some members => .object members
  | none => .unreadable

mutual

def readValue : Nat → List Char → Option (Json × List Char)
  | 0, _ => none
  | fuel + 1, cs =>
    match skipBlanks cs with
    | 'n' :: 'u' :: 'l' :: 'l' :: rest => some (.null, rest)
    | 't' :: 'r' :: 'u' :: 'e' :: rest => some (.bool true, rest)
    | 'f' :: 'a' :: 'l' :: 's' :: 'e' :: rest => some (.bool false, rest)
    | '"' :: rest =>
      match readText .empty rest with
      | some (some text, rest) => some (.string text, rest)
      | some (none, rest) => some (.unreadable, rest)
      | none => none
    | '[' :: rest =>
      match skipBlanks rest with
      | ']' :: rest => some (.array [], rest)
      | rest =>
        match readItems fuel rest with
        | some (items, rest) => some (.array items, rest)
        | none => none
    | '\x7b' :: rest =>
      match skipBlanks rest with
      | '\x7d' :: rest => some (.object [], rest)
      | rest =>
        match readMembers fuel rest with
        | ⟨found, some rest⟩ => some (Members.value found, rest)
        | ⟨_, none⟩ => none
    | rest => readNumber rest

def readItems : Nat → List Char → Option (List Json × List Char)
  | 0, _ => none
  | fuel + 1, cs =>
    match readValue fuel cs with
    | none => none
    | some (item, rest) =>
      match skipBlanks rest with
      | ',' :: rest =>
        match readItems fuel rest with
        | some (items, rest) => some (item :: items, rest)
        | none => none
      | ']' :: rest => some ([item], rest)
      | _ => none

def readMembers : Nat → List Char → Members
  | 0, _ => ⟨[], none⟩
  | fuel + 1, cs =>
    match skipBlanks cs with
    | '"' :: rest =>
      match readText .empty rest with
      | none => ⟨[], none⟩
      | some (name, rest) =>
        match skipBlanks rest with
        | ':' :: rest =>
          match readValue fuel rest with
          | none => ⟨[], none⟩
          | some (value, rest) =>
            match skipBlanks rest with
            | ',' :: rest =>
              let later := readMembers fuel rest
              ⟨(name, value) :: later.found, later.rest⟩
            | '\x7d' :: rest => ⟨[(name, value)], some rest⟩
            | _ => ⟨[(name, value)], none⟩
        | _ => ⟨[], none⟩
    | _ => ⟨[], none⟩

end

/-- The value of a document: one value, and nothing but blanks around it. -/
def ofText? (s : String) : Option Json :=
  let cs := s.toList
  match readValue (cs.length + 1) cs with
  | some (value, rest) => if (skipBlanks rest).isEmpty then some value else none
  | none => none

/-- The members of a document that is one object, as far as they can be read. -/
structure ObjectReading where
  /-- The members before the first fault. -/
  members : List (String × Json)
  /-- The whole text is one object. -/
  intact : Bool
deriving Repr

/-- The members up to the first unreadable name. -/
def namedPrefix : List (Option String × Json) → List (String × Json)
  | (some name, value) :: rest => (name, value) :: namedPrefix rest
  | _ => []

def objectOfText (s : String) : ObjectReading :=
  let cs := s.toList
  match skipBlanks cs with
  | '\x7b' :: rest =>
    match skipBlanks rest with
    | '\x7d' :: rest => ⟨[], (skipBlanks rest).isEmpty⟩
    | rest =>
      let read := readMembers (cs.length + 1) rest
      ⟨namedPrefix read.found,
        read.found.all (fun (name, _) => name.isSome) &&
          match read.rest with
          | some rest => (skipBlanks rest).isEmpty
          | none => false⟩
  | _ => ⟨[], false⟩

end ConditionLint.Json
