import ConditionLint.Decimal.Read
import ConditionLint.Toml.Value

/-!
# TOML numbers

Digits may be grouped by single underscores between them. An integer has to fit 64 bits with sign,
and a decimal beyond the doubles is refused unless it is negative.
-/

set_option autoImplicit false

namespace ConditionLint.Toml

open Decimal

def moreDigits (isDigit : Char → Bool) : List Char → List Char × List Char
  | '_' :: c :: rest =>
    if isDigit c then
      let (digits, rest) := moreDigits isDigit rest
      (c :: digits, rest)
    else
      ([], '_' :: c :: rest)
  | c :: rest =>
    if isDigit c then
      let (digits, rest) := moreDigits isDigit rest
      (c :: digits, rest)
    else
      ([], c :: rest)
  | [] => ([], [])

def digits? (isDigit : Char → Bool) : List Char → Option (List Char × List Char)
  | c :: rest =>
    if isDigit c then
      let (digits, rest) := moreDigits isDigit rest
      some (c :: digits, rest)
    else
      none
  | [] => none

/-- The digits of a decimal number; after a zero there are no more. -/
def decimalDigits? : List Char → Option (List Char × List Char)
  | '0' :: rest => some (['0'], rest)
  | cs => digits? Char.isDigit cs

/-- The value of a digit, of which those above nine are letters. -/
def digitValue (c : Char) : Nat :=
  if c.isDigit then c.toNat - '0'.toNat else c.toLower.toNat - 'a'.toNat + 10

def digitsIn (base : Nat) (digits : List Char) : Nat :=
  digits.foldl (fun n c => base * n + digitValue c) 0

def isDigitBelow (base : Nat) (c : Char) : Bool :=
  c.isDigit && c.toNat - '0'.toNat < base

def isHexDigit (c : Char) : Bool :=
  c.isDigit || ('a' ≤ c && c ≤ 'f') || ('A' ≤ c && c ≤ 'F')

/-- The integer, if it fits 64 bits with sign. -/
def integer? (value : Int) : Option Value :=
  if -0x8000000000000000 ≤ value && value < 0x8000000000000000 then some (.integer value)
  else none

def readBased (base : Nat) (isDigit : Char → Bool) (cs : List Char) :
    Option (Value × List Char) := do
  let (digits, rest) ← digits? isDigit cs
  return (← integer? (digitsIn base digits), rest)

def readInteger : List Char → Option (Value × List Char)
  | '0' :: 'x' :: rest => readBased 16 isHexDigit rest
  | '0' :: 'o' :: rest => readBased 8 (isDigitBelow 8) rest
  | '0' :: 'b' :: rest => readBased 2 (isDigitBelow 2) rest
  | cs => do
    let (negative, cs) := takeSign cs
    let (digits, rest) ← decimalDigits? cs
    let size : Int := digitsValue digits
    return (← integer? (if negative then -size else size), rest)

def readExponent : List Char → Option (Int × List Char)
  | c :: rest =>
    if c = 'e' || c = 'E' then do
      let (negative, rest) := takeSign rest
      let (digits, rest) ← digits? Char.isDigit rest
      let size : Int := digitsValue digits
      return (if negative then -size else size, rest)
    else
      none
  | [] => none

def readFraction : List Char → Option (List Char × List Char)
  | '.' :: rest => digits? Char.isDigit rest
  | _ => none

/-- The number of a decimal, unless it is beyond the doubles. -/
def float? (negative : Bool) (whole fraction : List Char) (exponent : Int) : Option Value :=
  let value :=
    Binary64.ofDecimal negative (digitsValue (whole ++ fraction)) (exponent - fraction.length)
  if value.isInfinite && !negative then none else some (.float value)

def readDecimal (cs : List Char) : Option (Value × List Char) := do
  let (negative, cs) := takeSign cs
  let (whole, cs) ← decimalDigits? cs
  match readFraction cs with
  | some (fraction, cs) =>
    match readExponent cs with
    | some (exponent, cs) => return (← float? negative whole fraction exponent, cs)
    | none => return (← float? negative whole fraction 0, cs)
  | none =>
    let (exponent, cs) ← readExponent cs
    return (← float? negative whole [] exponent, cs)

def readSpecial (cs : List Char) : Option (Value × List Char) :=
  let (negative, cs) := takeSign cs
  match cs with
  | 'i' :: 'n' :: 'f' :: rest => some (.float (.infinity negative), rest)
  | 'n' :: 'a' :: 'n' :: rest => some (.float (.withSign negative .nan), rest)
  | _ => none

end ConditionLint.Toml
