import ConditionLint.Json.Value
import ConditionLint.Decimal.Shortest

/-!
# Writing JSON text

The compact form of a value: no blanks, members in their order, and only the characters escaped
that must be. What has no number form is written as `null`.
-/

set_option autoImplicit false

namespace ConditionLint.Json

open Decimal

def escape (c : Char) : List Char :=
  match c with
  | '"' => ['\\', '"']
  | '\\' => ['\\', '\\']
  | '\x08' => ['\\', 'b']
  | '\x0c' => ['\\', 'f']
  | '\n' => ['\\', 'n']
  | '\r' => ['\\', 'r']
  | '\t' => ['\\', 't']
  | c =>
    if c < ' ' then
      ['\\', 'u', '0', '0', Nat.digitChar (c.toNat / 16), Nat.digitChar (c.toNat % 16)]
    else
      [c]

def writeText (s : String) : String :=
  String.ofList ('"' :: s.toList.flatMap escape ++ ['"'])

/-- A positive decimal in JSON. It always shows that it is a double: from `10 ^ -5` on and below
`10 ^ 16` it is positional with a place after the point, and elsewhere it has an exponent. -/
def writeNumeral (d : Numeral) : List Char :=
  let digits := Nat.toDigits 10 d.digits
  let exponent : Int := d.power + digits.length - 1
  if -5 ≤ exponent && exponent < 16 then
    if 0 ≤ d.power then d.positional ++ ['.', '0'] else d.positional
  else
    let fraction := if digits.length = 1 then [] else '.' :: digits.drop 1
    digits.take 1 ++ fraction ++ 'e' :: (toString exponent).toList

def writeNumber : Number → String
  | .integer value => toString value
  | .double value =>
    if value.isFinite then
      let digits := if value.isZero then ['0', '.', '0'] else writeNumeral value.shortest
      (if value.isNegative then "-" else "") ++ String.ofList digits
    else
      "null"

mutual

def toText : Json → String
  | .null => "null"
  | .bool value => if value then "true" else "false"
  | .number value => writeNumber value
  | .string value => writeText value
  | .array items => "[" ++ itemsText items ++ "]"
  | .object members => "\x7b" ++ membersText members ++ "\x7d"
  | .unreadable => "null"

def itemsText : List Json → String
  | [] => ""
  | [item] => toText item
  | item :: items => toText item ++ "," ++ itemsText items

def membersText : List (String × Json) → String
  | [] => ""
  | [(name, value)] => writeText name ++ ":" ++ toText value
  | (name, value) :: members => writeText name ++ ":" ++ toText value ++ "," ++ membersText members

end

end ConditionLint.Json
