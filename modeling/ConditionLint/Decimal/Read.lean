import ConditionLint.Decimal.Binary64

/-!
# Reading decimals

`ofText?` reads a decimal with the nearest double as its value. `Significand.value?` is the coarser
rule of number texts in documents: as many digits as fit 64 bits, then one scaling by a power of
ten, so that the last bit may differ from the nearest double.
-/

set_option autoImplicit false

namespace ConditionLint.Decimal

def digitValue (c : Char) : Nat :=
  c.toNat - '0'.toNat

def digitsValue (cs : List Char) : Nat :=
  cs.foldl (fun value c => 10 * value + digitValue c) 0

/-- The nearest double to `± digits · 10 ^ power`, where powers that decide the answer alone are
not expanded. -/
def Binary64.ofDecimal (negative : Bool) (digits : Nat) (power : Int) : Binary64 :=
  if digits = 0 then .zero negative
  else if 400 < power then .infinity negative
  else if power + digits.log2 < -1200 then .zero negative
  else if 0 ≤ power then .ofRatio negative (digits * Nat.pow 10 power.toNat) 1
  else .ofRatio negative digits (Nat.pow 10 (-power).toNat)

/-- The sign of a text and what follows it. -/
def takeSign : List Char → Bool × List Char
  | '-' :: cs => (true, cs)
  | '+' :: cs => (false, cs)
  | cs => (false, cs)

/-- An exponent: a sign and at least one digit, up to the end of the text. -/
def exponent? (cs : List Char) : Option Int :=
  let (negative, digits) := takeSign cs
  if !digits.isEmpty && digits.all Char.isDigit then
    some (if negative then -(digitsValue digits : Int) else digitsValue digits)
  else
    none

/-- A decimal without sign: digits with at most one point and at least one digit, then possibly an
exponent. -/
def unsigned? (negative : Bool) (cs : List Char) : Option Binary64 := do
  let whole := cs.takeWhile Char.isDigit
  let (fraction, rest) :=
    match cs.dropWhile Char.isDigit with
    | '.' :: rest => (rest.takeWhile Char.isDigit, rest.dropWhile Char.isDigit)
    | rest => ([], rest)
  guard (!(whole ++ fraction).isEmpty)
  let power ←
    match rest with
    | [] => some 0
    | 'e' :: rest | 'E' :: rest => exponent? rest
    | _ => none
  return .ofDecimal negative (digitsValue (whole ++ fraction)) (power - fraction.length)

/-- The number a text denotes: a decimal, an infinity or not a number, with an optional sign. The
words are read without regard to case. -/
def Binary64.ofText? (s : String) : Option Binary64 :=
  let (negative, cs) := takeSign s.toList
  let word := String.ofList (cs.map Char.toLower)
  if word = "inf" || word = "infinity" then some (.infinity negative)
  else if word = "nan" then some (.withSign negative .nan)
  else unsigned? negative cs

/-- The digits of a number text that fit 64 bits, scaled by a power of ten. -/
structure Significand where
  digits : Nat
  power : Int
deriving DecidableEq, Repr

/-- One more than the largest number that fits 64 bits, `2 ^ 64`. -/
def wordLimit : Nat :=
  0x10000000000000000

def pushDigit? (digits : Nat) (c : Char) : Option Nat :=
  let next := 10 * digits + digitValue c
  if next < wordLimit then some next else none

namespace Significand

/-- Continue with digits before the point. After the first digit that does not fit, each digit
only raises the power. -/
def pushWhole (s : Significand) : List Char → Significand
  | [] => s
  | c :: cs =>
    match pushDigit? s.digits c with
    | some digits => pushWhole ⟨digits, s.power⟩ cs
    | none => ⟨s.digits, s.power + (cs.length + 1)⟩

/-- Continue with digits after the point. From the first digit that does not fit on, digits are
dropped. -/
def pushFraction (s : Significand) : List Char → Significand
  | [] => s
  | c :: cs =>
    match pushDigit? s.digits c with
    | some digits => pushFraction ⟨digits, s.power - 1⟩ cs
    | none => s

/-- A number divided by a power of ten, at most 308 places at a time. -/
def divideBy (x : Binary64) (places : Nat) : Binary64 :=
  if places ≤ 308 then x.div (.ofNat (Nat.pow 10 places))
  else if x.isZero then x
  else divideBy (x.div (.ofNat (Nat.pow 10 308))) (places - 308)
termination_by places

/-- The value of the digits at their power; `none` when it is too large for a finite number. -/
def value? (s : Significand) : Option Binary64 :=
  let whole := Binary64.ofNat s.digits
  if s.power < 0 then
    some (divideBy whole (-s.power).toNat)
  else if s.power ≤ 308 then
    let scaled := whole.mul (.ofNat (Nat.pow 10 s.power.toNat))
    if scaled.isInfinite then none else some scaled
  else if whole.isZero then
    some whole
  else
    none

end Significand

end ConditionLint.Decimal
