import ConditionLint.Decimal.Binary64

/-!
# Shortest decimal text

A finite number is written with the fewest digits that read back to it; of two such decimals the
nearer one is taken, and the larger one on a tie. The text is positional: no exponent, no point
after an integer.
-/

set_option autoImplicit false

namespace ConditionLint.Decimal

/-- A positive decimal `digits · 10 ^ power`. -/
structure Numeral where
  digits : Nat
  power : Int
deriving DecidableEq, Repr

/-- A positive number together with the interval of reals that round to it, all as multiples of
one unit. -/
structure Interval where
  low : Nat
  value : Nat
  high : Nat
  unitNum : Nat
  unitDen : Nat
  /-- The ends themselves round to the number. -/
  closed : Bool
deriving Repr

def Binary64.interval (x : Binary64) : Interval :=
  let quarter := x.scale - 2
  { low := 4 * x.mantissa - (if x.fraction = 0 && 1 < x.exponent then 1 else 2)
    value := 4 * x.mantissa
    high := 4 * x.mantissa + 2
    unitNum := if 0 ≤ quarter then 1 <<< quarter.toNat else 1
    unitDen := if 0 ≤ quarter then 1 else 1 <<< (-quarter).toNat
    closed := x.mantissa % 2 = 0 }

def tenPower (power : Int) : Nat × Nat :=
  if 0 ≤ power then (Nat.pow 10 power.toNat, 1) else (1, Nat.pow 10 (-power).toNat)

namespace Interval

def contains (i : Interval) (d : Numeral) : Bool :=
  let (tenNum, tenDen) := tenPower d.power
  let point := d.digits * tenNum * i.unitDen
  let low := i.low * i.unitNum * tenDen
  let high := i.high * i.unitNum * tenDen
  if i.closed then low ≤ point && point ≤ high else low < point && point < high

/-- The number divided by a power of ten, rounded down, and the doubled remainder compared with
one unit of that decimal place. -/
def floorAt (i : Interval) (power : Int) : Nat × Ordering :=
  let (tenNum, tenDen) := tenPower power
  let num := i.value * i.unitNum * tenDen
  let den := i.unitDen * tenNum
  (num / den, compare (2 * (num % den)) den)

/-- The decimal with the given last place that is in the interval and nearest to the number. -/
def nearestAt? (i : Interval) (power : Int) : Option Numeral :=
  let (floor, side) := i.floorAt power
  let below : Numeral := ⟨floor, power⟩
  let above : Numeral := ⟨floor + 1, power⟩
  match i.contains below && floor != 0, i.contains above with
  | true, true => some (if side = .lt then below else above)
  | true, false => some below
  | false, true => some above
  | false, false => none

/-- The first place, from `power` down, at which a decimal is in the interval. -/
def firstHit (i : Interval) : Nat → Int → Numeral
  | 0, power => ⟨(i.floorAt power).1, power⟩
  | places + 1, power =>
    match i.nearestAt? power with
    | some found => found
    | none => firstHit i places (power - 1)

end Interval

/-- The shortest decimal that reads back to a finite positive number. The first place tried is
above the leading digit, and at most eighteen places are needed below it. -/
def Binary64.shortest (x : Binary64) : Numeral :=
  let i := x.interval
  let size : Int := ((i.value * i.unitNum).log2 : Int) - (i.unitDen.log2 : Int)
  i.firstHit 22 (size * 30103 / 100000 + 2)

/-- A decimal in positional form: digits, a point only before digits that are left of the unit,
and no needless zeros. -/
def Numeral.positional (d : Numeral) : List Char :=
  let digits := Nat.toDigits 10 d.digits
  if 0 ≤ d.power then
    digits ++ List.replicate d.power.toNat '0'
  else
    let places := (-d.power).toNat
    if places < digits.length then
      digits.take (digits.length - places) ++ '.' :: digits.drop (digits.length - places)
    else
      '0' :: '.' :: List.replicate (places - digits.length) '0' ++ digits

def Binary64.toText (x : Binary64) : String :=
  if x.isNaN then
    "NaN"
  else
    let sign := if x.isNegative then "-" else ""
    if x.isInfinite then sign ++ "inf"
    else if x.isZero then sign ++ "0"
    else sign ++ String.ofList x.shortest.positional

end ConditionLint.Decimal
