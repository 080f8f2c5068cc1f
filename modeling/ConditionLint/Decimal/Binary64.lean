/-!
# Binary64

Double precision numbers, told apart by their 64 bits. A finite one is `± m · 2 ^ q` for its
`mantissa` `m` and its `scale` `q`; `ofRatio` gives the number nearest to a ratio of naturals, with
ties to the even mantissa, and infinity past the largest finite number.
-/

set_option autoImplicit false

namespace ConditionLint.Decimal

/-- A double precision number. Two are equal when their bits are. -/
structure Binary64 where
  /-- Sign, biased exponent and fraction, from the highest bit down. -/
  bits : UInt64
deriving DecidableEq, Hashable, Repr, Inhabited

namespace Binary64

/-- The sign bit, `2 ^ 63`. -/
def signUnit : Nat :=
  0x8000000000000000

/-- The lowest bit of the exponent, `2 ^ 52`. -/
def exponentUnit : Nat :=
  0x10000000000000

/-- The bits without the sign. -/
def magnitude (x : Binary64) : Nat :=
  x.bits.toNat % signUnit

def isNegative (x : Binary64) : Bool :=
  signUnit ≤ x.bits.toNat

def exponent (x : Binary64) : Nat :=
  x.magnitude / exponentUnit

/-- The stored part of the mantissa. -/
def fraction (x : Binary64) : Nat :=
  x.magnitude % exponentUnit

def isZero (x : Binary64) : Bool :=
  x.magnitude == 0

def isInfinite (x : Binary64) : Bool :=
  x.exponent == 2047 && x.fraction == 0

def isNaN (x : Binary64) : Bool :=
  x.exponent == 2047 && x.fraction != 0

def isFinite (x : Binary64) : Bool :=
  x.exponent != 2047

/-- The mantissa, with its leading bit where it is implied. -/
def mantissa (x : Binary64) : Nat :=
  if x.exponent = 0 then x.fraction else exponentUnit + x.fraction

/-- The power of two that scales the mantissa. -/
def scale (x : Binary64) : Int :=
  if x.exponent = 0 then -1074 else (x.exponent : Int) - 1075

def infinityMagnitude : Nat :=
  2047 * exponentUnit

def ofMagnitude (negative : Bool) (magnitude : Nat) : Binary64 :=
  ⟨UInt64.ofNat (if negative then signUnit + magnitude else magnitude)⟩

def infinity (negative : Bool) : Binary64 :=
  ofMagnitude negative infinityMagnitude

/-- A representative of what is not a number. -/
def nan : Binary64 :=
  ofMagnitude false (infinityMagnitude + exponentUnit / 2)

def zero (negative : Bool) : Binary64 :=
  ofMagnitude negative 0

def roundHalfEven (num den : Nat) : Nat :=
  let floor := num / den
  let twice := 2 * (num % den)
  if twice < den then floor
  else if den < twice then floor + 1
  else if floor % 2 = 0 then floor else floor + 1

/-- A ratio divided by a power of two, as numerator and denominator. -/
def scaleDown (num den : Nat) (power : Int) : Nat × Nat :=
  if 0 ≤ power then (num, den <<< power.toNat) else (num <<< (-power).toNat, den)

/-- The number nearest to `± num / den`, for a positive `den`. -/
def ofRatio (negative : Bool) (num den : Nat) : Binary64 :=
  if num = 0 then
    zero negative
  else
    let guess : Int := max (-1074) ((num.log2 : Int) - (den.log2 : Int) - 53)
    let (guessNum, guessDen) := scaleDown num den guess
    let power := if 2 * exponentUnit ≤ guessNum / guessDen then guess + 1 else guess
    let (scaledNum, scaledDen) := scaleDown num den power
    let bits := (power + 1074).toNat * exponentUnit + roundHalfEven scaledNum scaledDen
    ofMagnitude negative (min bits infinityMagnitude)

def ofNat (n : Nat) : Binary64 :=
  ofRatio false n 1

/-- The number nearest to an integer; zero is positive. -/
def ofInt (i : Int) : Binary64 :=
  ofRatio (i < 0) i.natAbs 1

/-- The absolute value of a finite number as numerator and denominator. -/
def ratio (x : Binary64) : Nat × Nat :=
  if 0 ≤ x.scale then (x.mantissa <<< x.scale.toNat, 1)
  else (x.mantissa, 1 <<< (-x.scale).toNat)

/-- The product of two finite positive numbers, rounded. -/
def mul (x y : Binary64) : Binary64 :=
  ofRatio false (x.ratio.1 * y.ratio.1) (x.ratio.2 * y.ratio.2)

/-- The quotient of two finite positive numbers, rounded. -/
def div (x y : Binary64) : Binary64 :=
  ofRatio false (x.ratio.1 * y.ratio.2) (x.ratio.2 * y.ratio.1)

def withSign (negative : Bool) (x : Binary64) : Binary64 :=
  ofMagnitude negative x.magnitude

end Binary64

end ConditionLint.Decimal
