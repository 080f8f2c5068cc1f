import ConditionLint.Decimal.Shortest
import Mathlib.Algebra.Order.Field.Power
import Mathlib.Data.Rat.Cast.Order
import Mathlib.Tactic.FieldSimp
import Mathlib.Tactic.Linarith
import Mathlib.Tactic.LinearCombination
import Mathlib.Tactic.NormNum
import Mathlib.Tactic.Ring

/-!
# Shortest decimals

The shortest decimal of a finite number lies in the interval of the reals that round to it: the
search meets a place where the decimals are closer together than the ends of the interval, at the
latest at its last place. The intervals of different numbers have no point in common.
-/

set_option autoImplicit false

namespace ConditionLint.Decimal

variable {i : Interval} {d : Numeral} {x y : Binary64} {power : Int}

/-- The number that a decimal denotes. -/
def Numeral.value (d : Numeral) : ℚ :=
  d.digits * 10 ^ d.power

/-!
## Places
-/

private theorem tenPower_eq (power : Int) :
    ((tenPower power).1 : ℚ) = 10 ^ power * (tenPower power).2 ∧ 0 < (tenPower power).2 := by
  unfold tenPower
  split
  · rename_i nonneg
    obtain ⟨places, rfl⟩ := Int.eq_ofNat_of_zero_le nonneg
    simp
  · rename_i negative
    obtain ⟨places, isPlaces⟩ := Int.eq_ofNat_of_zero_le (a := -power) (by omega)
    obtain rfl : power = -(places : Int) := by omega
    simp

namespace Interval

def unit (i : Interval) : ℚ :=
  i.unitNum / i.unitDen

/-- The common denominator of the interval and of a place. -/
def commonDen (i : Interval) (power : Int) : ℚ :=
  i.unitDen * (tenPower power).2

private theorem commonDen_pos (positive : 0 < i.unitDen) (power : Int) : 0 < i.commonDen power := by
  have unitPositive : (0 : ℚ) < i.unitDen := by exact_mod_cast positive
  have tenPositive : (0 : ℚ) < (tenPower power).2 := by exact_mod_cast (tenPower_eq power).2
  exact mul_pos unitPositive tenPositive

private theorem scaled_end (positive : 0 < i.unitDen) (n : Nat) (power : Int) :
    ((n * i.unitNum * (tenPower power).2 : Nat) : ℚ) = n * i.unit * i.commonDen power := by
  have unitPositive : (0 : ℚ) < i.unitDen := by exact_mod_cast positive
  push_cast
  rw [unit, commonDen]
  field_simp

private theorem scaled_point (i : Interval) (n : Nat) (power : Int) :
    ((n * (tenPower power).1 * i.unitDen : Nat) : ℚ) =
      Numeral.value ⟨n, power⟩ * i.commonDen power := by
  push_cast
  rw [(tenPower_eq power).1, Numeral.value, commonDen]
  ring

/-- A decimal is in the interval if it lies between the ends, which count if it is closed. -/
theorem contains_iff (positive : 0 < i.unitDen) : i.contains d = true ↔
    if i.closed then i.low * i.unit ≤ d.value ∧ d.value ≤ i.high * i.unit
    else i.low * i.unit < d.value ∧ d.value < i.high * i.unit := by
  have common := commonDen_pos positive d.power
  have point := scaled_point i d.digits d.power
  have bound (n : Nat) := scaled_end positive n d.power
  unfold contains
  cases i.closed with
  | true =>
      simp only [if_true, Bool.and_eq_true, decide_eq_true_eq]
      rw [← @Nat.cast_le ℚ, ← @Nat.cast_le ℚ, point, bound, bound,
        mul_le_mul_iff_left₀ common, mul_le_mul_iff_left₀ common]
  | false =>
      simp only [Bool.false_eq_true, if_false, Bool.and_eq_true, decide_eq_true_eq]
      rw [← @Nat.cast_lt ℚ, ← @Nat.cast_lt ℚ, point, bound, bound,
        mul_lt_mul_iff_left₀ common, mul_lt_mul_iff_left₀ common]

private theorem contains_of_lt (positive : 0 < i.unitDen) (low : i.low * i.unit < d.value)
    (high : d.value < i.high * i.unit) : i.contains d = true := by
  rw [contains_iff positive]
  split
  · exact ⟨low.le, high.le⟩
  · exact ⟨low, high⟩

/-!
## The search
-/

/-- The next decimal of a place is above the number, and at most one unit of the place away. -/
private theorem floorAt_lt (positive : 0 < i.unitDen) (power : Int) :
    i.value * i.unit < Numeral.value ⟨(i.floorAt power).1 + 1, power⟩ ∧
      Numeral.value ⟨(i.floorAt power).1 + 1, power⟩ ≤ i.value * i.unit + 10 ^ power := by
  have common := commonDen_pos positive power
  have tenPositive : 0 < (tenPower power).1 := by
    unfold tenPower
    split
    · exact Nat.pow_pos (by decide)
    · exact Nat.one_pos
  have denPositive : 0 < i.unitDen * (tenPower power).1 := Nat.mul_pos positive tenPositive
  have below := Nat.mul_div_le (i.value * i.unitNum * (tenPower power).2)
    (i.unitDen * (tenPower power).1)
  have above := Nat.lt_mul_div_succ (i.value * i.unitNum * (tenPower power).2) denPositive
  have floor : (i.floorAt power).1 =
      i.value * i.unitNum * (tenPower power).2 / (i.unitDen * (tenPower power).1) := rfl
  have place (n : Nat) :
      i.unitDen * (tenPower power).1 * n = n * (tenPower power).1 * i.unitDen := by
    ring
  rw [← floor, place, ← @Nat.cast_le ℚ, scaled_end positive, scaled_point,
    mul_le_mul_iff_left₀ common] at below
  rw [← floor, place, ← @Nat.cast_lt ℚ, scaled_end positive, scaled_point,
    mul_lt_mul_iff_left₀ common] at above
  refine ⟨above, ?_⟩
  unfold Numeral.value at below ⊢
  push_cast
  linarith

theorem contains_of_nearestAt? (found : i.nearestAt? power = some d) : i.contains d = true := by
  simp only [nearestAt?] at found
  split at found
  · rename_i below above
    cases found
    split
    · exact (Bool.and_eq_true_iff.mp below).1
    · exact above
  · rename_i below _
    cases found
    exact (Bool.and_eq_true_iff.mp below).1
  · rename_i _ above
    cases found
    exact above
  · cases found

/-- A place has a decimal in the interval if its decimals are closer together than the number and
the upper end. -/
theorem isSome_nearestAt? (positive : 0 < i.unitDen) (unitPositive : 0 < i.unit)
    (low : i.low < i.value) (close : 10 ^ power < (i.high - i.value) * i.unit) :
    (i.nearestAt? power).isSome = true := by
  obtain ⟨above, near⟩ := floorAt_lt positive power
  have inside : i.contains ⟨(i.floorAt power).1 + 1, power⟩ = true := by
    refine contains_of_lt positive ?_ ?_
    · have lower : (i.low : ℚ) * i.unit < i.value * i.unit :=
        mul_lt_mul_of_pos_right (by exact_mod_cast low) unitPositive
      exact lower.trans above
    · rw [sub_mul] at close
      linarith
  simp only [nearestAt?, inside]
  split <;> simp_all

/-- The search finds a decimal in the interval if there is one at a place that it tries. -/
theorem contains_firstHit {places k : Nat} (tried : k < places)
    (hit : (i.nearestAt? (power - k)).isSome = true) :
    i.contains (i.firstHit places power) = true := by
  induction places generalizing power k with
  | zero => exact absurd tried (Nat.not_lt_zero k)
  | succ places ih =>
      rw [firstHit]
      split
      · rename_i found here
        exact contains_of_nearestAt? here
      · rename_i none
        cases k with
        | zero => simp [none] at hit
        | succ k =>
            refine ih (Nat.lt_of_succ_lt_succ tried) ?_
            have place : power - 1 - (k : Int) = power - ((k + 1 : Nat) : Int) := by omega
            rwa [place]

end Interval

/-!
## The interval of a double
-/

namespace Binary64

private theorem unitDen_interval_pos (x : Binary64) : 0 < x.interval.unitDen := by
  simp only [interval]
  split
  · exact Nat.one_pos
  · rw [Nat.one_shiftLeft]
    exact Nat.two_pow_pos _

private theorem unit_interval (x : Binary64) : x.interval.unit = 2 ^ (x.scale - 2) := by
  simp only [Interval.unit, interval]
  split
  · rename_i nonneg
    obtain ⟨places, isPlaces⟩ := Int.eq_ofNat_of_zero_le nonneg
    simp [isPlaces, Nat.one_shiftLeft]
  · rename_i negative
    obtain ⟨places, isPlaces⟩ := Int.eq_ofNat_of_zero_le (a := -(x.scale - 2)) (by omega)
    obtain isScale : x.scale - 2 = -(places : Int) := by omega
    simp [isScale, Nat.one_shiftLeft]

private theorem log2_mul_two_pow {n : Nat} (nonzero : n ≠ 0) (k : Nat) :
    (n * 2 ^ k).log2 = n.log2 + k := by
  rw [Nat.log2_eq_iff (Nat.mul_ne_zero nonzero (Nat.two_pow_pos k).ne'), Nat.add_right_comm,
    Nat.pow_add, Nat.pow_add]
  exact ⟨Nat.mul_le_mul_right _ (Nat.log2_self_le nonzero),
    Nat.mul_lt_mul_of_pos_right Nat.lt_log2_self (Nat.two_pow_pos k)⟩

/-- The binary size of a number, from which the first place is guessed. -/
private theorem size_interval (x : Binary64) (nonzero : x.mantissa ≠ 0) :
    ((x.interval.value * x.interval.unitNum).log2 : Int) - x.interval.unitDen.log2 =
      x.mantissa.log2 + x.scale := by
  have value : x.interval.value = x.mantissa * 2 ^ 2 := Nat.mul_comm 4 x.mantissa
  rw [value]
  simp only [interval, Nat.one_shiftLeft]
  split
  · rw [Nat.mul_assoc, ← Nat.pow_add, log2_mul_two_pow nonzero]
    have one : Nat.log2 1 = 0 := by decide
    omega
  · rw [Nat.mul_one, log2_mul_two_pow nonzero, Nat.log2_two_pow]
    omega

private theorem ten_zpow_le_two_zpow {ten two : Int} (raised : 10 * ten ≤ 3 * two)
    (lowered : 33 * ten ≤ 10 * two) : (10 : ℚ) ^ ten ≤ 2 ^ two := by
  rcases Int.le_total 0 ten with nonneg | nonpos
  · obtain ⟨places, rfl⟩ := Int.eq_ofNat_of_zero_le nonneg
    refine le_of_pow_le_pow_left₀ (n := 3) (by decide) (by positivity) ?_
    calc
      ((10 : ℚ) ^ (places : Int)) ^ 3 = 1000 ^ places := by
        rw [zpow_natCast, ← pow_mul, mul_comm, pow_mul]
        norm_num
      _ ≤ 1024 ^ places := pow_le_pow_left₀ (by norm_num) (by norm_num) places
      _ = 2 ^ (10 * (places : Int)) := by
        rw [zpow_mul, zpow_natCast]
        norm_num
      _ ≤ 2 ^ (3 * two) := zpow_le_zpow_right₀ (by norm_num) raised
      _ = (2 ^ two) ^ 3 := by rw [mul_comm, zpow_mul, ← zpow_natCast]; rfl
  · obtain ⟨places, isPlaces⟩ := Int.eq_ofNat_of_zero_le (a := -ten) (by omega)
    obtain rfl : ten = -(places : Int) := by omega
    refine le_of_pow_le_pow_left₀ (n := 10) (by decide) (by positivity) ?_
    calc
      ((10 : ℚ) ^ (-(places : Int))) ^ 10 = (10000000000 ^ places)⁻¹ := by
        rw [zpow_neg, zpow_natCast, inv_pow, ← pow_mul, mul_comm, pow_mul]
        norm_num
      _ ≤ (8589934592 ^ places)⁻¹ :=
        inv_anti₀ (by positivity) (pow_le_pow_left₀ (by norm_num) (by norm_num) places)
      _ = 2 ^ (33 * -(places : Int)) := by
        rw [zpow_mul, zpow_neg, zpow_natCast]
        norm_num
      _ ≤ 2 ^ (10 * two) := zpow_le_zpow_right₀ (by norm_num) lowered
      _ = (2 ^ two) ^ 10 := by rw [mul_comm, zpow_mul, ← zpow_natCast]; rfl

private theorem ten_zpow_last_lt {size : Int} (low : -1074 ≤ size) (high : size ≤ 1023) :
    (10 : ℚ) ^ (size * 30103 / 100000 + 2 - 21) < 2 ^ (size - 53) := by
  have guess : (10 : ℚ) ^ (size * 30103 / 100000) ≤ 2 ^ (size + 10) :=
    ten_zpow_le_two_zpow (by omega) (by omega)
  have last : (10 : ℚ) ^ (-19 : Int) < 2 ^ (-63 : Int) := by norm_num
  calc
    (10 : ℚ) ^ (size * 30103 / 100000 + 2 - 21) =
        10 ^ (size * 30103 / 100000) * 10 ^ (-19 : Int) := by
      rw [← zpow_add₀ (by norm_num)]
      congr 1
      omega
    _ < 2 ^ (size + 10) * 2 ^ (-63 : Int) :=
      mul_lt_mul_of_le_of_lt_of_nonneg_of_pos guess last (by positivity) (by positivity)
    _ = 2 ^ (size - 53) := by
      rw [← zpow_add₀ (by norm_num)]
      congr 1
      omega

private theorem mantissa_lt (x : Binary64) : x.mantissa < 2 ^ 53 := by
  have fraction : x.fraction < exponentUnit := Nat.mod_lt _ (by decide)
  unfold mantissa
  rw [exponentUnit] at *
  split <;> omega

private theorem mantissa_ne_zero (nonzero : x.isZero = false) : x.mantissa ≠ 0 := by
  have magnitude : x.magnitude ≠ 0 := beq_eq_false_iff_ne.mp nonzero
  unfold mantissa exponent fraction
  rw [exponentUnit]
  split <;> omega

private theorem scale_bounds (finite : x.isFinite = true) : -1074 ≤ x.scale ∧ x.scale ≤ 971 := by
  have exponent : x.exponent ≠ 2047 := bne_iff_ne.mp finite
  have magnitude : x.magnitude < signUnit := Nat.mod_lt _ (by decide)
  unfold scale
  unfold Binary64.exponent at exponent ⊢
  rw [signUnit] at magnitude
  rw [exponentUnit] at exponent ⊢
  split <;> omega

/-- The shortest decimal of a number is in the interval of what rounds to the number. -/
theorem contains_shortest (finite : x.isFinite = true) (nonzero : x.isZero = false) :
    x.interval.contains x.shortest = true := by
  have positive := unitDen_interval_pos x
  have mantissaNonzero := mantissa_ne_zero nonzero
  have log2_le : x.mantissa.log2 ≤ 52 :=
    Nat.le_of_lt_succ ((Nat.log2_lt mantissaNonzero).mpr (mantissa_lt x))
  obtain ⟨scaleLow, scaleHigh⟩ := scale_bounds finite
  have unit := unit_interval x
  rw [shortest, size_interval x mantissaNonzero]
  refine Interval.contains_firstHit (k := 21) (by decide) ?_
  refine Interval.isSome_nearestAt? positive (by rw [unit]; positivity) ?_ ?_
  · simp only [interval]
    split <;> omega
  · have width : ((x.interval.high : ℚ) - x.interval.value) = 2 := by
      simp only [interval]
      push_cast
      ring
    rw [width, unit]
    calc
      _ < (2 : ℚ) ^ ((x.mantissa.log2 : Int) + x.scale - 53) :=
        ten_zpow_last_lt (by omega) (by omega)
      _ ≤ 2 ^ (1 + (x.scale - 2)) := zpow_le_zpow_right₀ (by norm_num) (by omega)
      _ = 2 * 2 ^ (x.scale - 2) := by rw [zpow_add₀ (by norm_num), zpow_one]

/-!
## Different numbers
-/

def mantissaAt (magnitude : Nat) : Nat :=
  if magnitude / exponentUnit = 0 then magnitude % exponentUnit
  else exponentUnit + magnitude % exponentUnit

def scaleAt (magnitude : Nat) : Int :=
  if magnitude / exponentUnit = 0 then -1074 else (magnitude / exponentUnit : Nat) - 1075

/-- The lower end of the interval of the numbers with the given magnitude. -/
def lowerEnd (magnitude : Nat) : ℚ :=
  (4 * mantissaAt magnitude -
      if magnitude % exponentUnit = 0 ∧ 1 < magnitude / exponentUnit then 1 else 2) *
    2 ^ (scaleAt magnitude - 2)

/-- Behind the greatest mantissa the next number has the next exponent and the least mantissa. -/
private theorem lowerEnd_succ_of_last {magnitude : Nat}
    (last : magnitude % exponentUnit + 1 = exponentUnit) :
    lowerEnd (magnitude + 1) = (4 * mantissaAt magnitude + 2) * 2 ^ (scaleAt magnitude - 2) := by
  have quotient : (magnitude + 1) / exponentUnit = magnitude / exponentUnit + 1 := by
    rw [exponentUnit] at *
    omega
  have remainder : (magnitude + 1) % exponentUnit = 0 := by
    rw [exponentUnit] at *
    omega
  have mantissa : mantissaAt (magnitude + 1) = exponentUnit := by
    rw [mantissaAt, quotient, remainder, if_neg (Nat.succ_ne_zero _)]
    rfl
  rw [lowerEnd, mantissa, quotient, remainder]
  by_cases subnormal : magnitude / exponentUnit = 0
  · -- the first normal numbers have the scale of the subnormal ones
    have scale : scaleAt (magnitude + 1) = scaleAt magnitude := by
      rw [scaleAt, scaleAt, quotient, subnormal]
      rfl
    have whole : (exponentUnit : ℚ) = mantissaAt magnitude + 1 := by
      rw [mantissaAt, if_pos subnormal]
      exact_mod_cast last.symm
    rw [scale, whole, if_neg (by omega)]
    ring
  · have scale : scaleAt (magnitude + 1) - 2 = scaleAt magnitude - 2 + 1 := by
      rw [scaleAt, scaleAt, quotient, if_neg subnormal, if_neg (Nat.succ_ne_zero _)]
      omega
    have whole : (2 * exponentUnit : ℚ) = mantissaAt magnitude + 1 := by
      rw [mantissaAt, if_neg subnormal]
      have doubled : 2 * exponentUnit = exponentUnit + magnitude % exponentUnit + 1 := by
        omega
      exact_mod_cast doubled
    rw [scale, zpow_add₀ (by norm_num), zpow_one,
      if_pos ⟨rfl, Nat.succ_lt_succ (Nat.pos_of_ne_zero subnormal)⟩]
    linear_combination 4 * 2 ^ (scaleAt magnitude - 2) * whole

private theorem lowerEnd_succ_of_not_last {magnitude : Nat}
    (notLast : magnitude % exponentUnit + 1 ≠ exponentUnit) :
    lowerEnd (magnitude + 1) = (4 * mantissaAt magnitude + 2) * 2 ^ (scaleAt magnitude - 2) := by
  have quotient : (magnitude + 1) / exponentUnit = magnitude / exponentUnit := by
    rw [exponentUnit] at *
    omega
  have remainder : (magnitude + 1) % exponentUnit = magnitude % exponentUnit + 1 := by
    rw [exponentUnit] at *
    omega
  have mantissa : mantissaAt (magnitude + 1) = mantissaAt magnitude + 1 := by
    rw [mantissaAt, mantissaAt, quotient, remainder]
    split <;> rfl
  have scale : scaleAt (magnitude + 1) = scaleAt magnitude := by
    rw [scaleAt, scaleAt, quotient]
  rw [lowerEnd, mantissa, scale, quotient, remainder, if_neg (by omega)]
  push_cast
  ring

/-- The lower end of the next interval is the upper end of the interval. -/
theorem lowerEnd_succ (magnitude : Nat) :
    lowerEnd (magnitude + 1) = (4 * mantissaAt magnitude + 2) * 2 ^ (scaleAt magnitude - 2) := by
  by_cases last : magnitude % exponentUnit + 1 = exponentUnit
  · exact lowerEnd_succ_of_last last
  · exact lowerEnd_succ_of_not_last last

theorem strictMono_lowerEnd : StrictMono lowerEnd := by
  refine strictMono_nat_of_lt_succ fun magnitude => ?_
  rw [lowerEnd_succ, lowerEnd]
  refine mul_lt_mul_of_pos_right ?_ (by positivity)
  split <;> linarith

private theorem low_interval (nonzero : x.isZero = false) :
    x.interval.low * x.interval.unit = lowerEnd x.magnitude := by
  have mantissa := mantissa_ne_zero nonzero
  have low : (x.interval.low : ℚ) =
      4 * x.mantissa - if x.fraction = 0 ∧ 1 < x.exponent then 1 else 2 := by
    simp only [interval, Bool.and_eq_true, decide_eq_true_eq]
    split <;> rw [Nat.cast_sub (by omega)] <;> push_cast <;> rfl
  rw [unit_interval, low]
  rfl

private theorem high_interval (x : Binary64) :
    x.interval.high * x.interval.unit = lowerEnd (x.magnitude + 1) := by
  have high : (x.interval.high : ℚ) = 4 * x.mantissa + 2 := by
    simp only [interval]
    push_cast
    rfl
  rw [unit_interval, high, lowerEnd_succ]
  rfl

private theorem closed_interval_iff (x : Binary64) :
    x.interval.closed = true ↔ x.magnitude % 2 = 0 := by
  have closed : x.interval.closed = decide (x.mantissa % 2 = 0) := rfl
  have parity : x.mantissa % 2 = x.magnitude % 2 := by
    unfold mantissa exponent fraction exponentUnit
    split <;> omega
  rw [closed, parity, decide_eq_true_iff]

/-- A number in an interval is between the lower ends of the interval and of the next one, and only
equal to one of them if the magnitude is even. -/
theorem bounds_of_contains (nonzero : x.isZero = false) (inside : x.interval.contains d = true) :
    lowerEnd x.magnitude ≤ d.value ∧ d.value ≤ lowerEnd (x.magnitude + 1) ∧
      (lowerEnd x.magnitude = d.value ∨ d.value = lowerEnd (x.magnitude + 1) →
        x.magnitude % 2 = 0) := by
  rw [Interval.contains_iff (unitDen_interval_pos x), low_interval nonzero, high_interval] at inside
  split at inside
  · rename_i closed
    exact ⟨inside.1, inside.2, fun _ => (closed_interval_iff x).mp closed⟩
  · refine ⟨inside.1.le, inside.2.le, fun atEnd => ?_⟩
    rcases atEnd with atLow | atHigh
    · exact absurd atLow inside.1.ne
    · exact absurd atHigh inside.2.ne

theorem magnitude_le_of_contains {d' : Numeral} (nonzero : x.isZero = false)
    (nonzero' : y.isZero = false) (inX : x.interval.contains d = true)
    (inY : y.interval.contains d' = true) (same : d.value = d'.value) :
    y.magnitude ≤ x.magnitude := by
  obtain ⟨_, aboveX, evenX⟩ := bounds_of_contains nonzero inX
  obtain ⟨belowY, _, evenY⟩ := bounds_of_contains nonzero' inY
  rw [← same] at belowY evenY
  by_contra less
  have next : x.magnitude + 1 ≤ y.magnitude := Nat.lt_of_not_le less
  -- the decimal is the end that the intervals share, and only one of them holds it
  have ends := strictMono_lowerEnd.monotone next
  have consecutive : x.magnitude + 1 = y.magnitude :=
    strictMono_lowerEnd.injective (le_antisymm ends (belowY.trans aboveX))
  have atHigh := le_antisymm aboveX (ends.trans belowY)
  have atLow := le_antisymm belowY (aboveX.trans ends)
  have firstEven := evenX (.inr atHigh)
  have secondEven := evenY (.inl atLow)
  omega

/-- The shortest decimal tells the magnitude of a number. -/
theorem magnitude_eq_of_shortest (finite : x.isFinite = true) (nonzero : x.isZero = false)
    (finite' : y.isFinite = true) (nonzero' : y.isZero = false)
    (same : x.shortest.value = y.shortest.value) : x.magnitude = y.magnitude := by
  have inX := contains_shortest finite nonzero
  have inY := contains_shortest finite' nonzero'
  exact Nat.le_antisymm (magnitude_le_of_contains nonzero' nonzero inY inX same.symm)
    (magnitude_le_of_contains nonzero nonzero' inX inY same)

theorem shortest_value_pos (finite : x.isFinite = true) (nonzero : x.isZero = false) :
    0 < x.shortest.value := by
  have mantissa := mantissa_ne_zero nonzero
  have inside := contains_shortest finite nonzero
  have low : (0 : ℚ) < x.interval.low * x.interval.unit := by
    have positive : 0 < x.interval.low := by
      simp only [interval]
      split <;> omega
    rw [unit_interval]
    have positive : (0 : ℚ) < x.interval.low := by exact_mod_cast positive
    positivity
  rw [low_interval nonzero] at low
  exact low.trans_le (bounds_of_contains nonzero inside).1

end Binary64

end ConditionLint.Decimal
