import ConditionLint.Decimal.Read
import Mathlib.Algebra.Group.Nat.Defs

/-!
# Bounds of doubles

The double nearest to a ratio is finite if the ratio is far enough below `2 ^ 1024`. So integers of
64 bits are finite as doubles, and a number text whose value is not refused has a finite one.
-/

set_option autoImplicit false

namespace ConditionLint.Decimal

namespace Binary64

variable {x y : Binary64} {num den : Nat}

theorem magnitude_ofMagnitude {negative : Bool} {magnitude : Nat} (fits : magnitude < signUnit) :
    (ofMagnitude negative magnitude).magnitude = magnitude := by
  rw [signUnit] at fits
  cases negative with
  | false =>
      rw [Binary64.magnitude, ofMagnitude, signUnit, UInt64.toNat_ofNat']
      simp only [Bool.false_eq_true, if_false]
      omega
  | true =>
      rw [Binary64.magnitude, ofMagnitude, signUnit, UInt64.toNat_ofNat']
      simp only [if_true]
      omega

private theorem isFinite_of_magnitude_lt (below : x.magnitude < infinityMagnitude) :
    x.isFinite = true := by
  have exponent : x.exponent < 2047 :=
    Nat.div_lt_of_lt_mul (Nat.mul_comm 2047 exponentUnit ▸ below)
  exact bne_iff_ne.mpr (Nat.ne_of_lt exponent)

theorem isFinite_withSign (finite : x.isFinite = true) (negative : Bool) :
    (x.withSign negative).isFinite = true := by
  have within : x.magnitude < signUnit := Nat.mod_lt _ (by decide)
  rw [isFinite, exponent, withSign, magnitude_ofMagnitude within]
  exact finite

/-!
## Rounding
-/

private theorem roundHalfEven_le (num den : Nat) : roundHalfEven num den ≤ num / den + 1 := by
  rw [roundHalfEven]
  split
  · exact Nat.le_succ _
  · split
    · exact Nat.le_refl _
    · split
      · exact Nat.le_succ _
      · exact Nat.le_refl _

private theorem scaleDown_lt {power : Int} (positive : den ≠ 0)
    (enough : (num.log2 : Int) - den.log2 - 53 ≤ power) :
    (scaleDown num den power).1 / (scaleDown num den power).2 < 2 ^ 54 := by
  have above : num < 2 ^ (num.log2 + 1) := Nat.lt_log2_self
  have below : 2 ^ den.log2 ≤ den := Nat.log2_self_le positive
  unfold scaleDown
  split
  · -- the denominator is raised
    rename_i nonneg
    obtain ⟨places, rfl⟩ := Int.eq_ofNat_of_zero_le nonneg
    rw [Int.toNat_natCast, Nat.shiftLeft_eq]
    refine Nat.div_lt_of_lt_mul ?_
    calc
      num < 2 ^ (num.log2 + 1) := above
      _ ≤ 2 ^ (den.log2 + places + 54) := Nat.pow_le_pow_right (by decide) (by omega)
      _ = 2 ^ den.log2 * 2 ^ places * 2 ^ 54 := by rw [Nat.pow_add, Nat.pow_add]
      _ ≤ den * 2 ^ places * 2 ^ 54 := Nat.mul_le_mul_right _ (Nat.mul_le_mul_right _ below)
  · -- the numerator is raised
    rename_i negative
    obtain ⟨places, isPlaces⟩ := Int.eq_ofNat_of_zero_le (a := -power) (by omega)
    rw [isPlaces, Int.toNat_natCast, Nat.shiftLeft_eq]
    refine Nat.div_lt_of_lt_mul ?_
    calc
      num * 2 ^ places < 2 ^ (num.log2 + 1) * 2 ^ places :=
        Nat.mul_lt_mul_of_pos_right above (Nat.two_pow_pos places)
      _ = 2 ^ (num.log2 + 1 + places) := (Nat.pow_add ..).symm
      _ ≤ 2 ^ (den.log2 + 54) := Nat.pow_le_pow_right (by decide) (by omega)
      _ = 2 ^ den.log2 * 2 ^ 54 := Nat.pow_add ..
      _ ≤ den * 2 ^ 54 := Nat.mul_le_mul_right _ below

private theorem log2_sub_log2_le {k : Nat} (small : num ≤ den * 2 ^ k) :
    (num.log2 : Int) - den.log2 ≤ k := by
  by_cases zero : num = 0
  · subst zero
    simp only [Nat.log2_zero]
    omega
  · have bound : num < 2 ^ (den.log2 + 1 + k) := by
      calc
        num ≤ den * 2 ^ k := small
        _ < 2 ^ (den.log2 + 1) * 2 ^ k :=
          Nat.mul_lt_mul_of_pos_right Nat.lt_log2_self (Nat.two_pow_pos k)
        _ = 2 ^ (den.log2 + 1 + k) := (Nat.pow_add ..).symm
    have lt := (Nat.log2_lt zero).mpr bound
    omega

/-- The double is made of the ratio scaled down by the first power that may be enough, or by the
next one. -/
private theorem exists_ofRatio_eq (negative : Bool) (den : Nat) (nonzero : num ≠ 0) :
    ∃ power : Int,
      (power = max (-1074) ((num.log2 : Int) - den.log2 - 53) ∨
        power = max (-1074) ((num.log2 : Int) - den.log2 - 53) + 1) ∧
      ofRatio negative num den = ofMagnitude negative
        (min ((power + 1074).toNat * exponentUnit +
            roundHalfEven (scaleDown num den power).1 (scaleDown num den power).2)
          infinityMagnitude) := by
  rw [ofRatio, if_neg nonzero]
  refine ⟨_, ?_, rfl⟩
  split
  · exact .inr rfl
  · exact .inl rfl

/-- The double nearest to a ratio that is at most a power of two. -/
theorem magnitude_ofRatio_le {k : Nat} (negative : Bool) (positive : den ≠ 0)
    (small : num ≤ den * 2 ^ k) :
    (ofRatio negative num den).magnitude ≤ (k + 1026) * exponentUnit := by
  by_cases nonzero : num = 0
  · rw [ofRatio, if_pos nonzero, zero, magnitude_ofMagnitude (by decide)]
    exact Nat.zero_le _
  · have size := log2_sub_log2_le small
    obtain ⟨power, isPower, same⟩ := exists_ofRatio_eq negative den nonzero
    have enough : (num.log2 : Int) - den.log2 - 53 ≤ power := by omega
    have scaled := scaleDown_lt positive enough
    have rounded := roundHalfEven_le (scaleDown num den power).1 (scaleDown num den power).2
    have places : (power + 1074).toNat ≤ k + 1022 := by omega
    have total : (power + 1074).toNat * exponentUnit ≤ (k + 1022) * exponentUnit :=
      Nat.mul_le_mul_right _ places
    rw [same, magnitude_ofMagnitude]
    · have carry : roundHalfEven (scaleDown num den power).1 (scaleDown num den power).2 ≤
          4 * exponentUnit := Nat.le_trans rounded scaled
      calc
        min _ infinityMagnitude ≤ _ := Nat.min_le_left ..
        _ ≤ (k + 1022) * exponentUnit + 4 * exponentUnit := Nat.add_le_add total carry
        _ = (k + 1026) * exponentUnit := (Nat.add_mul ..).symm
    · exact Nat.lt_of_le_of_lt (Nat.min_le_right ..) (by decide)

theorem isFinite_ofRatio {k : Nat} {negative : Bool} (positive : den ≠ 0)
    (small : num ≤ den * 2 ^ k) (below : k < 1021) :
    (ofRatio negative num den).isFinite = true := by
  refine isFinite_of_magnitude_lt ?_
  have bound := magnitude_ofRatio_le negative positive small
  rw [infinityMagnitude]
  rw [exponentUnit] at bound ⊢
  omega

theorem isFinite_ofInt {i : Int} (fits : i.natAbs ≤ 2 ^ 64) : (ofInt i).isFinite = true :=
  isFinite_ofRatio (k := 64) Nat.one_ne_zero (by omega) (by decide)

/-!
## Products and quotients
-/

/-- The absolute value of the number is at most a power of two. -/
def AtMost (x : Binary64) (k : Nat) : Prop :=
  x.ratio.1 ≤ x.ratio.2 * 2 ^ k

private theorem ratio_ne_zero (x : Binary64) : x.ratio.2 ≠ 0 := by
  unfold ratio
  split
  · exact Nat.one_ne_zero
  · rw [Nat.one_shiftLeft]
    exact Nat.ne_of_gt (Nat.two_pow_pos _)

private theorem atMost_of_magnitude_le {k : Nat} (bound : x.magnitude ≤ (k + 1026) * exponentUnit) :
    x.AtMost (k + 4) := by
  have exponentBound : x.exponent ≤ k + 1026 :=
    Nat.div_le_of_le_mul (Nat.mul_comm (k + 1026) exponentUnit ▸ bound)
  have fractionBound : x.fraction < exponentUnit := Nat.mod_lt _ (by decide)
  have mantissaBound : x.mantissa < 2 ^ 53 := by
    rw [exponentUnit] at fractionBound
    unfold mantissa
    rw [exponentUnit]
    split <;> omega
  have scaleBound : x.scale ≤ (k : Int) - 49 := by
    unfold scale
    split <;> omega
  unfold AtMost ratio
  split
  · rename_i nonneg
    obtain ⟨places, isPlaces⟩ := Int.eq_ofNat_of_zero_le nonneg
    rw [isPlaces] at scaleBound ⊢
    rw [Int.toNat_natCast, Nat.shiftLeft_eq, Nat.one_mul]
    calc
      x.mantissa * 2 ^ places ≤ 2 ^ 53 * 2 ^ places :=
        Nat.mul_le_mul_right _ (Nat.le_of_lt mantissaBound)
      _ = 2 ^ (53 + places) := (Nat.pow_add ..).symm
      _ ≤ 2 ^ (k + 4) := Nat.pow_le_pow_right (by decide) (by omega)
  · rename_i negative
    obtain ⟨places, isPlaces⟩ := Int.eq_ofNat_of_zero_le (a := -x.scale) (by omega)
    rw [isPlaces, Int.toNat_natCast, Nat.one_shiftLeft, ← Nat.pow_add]
    exact Nat.le_trans (Nat.le_of_lt mantissaBound)
      (Nat.pow_le_pow_right (by decide) (by omega))

private theorem isFinite_ofRatio_of_not_infinite {negative : Bool}
    (notInfinite : (ofRatio negative num den).isInfinite = false) :
    (ofRatio negative num den).isFinite = true := by
  by_cases nonzero : num = 0
  · rw [ofRatio, if_pos nonzero]
    cases negative <;> rfl
  · obtain ⟨power, _, same⟩ := exists_ofRatio_eq negative den nonzero
    refine isFinite_of_magnitude_lt (Nat.lt_of_le_of_ne ?_ fun isInfinity => ?_)
    · rw [same, magnitude_ofMagnitude]
      · exact Nat.min_le_right ..
      · exact Nat.lt_of_le_of_lt (Nat.min_le_right ..) (by decide)
    · rw [isInfinite, exponent, fraction, isInfinity] at notInfinite
      exact absurd notInfinite (by decide)

/-- A quotient is smaller by a power of two that the divisor is not below. -/
private theorem ratio_div_le {k j : Nat} (bound : x.AtMost (k + j))
    (divisor : y.ratio.2 * 2 ^ j ≤ y.ratio.1) :
    x.ratio.1 * y.ratio.2 ≤ x.ratio.2 * y.ratio.1 * 2 ^ k := by
  calc
    x.ratio.1 * y.ratio.2 ≤ x.ratio.2 * 2 ^ (k + j) * y.ratio.2 := Nat.mul_le_mul_right _ bound
    _ = x.ratio.2 * (y.ratio.2 * 2 ^ j) * 2 ^ k := by rw [Nat.pow_add]; ac_rfl
    _ ≤ x.ratio.2 * y.ratio.1 * 2 ^ k :=
      Nat.mul_le_mul_right _ (Nat.mul_le_mul_left _ divisor)

theorem magnitude_div_le {k j : Nat} (bound : x.AtMost (k + j))
    (divisor : y.ratio.2 * 2 ^ j ≤ y.ratio.1) :
    (x.div y).magnitude ≤ (k + 1026) * exponentUnit := by
  refine magnitude_ofRatio_le _ (Nat.mul_ne_zero x.ratio_ne_zero fun zero => ?_)
    (ratio_div_le bound divisor)
  have positive := Nat.mul_pos (Nat.pos_of_ne_zero y.ratio_ne_zero) (Nat.two_pow_pos j)
  omega

end Binary64

namespace Significand

variable {s : Significand} {x : Binary64}

/-- Every power of ten that a number is divided by at once is at least one as a double. -/
private theorem one_le_power : ∀ places < 309, (Binary64.ofNat (Nat.pow 10 places)).ratio.2 ≤
    (Binary64.ofNat (Nat.pow 10 places)).ratio.1 := by
  decide +kernel

private theorem sixteen_le_power : (Binary64.ofNat (Nat.pow 10 308)).ratio.2 * 2 ^ 4 ≤
    (Binary64.ofNat (Nat.pow 10 308)).ratio.1 := by
  decide +kernel

theorem isFinite_divideBy {places : Nat} (bound : x.AtMost 74) :
    (divideBy x places).isFinite = true := by
  fun_induction divideBy x places with
  | case1 x places within =>
      have divisor := one_le_power places (Nat.lt_succ_of_le within)
      have quotient := Binary64.magnitude_div_le (k := 74) (j := 0) bound
        (by rwa [Nat.pow_zero, Nat.mul_one])
      exact Binary64.isFinite_of_magnitude_lt (Nat.lt_of_le_of_lt quotient (by decide))
  | case2 x places beyond isZero =>
      have magnitude : x.magnitude = 0 := beq_iff_eq.mp isZero
      exact Binary64.isFinite_of_magnitude_lt (by rw [magnitude]; decide)
  | case3 x places beyond nonzero ih =>
      have quotient := Binary64.magnitude_div_le (k := 70) (j := 4) bound sixteen_le_power
      exact ih (Binary64.atMost_of_magnitude_le quotient)

theorem isFinite_of_value? (digits : s.digits < wordLimit) (valued : s.value? = some x) :
    x.isFinite = true := by
  have whole : s.digits ≤ 1 * 2 ^ 70 := by
    rw [wordLimit] at digits
    omega
  rw [value?] at valued
  split at valued
  · cases valued
    refine isFinite_divideBy (Binary64.atMost_of_magnitude_le (k := 70) ?_)
    exact Binary64.magnitude_ofRatio_le _ Nat.one_ne_zero whole
  · split at valued
    · obtain ⟨finite, same⟩ := Option.ite_none_left_eq_some.mp valued
      cases same
      exact Binary64.isFinite_ofRatio_of_not_infinite (Bool.eq_false_iff.mpr finite)
    · obtain ⟨_, same⟩ := Option.ite_none_right_eq_some.mp valued
      cases same
      exact Binary64.isFinite_ofRatio Nat.one_ne_zero whole (by decide)

theorem pushDigit?_lt {digits next : Nat} {c : Char} (pushed : pushDigit? digits c = some next) :
    next < wordLimit := by
  unfold pushDigit? at pushed
  obtain ⟨within, same⟩ := Option.ite_none_right_eq_some.mp pushed
  cases same
  exact within

-- The equations of the two functions hold by computation, which must not go into the comparison
-- with the limit of 64 bits.
seal pushDigit? in
theorem pushWhole_cons (s : Significand) (c : Char) (cs : List Char) :
    s.pushWhole (c :: cs) =
      match pushDigit? s.digits c with
      | some digits => pushWhole ⟨digits, s.power⟩ cs
      | none => ⟨s.digits, s.power + (cs.length + 1)⟩ := rfl

seal pushDigit? in
private theorem pushFraction_cons (s : Significand) (c : Char) (cs : List Char) :
    s.pushFraction (c :: cs) =
      match pushDigit? s.digits c with
      | some digits => pushFraction ⟨digits, s.power - 1⟩ cs
      | none => s := rfl

theorem digits_pushWhole_lt (digits : s.digits < wordLimit) (cs : List Char) :
    (s.pushWhole cs).digits < wordLimit := by
  induction cs generalizing s with
  | nil =>
      have same : s.pushWhole [] = s := rfl
      rwa [same]
  | cons c cs ih =>
      rw [pushWhole_cons]
      cases pushed : pushDigit? s.digits c with
      | some next => exact ih (pushDigit?_lt pushed)
      | none => exact digits

theorem digits_pushFraction_lt (digits : s.digits < wordLimit) (cs : List Char) :
    (s.pushFraction cs).digits < wordLimit := by
  induction cs generalizing s with
  | nil =>
      have same : s.pushFraction [] = s := rfl
      rwa [same]
  | cons c cs ih =>
      rw [pushFraction_cons]
      cases pushed : pushDigit? s.digits c with
      | some next => exact ih (pushDigit?_lt pushed)
      | none => exact digits

end Significand

end ConditionLint.Decimal
