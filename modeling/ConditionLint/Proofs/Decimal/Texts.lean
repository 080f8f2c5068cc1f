import ConditionLint.Proofs.Decimal.Shortest
import Mathlib.Data.List.TakeWhile

/-!
# Number texts

The text of a number tells the number, unless it is not a number: the sign is in front, and the
digits and the place of the point tell the value of the shortest decimal, which lies in the interval
of one number only.
-/

set_option autoImplicit false

namespace ConditionLint.Decimal

variable {d : Numeral} {x y : Binary64} {cs whole fraction : List Char}

/-- The number that digits with at most one point denote. -/
def positionalValue (cs : List Char) : ℚ :=
  Nat.ofDigitChars 10 (cs.filter (· != '.')) 0 / 10 ^ ((cs.dropWhile (· != '.')).length - 1)

private theorem ne_point_of_isDigit {c : Char} (digit : c.isDigit = true) : (c != '.') = true := by
  rw [bne_iff_ne]
  rintro rfl
  exact absurd digit (by decide)

private theorem positionalValue_whole (areDigits : ∀ c ∈ cs, c.isDigit = true) :
    positionalValue cs = Nat.ofDigitChars 10 cs 0 := by
  have noPoint : ∀ c ∈ cs, (c != '.') = true := fun c member =>
    ne_point_of_isDigit (areDigits c member)
  rw [positionalValue, List.filter_eq_self.mpr noPoint, List.dropWhile_eq_nil_iff.mpr noPoint]
  exact div_one _

private theorem positionalValue_point (areDigits : ∀ c ∈ whole ++ fraction, c.isDigit = true) :
    positionalValue (whole ++ '.' :: fraction) =
      Nat.ofDigitChars 10 (whole ++ fraction) 0 / 10 ^ fraction.length := by
  obtain ⟨wholeDigits, fractionDigits⟩ := List.forall_mem_append.mp areDigits
  have noPoint : ∀ c ∈ whole, (c != '.') = true := fun c member =>
    ne_point_of_isDigit (wholeDigits c member)
  have noPoint' : ∀ c ∈ fraction, (c != '.') = true := fun c member =>
    ne_point_of_isDigit (fractionDigits c member)
  have kept : (whole ++ '.' :: fraction).filter (· != '.') = whole ++ fraction := by
    rw [List.filter_append, List.filter_cons, List.filter_eq_self.mpr noPoint,
      List.filter_eq_self.mpr noPoint']
    rfl
  have behind : (whole ++ '.' :: fraction).dropWhile (· != '.') = '.' :: fraction := by
    rw [List.dropWhile_append_of_pos noPoint]
    rfl
  rw [positionalValue, kept, behind, List.length_cons, Nat.add_sub_cancel]

private theorem isDigit_of_mem_digits {n : Nat} {c : Char} (member : c ∈ Nat.toDigits 10 n) :
    c.isDigit = true :=
  Nat.isDigit_of_mem_toDigits (by decide) (Nat.le_refl 10) member

private theorem isDigit_of_mem_zeros {n : Nat} {c : Char} (member : c ∈ List.replicate n '0') :
    c.isDigit = true := by
  rw [List.eq_of_mem_replicate member]
  rfl

private theorem ofDigitChars_zero : Nat.ofDigitChars 10 ['0'] 0 = 0 := by
  decide

theorem positionalValue_positional (d : Numeral) : positionalValue d.positional = d.value := by
  unfold Numeral.positional Numeral.value
  split
  · rename_i nonneg
    obtain ⟨places, isPlaces⟩ := Int.eq_ofNat_of_zero_le nonneg
    rw [isPlaces, Int.toNat_natCast, positionalValue_whole, Nat.ofDigitChars_append,
      Nat.ofDigitChars_ten_toDigits, Nat.ofDigitChars_replicate_zero, zpow_natCast]
    · push_cast
      ring
    · rw [List.forall_mem_append]
      exact ⟨fun _ => isDigit_of_mem_digits, fun _ => isDigit_of_mem_zeros⟩
  · rename_i negative
    obtain ⟨places, isPlaces⟩ := Int.eq_ofNat_of_zero_le (a := -d.power) (by omega)
    have power : d.power = -(places : Int) := by omega
    rw [isPlaces, Int.toNat_natCast, power, zpow_neg, zpow_natCast, ← div_eq_mul_inv]
    dsimp only
    split
    · rename_i inside
      rw [positionalValue_point, List.take_append_drop, Nat.ofDigitChars_ten_toDigits,
        List.length_drop, Nat.sub_sub_self (Nat.le_of_lt inside)]
      rw [List.take_append_drop]
      exact fun _ => isDigit_of_mem_digits
    · rename_i outside
      generalize zeros : List.replicate (places - (Nat.toDigits 10 d.digits).length) '0' = padding
      have leading : ∀ c ∈ padding, c.isDigit = true := by
        rw [← zeros]
        exact fun _ => isDigit_of_mem_zeros
      have areDigits : ∀ c ∈ ['0'] ++ (padding ++ Nat.toDigits 10 d.digits), c.isDigit = true := by
        simp only [List.forall_mem_append, List.forall_mem_singleton]
        exact ⟨rfl, leading, fun _ => isDigit_of_mem_digits⟩
      have value : Nat.ofDigitChars 10 (['0'] ++ (padding ++ Nat.toDigits 10 d.digits)) 0 =
          d.digits := by
        rw [Nat.ofDigitChars_append, Nat.ofDigitChars_append, ← zeros]
        rw [ofDigitChars_zero, Nat.ofDigitChars_replicate_zero, Nat.mul_zero,
          Nat.ofDigitChars_ten_toDigits]
      have length : (padding ++ Nat.toDigits 10 d.digits).length = places := by
        rw [List.length_append, ← zeros, List.length_replicate]
        omega
      have denoted := positionalValue_point areDigits
      rwa [value, length] at denoted

theorem isDigit_or_point_of_mem_positional {c : Char} (member : c ∈ d.positional) :
    c.isDigit = true ∨ c = '.' := by
  unfold Numeral.positional at member
  dsimp only at member
  split at member
  · simp only [List.mem_append] at member
    exact .inl (member.elim isDigit_of_mem_digits isDigit_of_mem_zeros)
  · split at member
    · rcases List.mem_append.mp member with whole | behind
      · exact .inl (isDigit_of_mem_digits (List.mem_of_mem_take whole))
      · rcases List.mem_cons.mp behind with rfl | fraction
        · exact .inr rfl
        · exact .inl (isDigit_of_mem_digits (List.mem_of_mem_drop fraction))
    · simp only [List.cons_append, List.mem_cons, List.mem_append] at member
      rcases member with rfl | rfl | zeros | digits
      · exact .inl rfl
      · exact .inr rfl
      · exact .inl (isDigit_of_mem_zeros zeros)
      · exact .inl (isDigit_of_mem_digits digits)

private theorem Numeral.positional_ne_nil (d : Numeral) : d.positional ≠ [] := by
  unfold Numeral.positional
  dsimp only
  split
  · exact List.append_ne_nil_of_left_ne_nil Nat.toDigits_ne_nil _
  · split
    · exact List.append_ne_nil_of_right_ne_nil _ (List.cons_ne_nil _ _)
    · exact List.cons_ne_nil _ _

/-!
## Texts of numbers
-/

namespace Binary64

def unsignedText (x : Binary64) : List Char :=
  if x.isInfinite then ['i', 'n', 'f'] else if x.isZero then ['0'] else x.shortest.positional

theorem toList_toText (number : x.isNaN = false) :
    x.toText.toList = (if x.isNegative then ['-'] else []) ++ x.unsignedText := by
  unfold toText unsignedText
  rw [number]
  cases x.isNegative <;> cases x.isInfinite <;> cases x.isZero <;> simp

private theorem unsignedText_of_finite (finite : x.isInfinite = false) :
    x.unsignedText = if x.isZero then ['0'] else x.shortest.positional := by
  rw [unsignedText, finite]
  rfl

theorem isDigit_or_point_of_mem_unsignedText (finite : x.isInfinite = false) {c : Char}
    (member : c ∈ x.unsignedText) : c.isDigit = true ∨ c = '.' := by
  rw [unsignedText_of_finite finite] at member
  split at member
  · exact .inl (List.mem_singleton.mp member ▸ rfl)
  · exact isDigit_or_point_of_mem_positional member

/-- The text of an infinity holds a letter that no other number has in its text. -/
theorem mem_unsignedText_iff : 'i' ∈ x.unsignedText ↔ x.isInfinite = true := by
  cases infinite : x.isInfinite with
  | true => simp [unsignedText, infinite]
  | false =>
      refine iff_of_false (fun member => ?_) (by simp)
      rcases isDigit_or_point_of_mem_unsignedText infinite member with digit | point
      · exact absurd digit (by decide)
      · exact absurd point (by decide)

theorem not_mem_unsignedText (x : Binary64) : '-' ∉ x.unsignedText := by
  intro member
  cases infinite : x.isInfinite with
  | true => simp [unsignedText, infinite] at member
  | false =>
      rcases isDigit_or_point_of_mem_unsignedText infinite member with digit | point
      · exact absurd digit (by decide)
      · exact absurd point (by decide)

/-- The sign is in front of the text, and no part of what stands behind it. -/
private theorem parts_eq_of_toText (number : x.isNaN = false) (number' : y.isNaN = false)
    (same : x.toText = y.toText) :
    x.isNegative = y.isNegative ∧ x.unsignedText = y.unsignedText := by
  have texts := congrArg String.toList same
  rw [toList_toText number, toList_toText number'] at texts
  cases signX : x.isNegative <;> cases signY : y.isNegative <;>
    simp only [signX, signY, Bool.false_eq_true, if_false, if_true, List.nil_append,
      List.singleton_append, List.cons.injEq, true_and] at texts
  · exact ⟨rfl, texts⟩
  · exact absurd (texts ▸ List.mem_cons_self) (not_mem_unsignedText x)
  · exact absurd (texts ▸ List.mem_cons_self) (not_mem_unsignedText y)
  · exact ⟨rfl, texts⟩

private theorem isFinite_of_isInfinite (number : x.isNaN = false) (finite : x.isInfinite = false) :
    x.isFinite = true := by
  unfold isNaN at number
  unfold isInfinite at finite
  unfold isFinite
  cases exponent : x.exponent == 2047 <;> simp_all

/-- The value that the text of a finite number denotes is zero only for zero. -/
theorem positionalValue_unsignedText (finite : x.isInfinite = false) :
    positionalValue x.unsignedText = if x.isZero then 0 else x.shortest.value := by
  rw [unsignedText_of_finite finite]
  split
  · rw [positionalValue_whole (List.forall_mem_singleton.mpr rfl), ofDigitChars_zero, Nat.cast_zero]
  · exact positionalValue_positional _

theorem magnitude_eq_of_unsignedText (number : x.isNaN = false) (number' : y.isNaN = false)
    (same : x.unsignedText = y.unsignedText) : x.magnitude = y.magnitude := by
  have infinite : x.isInfinite = y.isInfinite := by
    rw [Bool.eq_iff_iff, ← mem_unsignedText_iff, ← mem_unsignedText_iff, same]
  cases infiniteX : x.isInfinite with
  | true =>
      rw [infiniteX] at infinite
      have infiniteY := infinite.symm
      simp only [isInfinite, exponent, fraction, Bool.and_eq_true, beq_iff_eq]
        at infiniteX infiniteY
      rw [exponentUnit] at infiniteX infiniteY
      omega
  | false =>
      rw [infiniteX] at infinite
      have values := congrArg positionalValue same
      rw [positionalValue_unsignedText infiniteX, positionalValue_unsignedText infinite.symm]
        at values
      have finiteX := isFinite_of_isInfinite number infiniteX
      have finiteY := isFinite_of_isInfinite number' infinite.symm
      cases zeroX : x.isZero <;> cases zeroY : y.isZero <;>
        simp only [zeroX, zeroY, Bool.false_eq_true, if_false, if_true] at values
      · exact magnitude_eq_of_shortest finiteX zeroX finiteY zeroY values
      · exact absurd values (shortest_value_pos finiteX zeroX).ne'
      · exact absurd values (shortest_value_pos finiteY zeroY).ne
      · exact (beq_iff_eq.mp zeroX).trans (beq_iff_eq.mp zeroY).symm

/-- Numbers with the same text have the same bits. -/
theorem eq_of_toText_eq (number : x.isNaN = false) (number' : y.isNaN = false)
    (same : x.toText = y.toText) : x = y := by
  obtain ⟨sign, unsigned⟩ := parts_eq_of_toText number number' same
  have magnitude := magnitude_eq_of_unsignedText number number' unsigned
  have bits : x.bits.toNat = y.bits.toNat := by
    have belowX := x.bits.toNat_lt
    have belowY := y.bits.toNat_lt
    unfold isNegative at sign
    unfold Binary64.magnitude at magnitude
    rw [decide_eq_decide, signUnit] at sign
    rw [signUnit] at magnitude
    omega
  cases x
  cases y
  exact congrArg mk (UInt64.toNat_inj.mp bits)

/-!
## The characters of number texts
-/

theorem unsignedText_ne_nil (x : Binary64) : x.unsignedText ≠ [] := by
  unfold unsignedText
  split
  · exact List.cons_ne_nil _ _
  · split
    · exact List.cons_ne_nil _ _
    · exact Numeral.positional_ne_nil _

theorem mem_toText (number : x.isNaN = false) {c : Char} (member : c ∈ x.toText.toList) :
    c.isDigit = true ∨ c ∈ ['-', '.', 'i', 'n', 'f'] := by
  rw [toList_toText number] at member
  rcases List.mem_append.mp member with sign | unsigned
  · split at sign
    · exact .inr (List.mem_singleton.mp sign ▸ List.mem_cons_self)
    · cases sign
  · cases infinite : x.isInfinite with
    | true =>
        simp only [unsignedText, infinite, if_true] at unsigned
        exact .inr (List.mem_cons_of_mem _ (List.mem_cons_of_mem _ unsigned))
    | false =>
        refine (isDigit_or_point_of_mem_unsignedText infinite unsigned).imp_right ?_
        rintro rfl
        decide

private theorem head_unsignedText {c : Char} (first : x.unsignedText.head? = some c) :
    c.isDigit = true ∨ c ∈ ['.', 'i'] := by
  cases infinite : x.isInfinite with
  | true =>
      rw [unsignedText, if_pos infinite] at first
      cases first
      exact .inr (by decide)
  | false =>
      refine (isDigit_or_point_of_mem_unsignedText infinite (List.mem_of_head? first)).imp_right ?_
      rintro rfl
      exact List.mem_cons_self

theorem head_toText (number : x.isNaN = false) {c : Char}
    (first : x.toText.toList.head? = some c) : c.isDigit = true ∨ c ∈ ['-', '.', 'i'] := by
  rw [toList_toText number] at first
  split at first
  · cases first
    exact .inr List.mem_cons_self
  · exact (head_unsignedText first).imp_right (List.mem_cons_of_mem _)

/-- The text of a number does not end as that of a bigint. -/
theorem last_toText (number : x.isNaN = false) : x.toText.toList.getLast? ≠ some 'n' := by
  rw [toList_toText number, List.getLast?_append_of_ne_nil _ (unsignedText_ne_nil x)]
  intro last
  cases infinite : x.isInfinite with
  | true => simp [unsignedText, infinite] at last
  | false =>
      rcases isDigit_or_point_of_mem_unsignedText infinite (List.mem_of_getLast? last) with
        digit | point
      · exact absurd digit (by decide)
      · exact absurd point (by decide)

end Binary64

end ConditionLint.Decimal
