import ConditionLint.Json.Write
import ConditionLint.Json.Read
import ConditionLint.Proofs.Decimal.Bounds
import Mathlib.Data.Option.Basic

/-!
# Numbers of documents

A number that is read from a text is a finite double or an integer of 64 bits. A natural number of
64 bits is read back from its text; a double may come back with another last bit, so that it reads
back is a property of the double. Where a number is read, the text after it is left alone.
-/

set_option autoImplicit false

namespace ConditionLint.Json

open Decimal

/-- The number is one that a text can have. -/
def Number.InRange : Number → Prop
  | .integer value => value.natAbs ≤ 2 ^ 64
  | .double value => value.isFinite = true

/-- The text of the number is read as the number. -/
def Number.ReadsBack (n : Number) : Prop :=
  readNumber (writeNumber n).toList = some (.number n, [])

/-- The text after a value: none, or a sign that goes on with the container. -/
def Stops (rest : List Char) : Prop :=
  ∀ c ∈ rest.head?, c = ',' ∨ c = ']' ∨ c = '\x7d'

variable {cs rest : List Char}

theorem stops_comma (rest : List Char) : Stops (',' :: rest) := by
  intro c member
  exact .inl (Option.some.inj member).symm

theorem stops_bracket (rest : List Char) : Stops (']' :: rest) := by
  intro c member
  exact .inr (.inl (Option.some.inj member).symm)

theorem stops_brace (rest : List Char) : Stops ('\x7d' :: rest) := by
  intro c member
  exact .inr (.inr (Option.some.inj member).symm)

theorem Stops.cases (stops : Stops rest) :
    rest = [] ∨ ∃ c after, rest = c :: after ∧ (c = ',' ∨ c = ']' ∨ c = '\x7d') := by
  cases rest with
  | nil => exact .inl rfl
  | cons c after => exact .inr ⟨c, after, rfl, stops c rfl⟩

/-!
## Numbers within a text
-/

theorem Stops.takeWhile_append (stops : Stops rest) (cs : List Char) :
    (cs ++ rest).takeWhile Char.isDigit = cs.takeWhile Char.isDigit := by
  induction cs with
  | nil =>
      rcases stops.cases with rfl | ⟨c, after, rfl, rfl | rfl | rfl⟩ <;> rfl
  | cons c cs ih => rw [List.cons_append, List.takeWhile_cons, List.takeWhile_cons, ih]

theorem Stops.dropWhile_append (stops : Stops rest) (cs : List Char) :
    (cs ++ rest).dropWhile Char.isDigit = cs.dropWhile Char.isDigit ++ rest := by
  induction cs with
  | nil =>
      rcases stops.cases with rfl | ⟨c, after, rfl, rfl | rfl | rfl⟩ <;> rfl
  | cons c cs ih =>
      rw [List.cons_append, List.dropWhile_cons, List.dropWhile_cons, ih]
      split <;> rfl

private theorem takeSign_append (stops : Stops rest) (cs : List Char) :
    takeSign (cs ++ rest) = ((takeSign cs).1, (takeSign cs).2 ++ rest) := by
  cases cs with
  | nil =>
      rcases stops.cases with rfl | ⟨c, after, rfl, rfl | rfl | rfl⟩ <;> rfl
  | cons c cs =>
      rw [List.cons_append]
      unfold takeSign
      split
      · rename_i same
        cases same
        rfl
      · rename_i same
        cases same
        rfl
      · rename_i notMinus notPlus
        split
        · rename_i same
          cases same
          exact absurd rfl (notMinus _)
        · rename_i same
          cases same
          exact absurd rfl (notPlus _)
        · rfl

private theorem readFraction_append (stops : Stops rest) {fraction : Option (List Char)}
    {after : List Char} (read : readFraction cs = some (fraction, after)) :
    readFraction (cs ++ rest) = some (fraction, after ++ rest) := by
  cases cs with
  | nil =>
      cases read
      rcases stops.cases with rfl | ⟨c, after, rfl, rfl | rfl | rfl⟩ <;> rfl
  | cons c cs =>
      by_cases point : c = '.'
      · subst point
        rw [readFraction] at read
        rw [List.cons_append, readFraction, stops.takeWhile_append, stops.dropWhile_append]
        simp only [Option.ite_none_left_eq_some] at read ⊢
        obtain ⟨nonempty, same⟩ := read
        cases same
        exact ⟨nonempty, rfl⟩
      · have none (cs : List Char) : readFraction (c :: cs) = some (none, c :: cs) := by
          unfold readFraction
          split
          · rename_i same
            cases same
            exact absurd rfl point
          · rfl
        rw [none] at read
        cases read
        exact none _

private theorem readExponent_append (stops : Stops rest) {exponent : Option Int} {after : List Char}
    (read : readExponent cs = some (exponent, after)) :
    readExponent (cs ++ rest) = some (exponent, after ++ rest) := by
  cases cs with
  | nil =>
      cases read
      rcases stops.cases with rfl | ⟨c, after, rfl, rfl | rfl | rfl⟩ <;> rfl
  | cons c cs =>
      rw [readExponent] at read
      rw [List.cons_append, readExponent]
      split at read
      · rename_i isExponent
        rw [if_pos isExponent]
        simp only [takeSign_append stops, stops.takeWhile_append, stops.dropWhile_append,
          Option.ite_none_left_eq_some] at read ⊢
        obtain ⟨nonempty, same⟩ := read
        cases same
        exact ⟨nonempty, rfl⟩
      · rename_i noExponent
        rw [if_neg noExponent]
        cases read
        rfl

/-- Read a number after its sign. -/
def readUnsigned (negative : Bool) (cs : List Char) : Option (Json × List Char) := do
  let whole := cs.takeWhile Char.isDigit
  guard (!whole.isEmpty && (whole.head? != some '0' || whole.length = 1))
  let (fraction, cs) ← readFraction (cs.dropWhile Char.isDigit)
  let (exponent, cs) ← readExponent cs
  return ((NumberParts.mk negative whole fraction exponent).value, cs)

theorem readNumber_of_ne {c : Char} (noMinus : c ≠ '-') (cs : List Char) :
    readNumber (c :: cs) = readUnsigned false (c :: cs) := by
  unfold readNumber
  split
  rename_i negative body same
  split at same
  · rename_i minus
    cases minus
    exact absurd rfl noMinus
  · cases same
    rfl

private theorem guard_bind {α : Type} {p : Prop} [Decidable p] (next : Unit → Option α) :
    (guard p : Option Unit).bind next = if p then next () else none := by
  change (if p then some () else none).bind next = _
  split <;> rfl

theorem readUnsigned_eq_some_iff {negative : Bool} {j : Json} {after : List Char} :
    readUnsigned negative cs = some (j, after) ↔
      (!(cs.takeWhile Char.isDigit).isEmpty && ((cs.takeWhile Char.isDigit).head? != some '0' ||
          (cs.takeWhile Char.isDigit).length = 1)) = true ∧
        ∃ fraction afterFraction exponent,
          readFraction (cs.dropWhile Char.isDigit) = some (fraction, afterFraction) ∧
          readExponent afterFraction = some (exponent, after) ∧
          j = (NumberParts.mk negative (cs.takeWhile Char.isDigit) fraction exponent).value := by
  change (guard _ : Option Unit).bind _ = some (j, after) ↔ _
  rw [guard_bind, Option.ite_none_right_eq_some]
  refine and_congr_right fun _ => ?_
  simp only [Option.bind_eq_bind, Option.pure_def, Option.bind_eq_some_iff, Prod.exists,
    Option.some.injEq, Prod.mk.injEq]
  constructor
  · rintro ⟨fraction, afterFraction, point, exponent, afterExponent, power, rfl, rfl⟩
    exact ⟨fraction, afterFraction, exponent, point, power, rfl⟩
  · rintro ⟨fraction, afterFraction, exponent, point, power, rfl⟩
    exact ⟨fraction, afterFraction, point, exponent, after, power, rfl, rfl⟩

private theorem readUnsigned_append (stops : Stops rest) {negative : Bool} {j : Json}
    {after : List Char}
    (read : readUnsigned negative cs = some (j, after)) :
    readUnsigned negative (cs ++ rest) = some (j, after ++ rest) := by
  obtain ⟨valid, fraction, afterFraction, exponent, point, power, rfl⟩ :=
    readUnsigned_eq_some_iff.mp read
  rw [readUnsigned_eq_some_iff, stops.takeWhile_append, stops.dropWhile_append]
  exact ⟨valid, fraction, afterFraction ++ rest, exponent, readFraction_append stops point,
    readExponent_append stops power, rfl⟩

/-- A number text starts with a sign or a digit. -/
theorem exists_eq_cons_of_readNumber {j : Json} {after : List Char}
    (read : readNumber cs = some (j, after)) :
    ∃ c tail, cs = c :: tail ∧ (c = '-' ∨ c.isDigit = true) := by
  cases cs with
  | nil => cases read
  | cons c tail =>
      refine ⟨c, tail, rfl, ?_⟩
      by_cases minus : c = '-'
      · exact .inl minus
      · rw [readNumber_of_ne minus] at read
        obtain ⟨valid, _⟩ := readUnsigned_eq_some_iff.mp read
        cases digit : c.isDigit with
        | true => exact .inr rfl
        | false => simp [digit] at valid

theorem readNumber_append (stops : Stops rest) {j : Json} {after : List Char}
    (read : readNumber cs = some (j, after)) :
    readNumber (cs ++ rest) = some (j, after ++ rest) := by
  obtain ⟨c, tail, rfl, _⟩ := exists_eq_cons_of_readNumber read
  by_cases minus : c = '-'
  · subst minus
    exact readUnsigned_append stops read
  · rw [readNumber_of_ne minus] at read
    rw [List.cons_append, readNumber_of_ne minus]
    exact readUnsigned_append stops read

/-!
## Numbers that are read
-/

private theorem NumberParts.number_of_value (parts : NumberParts) :
    parts.value = .unreadable ∨ ∃ n : Number, parts.value = .number n ∧ n.InRange := by
  have whole : (Significand.pushWhole ⟨0, 0⟩ parts.whole).digits < wordLimit :=
    Significand.digits_pushWhole_lt (by decide) parts.whole
  have all := Significand.digits_pushFraction_lt whole (parts.fraction.getD [])
  rw [wordLimit] at whole
  simp only [NumberParts.value]
  split
  · refine .inr ⟨_, rfl, ?_⟩
    rw [Number.InRange, Int.natAbs_natCast]
    omega
  · split
    · refine .inr ⟨_, rfl, ?_⟩
      rw [Number.InRange, Int.natAbs_neg, Int.natAbs_natCast]
      omega
    · split
      · rename_i x valued
        have finite : x.isFinite = true := by
          refine Significand.isFinite_of_value? ?_ valued
          exact all
        exact .inr ⟨_, rfl, Binary64.isFinite_withSign finite _⟩
      · exact .inl rfl

theorem number_of_readNumber {j : Json} {after : List Char}
    (read : readNumber cs = some (j, after)) :
    j = .unreadable ∨ ∃ n : Number, j = .number n ∧ n.InRange := by
  obtain ⟨c, tail, rfl, _⟩ := exists_eq_cons_of_readNumber read
  have unsigned : ∃ negative body, readUnsigned negative body = some (j, after) := by
    by_cases minus : c = '-'
    · subst minus
      exact ⟨true, tail, read⟩
    · rw [readNumber_of_ne minus] at read
      exact ⟨false, c :: tail, read⟩
  obtain ⟨negative, body, read⟩ := unsigned
  obtain ⟨_, fraction, afterFraction, exponent, _, _, rfl⟩ := readUnsigned_eq_some_iff.mp read
  exact NumberParts.number_of_value _

/-!
## Natural numbers
-/

private theorem head?_toDigits_ne_zero {n : Nat} (positive : n ≠ 0) :
    (Nat.toDigits 10 n).head? ≠ some '0' := by
  induction n using Nat.base_induction 10 (by decide) with
  | single digit below =>
      rw [Nat.toDigits_of_lt_base below]
      have nonzero : ∀ digit < 10, digit ≠ 0 → [Nat.digitChar digit].head? ≠ some '0' := by
        decide
      exact nonzero digit below positive
  | digit leading last below positiveLeading ih =>
      rw [← Nat.toDigits_append_toDigits (by decide) positiveLeading below, List.head?_append,
        List.head?_eq_some_head Nat.toDigits_ne_nil, Option.some_or,
        ← List.head?_eq_some_head Nat.toDigits_ne_nil]
      exact ih (Nat.ne_of_gt positiveLeading)

private theorem le_ofDigitChars (digits : List Char) (value : Nat) :
    value ≤ Nat.ofDigitChars 10 digits value := by
  induction digits generalizing value with
  | nil =>
      exact Nat.le_of_eq Nat.ofDigitChars_nil.symm
  | cons c digits ih =>
      rw [Nat.ofDigitChars_cons]
      exact Nat.le_trans (by omega) (ih _)

private theorem pushWhole_eq {s : Significand} {digits : List Char}
    (fits : Nat.ofDigitChars 10 digits s.digits < wordLimit) :
    s.pushWhole digits = ⟨Nat.ofDigitChars 10 digits s.digits, s.power⟩ := by
  induction digits generalizing s with
  | nil => rfl
  | cons c digits ih =>
      rw [Nat.ofDigitChars_cons] at fits ⊢
      have next : 10 * s.digits + digitValue c < wordLimit :=
        Nat.lt_of_le_of_lt (le_ofDigitChars digits _) fits
      rw [Significand.pushWhole_cons, pushDigit?, if_pos next]
      exact ih fits

theorem readsBack_nat {n : Nat} (fits : n < wordLimit) : (Number.integer n).ReadsBack := by
  have text : (writeNumber (.integer n)).toList = Nat.toDigits 10 n := Nat.toList_repr
  have isDigit : ∀ c ∈ Nat.toDigits 10 n, c.isDigit = true := fun c member =>
    Nat.isDigit_of_mem_toDigits (by decide) (Nat.le_refl 10) member
  have taken : (Nat.toDigits 10 n).takeWhile Char.isDigit = Nat.toDigits 10 n := by
    rw [← List.append_nil (Nat.toDigits 10 n), List.takeWhile_append_of_pos isDigit,
      List.takeWhile_nil]
  have dropped : (Nat.toDigits 10 n).dropWhile Char.isDigit = [] := by
    rw [← List.append_nil (Nat.toDigits 10 n), List.dropWhile_append_of_pos isDigit,
      List.dropWhile_nil]
  have value : Nat.ofDigitChars 10 (Nat.toDigits 10 n) 0 = n := Nat.ofDigitChars_ten_toDigits
  have pushed : Significand.pushWhole ⟨0, 0⟩ (Nat.toDigits 10 n) = ⟨n, 0⟩ := by
    rw [pushWhole_eq (by rwa [value]), value]
  have valid : (!(Nat.toDigits 10 n).isEmpty && ((Nat.toDigits 10 n).head? != some '0' ||
      (Nat.toDigits 10 n).length = 1)) = true := by
    by_cases zero : n = 0
    · subst zero
      rfl
    · simp [Nat.toDigits_ne_nil, head?_toDigits_ne_zero zero]
  rw [Number.ReadsBack, text]
  cases digits : Nat.toDigits 10 n with
  | nil => exact absurd digits Nat.toDigits_ne_nil
  | cons c tail =>
      have noMinus : c ≠ '-' := by
        rintro rfl
        exact absurd (isDigit '-' (by simp [digits])) (by decide)
      rw [readNumber_of_ne noMinus, ← digits, readUnsigned_eq_some_iff, taken, dropped]
      refine ⟨valid, none, [], none, rfl, rfl, ?_⟩
      simp [NumberParts.value, pushed]

end ConditionLint.Json
