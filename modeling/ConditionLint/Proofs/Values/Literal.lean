import ConditionLint.Proofs.Values.Inhabitant
import ConditionLint.Proofs.Values.Union
import Mathlib.Data.List.Induction
import Mathlib.Data.Nat.Digits.Defs

/-!
# Literal types

A literal type has one value, so it can be truthy or falsy but never both. A bigint is kept as its
digits, which are only scanned for one that is not zero; that is the question whether the integer
that they denote is zero, whatever the sign and however many zeros stand in front.
-/

set_option autoImplicit false

namespace ConditionLint

open Decimal

namespace Decimal

/-- Digits in base ten, behind a minus sign if the number is negative. -/
def signedText (negative : Bool) (digits : List Char) : String :=
  .ofList (bif negative then '-' :: digits else digits)

/-- The integer that signed digits denote: a digit with `i` others behind it counts `10 ^ i`
times. -/
def signedValue (negative : Bool) (digits : List Char) : Int :=
  let size : Nat := Nat.ofDigits 10 (digits.reverse.map digitValue)
  bif negative then -(size : Int) else size

/-- Reading digits from the left, each time ten times what was read and the next digit, gives each
digit the weight of its place. -/
private theorem digitsValue_eq_ofDigits (digits : List Char) :
    digitsValue digits = Nat.ofDigits 10 (digits.reverse.map digitValue) := by
  induction digits using List.reverseRecOn with
  | nil => rfl
  | append_singleton front last ih =>
      have appended : digitsValue (front ++ [last]) = 10 * digitsValue front + digitValue last := by
        simp [digitsValue]
      rw [appended, ih, List.reverse_concat, List.map_cons, Nat.ofDigits_cons]
      exact Nat.add_comm _ _

private theorem integer?_signedText (negative : Bool) {digits : List Char} (nonempty : digits ≠ [])
    (decimal : ∀ c ∈ digits, c.isDigit = true) :
    integer? (signedText negative digits).toList = some (signedValue negative digits) := by
  have areDigits : digits.all Char.isDigit = true := List.all_eq_true.mpr decimal
  cases negative with
  | true =>
      simp [signedText, signedValue, integer?, nonempty, areDigits, digitsValue_eq_ofDigits]
  | false =>
      -- A text without a sign is read as digits alone, because no digit is taken for the sign.
      have noSign : ∀ rest, digits ≠ '-' :: rest := by
        intro rest signed
        have sign : '-' ∈ digits := signed ▸ List.mem_cons_self
        exact absurd (decimal '-' sign) (by decide)
      simp [signedText, signedValue, integer?, nonempty, areDigits, digitsValue_eq_ofDigits]

end Decimal

namespace Table

variable {t : Table} {id : TypeId} {value : LiteralValue}

/-!
## One value
-/

theorem constrainedUnionParts_of_literal (entry : t.get? id = some (.literal value)) :
    t.constrainedUnionParts id = [id] := by
  have single : t.unionParts id = [id] := unionParts_of_not_union (by simp [entry])
  simp [constrainedUnionParts, constrained_of_literal entry, single]

theorem constrainedIntersectionParts_of_literal (entry : t.get? id = some (.literal value)) :
    t.constrainedIntersectionParts id = [id] := by
  have single : t.intersectionParts id = [id] :=
    intersectionParts_of_not_intersection (by simp [entry])
  simp [constrainedIntersectionParts, constrained_of_literal entry, single]

theorem isFalsy_of_literal (entry : t.get? id = some (.literal value)) :
    t.isFalsy id = !value.isTruthy := by
  have noKeyword : t.kindIn id [.undefined, .null, .void] = false := by
    rw [kindIn_of_get? entry]
    cases value <;> rfl
  simp [isFalsy, noKeyword, literal?, entry]

theorem isPossiblyTruthy_of_literal (entry : t.get? id = some (.literal value)) :
    t.isPossiblyTruthy id = value.isTruthy := by
  simp [isPossiblyTruthy, constrainedUnionParts_of_literal entry,
    constrainedIntersectionParts_of_literal entry, isFalsy_of_literal entry]

theorem isPossiblyFalsy_of_literal (entry : t.get? id = some (.literal value)) :
    t.isPossiblyFalsy id = !value.isTruthy := by
  have literal : t.isTruthyLiteral id = value.isTruthy := by
    simp [isTruthyLiteral, literal?, entry]
  have mayBeFalsy : t.hasKind id Kind.possiblyFalsy = true := by
    rw [hasKind_of_not_union (by simp [entry]), kindIn_of_get? entry]
    cases value <;> rfl
  simp [isPossiblyFalsy, constrainedUnionParts_of_literal entry,
    constrainedIntersectionParts_of_literal entry, literal, mayBeFalsy]

end Table

/-!
## Bigints
-/

/-- A bigint of any sign and any number of digits counts as true exactly if it is not zero, and its
literal type is possibly truthy then and possibly falsy otherwise. -/
theorem bigint_truthy_iff_ne_zero (negative : Bool) (digits : List Char) (nonempty : digits ≠ [])
    (decimal : ∀ c ∈ digits, c.isDigit = true) :
    ((LiteralValue.bigint (signedText negative digits)).isTruthy = true ↔
      signedValue negative digits ≠ 0) ∧
      ∀ (t : Table) (id : TypeId),
        t.get? id = some (.literal (.bigint (signedText negative digits))) →
          (t.isPossiblyTruthy id = true ↔ signedValue negative digits ≠ 0) ∧
            (t.isPossiblyFalsy id = true ↔ signedValue negative digits = 0) := by
  have truthy : (LiteralValue.bigint (signedText negative digits)).isTruthy = true ↔
      signedValue negative digits ≠ 0 :=
    bigintIsTruthy_iff (integer?_signedText negative nonempty decimal)
  refine ⟨truthy, fun t id entry => ⟨?_, ?_⟩⟩
  · rw [Table.isPossiblyTruthy_of_literal entry, truthy]
  · rw [Table.isPossiblyFalsy_of_literal entry, Bool.not_eq_true', ← Bool.not_eq_true, truthy,
      not_not]

namespace SignedZeros

/-!
The literals `-000n` and `-0070n`.
-/

def descriptors : List Descriptor :=
  wellKnown ++ [.literal (.bigint "-000"), .literal (.bigint "-0070")]

def table : Table :=
  .ofList descriptors

end SignedZeros

open SignedZeros in
/-- However many zeros there are, `-000n` is only falsy, and `-0070n` is only truthy. -/
theorem signedZeros_one_truth :
    Table.ofDescriptors? descriptors = .ok table ∧
      table.get? ⟨14⟩ = some (.literal (.bigint "-000")) ∧
      table.isPossiblyTruthy ⟨14⟩ = false ∧ table.isPossiblyFalsy ⟨14⟩ = true ∧
      table.get? ⟨15⟩ = some (.literal (.bigint "-0070")) ∧
      table.isPossiblyTruthy ⟨15⟩ = true ∧ table.isPossiblyFalsy ⟨15⟩ = false := by
  have accepted : Table.ofDescriptors? descriptors = .ok table :=
    Table.ofDescriptors?_eq_ok_iff.mpr ⟨⟨_, rfl⟩, by decide, rfl⟩
  have zeroEntry : table.get? ⟨14⟩ = some (.literal (.bigint "-000")) := by decide
  have otherEntry : table.get? ⟨15⟩ = some (.literal (.bigint "-0070")) := by decide
  have isZero : signedValue true ['0', '0', '0'] = 0 := by decide
  have notZero : signedValue true ['0', '0', '7', '0'] ≠ 0 := by decide
  obtain ⟨_, zero⟩ :=
    bigint_truthy_iff_ne_zero true ['0', '0', '0'] (by simp) (List.all_eq_true.mp rfl)
  obtain ⟨_, other⟩ :=
    bigint_truthy_iff_ne_zero true ['0', '0', '7', '0'] (by simp) (List.all_eq_true.mp rfl)
  obtain ⟨zeroTruthy, zeroFalsy⟩ := zero table ⟨14⟩ zeroEntry
  obtain ⟨otherTruthy, otherFalsy⟩ := other table ⟨15⟩ otherEntry
  refine ⟨accepted, zeroEntry, ?_, zeroFalsy.mpr isZero, otherEntry, otherTruthy.mpr notZero, ?_⟩
  · exact Bool.eq_false_iff.mpr fun truthy => zeroTruthy.mp truthy isZero
  · exact Bool.eq_false_iff.mpr fun falsy => notZero (otherFalsy.mp falsy)

end ConditionLint
