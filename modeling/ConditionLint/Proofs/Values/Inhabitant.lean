import ConditionLint.Proofs.Table.Parts

/-!
# Runtime values and the types they inhabit

The values an expression can have when the program runs, what counts as true among them, and which
of them inhabit a type. A type variable may stand for any part of its base constraint; which part
is left open by `choice`. An object type among other constituents of an intersection is a brand:
it constrains nothing.
-/

set_option autoImplicit false

namespace ConditionLint

open Decimal

/-- A value at run time. Objects and symbols are told apart by their identity alone. -/
inductive Value where
  | undefined
  | null
  | boolean (value : Bool)
  | string (value : String)
  | number (value : Binary64)
  | bigint (value : Int)
  | symbol (identity : Nat)
  | object (identity : Nat)
deriving DecidableEq

def Value.isTruthy : Value → Bool
  | undefined | null => false
  | boolean value => value
  | string value => value != ""
  | number value => !value.isZero && !value.isNaN
  | bigint value => value != 0
  | symbol _ | object _ => true

/-- The integer that base-10 digits denote, with an optional minus sign. -/
def integer? : List Char → Option Int
  | '-' :: digits =>
    if digits ≠ [] ∧ digits.all Char.isDigit then some (-(digitsValue digits : Int)) else none
  | digits =>
    if digits ≠ [] ∧ digits.all Char.isDigit then some (digitsValue digits) else none

/-- The integer of a bigint literal. Digits that are not in base ten name no integer; they leave
open which one it is, but not whether it is zero. -/
def IntegerOf (digits : List Char) (n : Int) : Prop :=
  match integer? digits with
  | some value => n = value
  | none => bigintIsTruthy digits = true ↔ n ≠ 0

def LiteralValue.Denotes : LiteralValue → Value → Prop
  | string value, v => v = .string value
  | number value, v => v = .number value
  | bigint digits, v => ∃ n, IntegerOf digits.toList n ∧ v = .bigint n
  | boolean value, v => v = .boolean value

def Intrinsic.Denotes : Intrinsic → Value → Prop
  | any, _ | unknown, _ => True
  | never, _ => False
  | void, v | undefined, v => v = .undefined
  | null, v => v = .null
  | string, v => ∃ value, v = .string value
  | number, v => ∃ value, v = .number value
  | bigint, v => ∃ value, v = .bigint value
  | symbol, v => ∃ identity, v = .symbol identity
  | object, v => ∃ identity, v = .object identity

/-- The kinds of types that hold objects only. -/
def Kind.objectLike : List Kind :=
  [object, nonPrimitive]

namespace Table

/-- The values of a type, where `choice` says which values the type variables stand for. -/
inductive Inhabits (t : Table) (choice : TypeId → Value → Prop) : TypeId → Value → Prop where
  | intrinsic {id keyword v} :
      t.get? id = some (.intrinsic keyword) → keyword.Denotes v → Inhabits t choice id v
  | literal {id value v} :
      t.get? id = some (.literal value) → value.Denotes v → Inhabits t choice id v
  | object {id shape identity} :
      t.get? id = some (.object shape) → Inhabits t choice id (.object identity)
  | array {id element identity} :
      t.get? id = some (.array element) → Inhabits t choice id (.object identity)
  | tuple {id elements identity} :
      t.get? id = some (.tuple elements) → Inhabits t choice id (.object identity)
  | union {id members member v} :
      t.get? id = some (.union members) → member ∈ members →
      Inhabits t choice member v → Inhabits t choice id v
  | intersection {id members v} :
      t.get? id = some (.intersection members) →
      (∀ member ∈ members, t.kindIn member Kind.objectLike = false →
        Inhabits t choice member v) →
      ((∀ member ∈ members, t.kindIn member Kind.objectLike = true) →
        ∃ identity, v = .object identity) →
      Inhabits t choice id v
  | parameter {id name constraint v} :
      t.get? id = some (.typeParameter name constraint) → choice id v →
      (∀ base, t.baseConstraint? id = some base → Inhabits t choice base v) →
      Inhabits t choice id v
  | access {id object index v} :
      t.get? id = some (.indexedAccess object index) → choice id v →
      (∀ base, t.baseConstraint? id = some base → Inhabits t choice base v) →
      Inhabits t choice id v

end Table

/-!
## Literals
-/

private theorem digitValue_eq_zero_iff {c : Char} (digit : c.isDigit = true) :
    digitValue c = 0 ↔ c = '0' := by
  have bound : '0'.toNat ≤ c.toNat := by
    simp only [Char.isDigit, ge_iff_le, Bool.and_eq_true, decide_eq_true_eq] at digit
    exact UInt32.le_iff_toNat_le.mp digit.1
  constructor
  · intro zero
    apply Char.toNat_inj.mp
    unfold digitValue at zero
    omega
  · rintro rfl
    rfl

private theorem digitsValue_eq_zero_iff {digits : List Char}
    (decimal : digits.all Char.isDigit = true) :
    digitsValue digits = 0 ↔ ∀ c ∈ digits, c = '0' := by
  have accumulated : ∀ start : Nat,
      digits.foldl (fun value c => 10 * value + digitValue c) start = 0 ↔
        start = 0 ∧ ∀ c ∈ digits, c = '0' := by
    induction digits with
    | nil => simp
    | cons c rest ih =>
        intro start
        simp only [List.all_cons, Bool.and_eq_true] at decimal
        have scaled : 10 * start = 0 ↔ start = 0 := by omega
        rw [List.foldl_cons, ih decimal.2, Nat.add_eq_zero_iff, scaled,
          digitValue_eq_zero_iff decimal.1, List.forall_mem_cons, and_assoc]
  simpa [digitsValue] using accumulated 0

/-- Without a sign in front, the scan sees every digit. -/
theorem bigintIsTruthy_iff_digitsValue {digits : List Char}
    (decimal : digits.all Char.isDigit = true) :
    bigintIsTruthy digits = true ↔ digitsValue digits ≠ 0 := by
  have noSign : digits.dropWhile (· == '-') = digits := by
    cases digits with
    | nil => rfl
    | cons c rest =>
        have digit : c.isDigit = true := by simp_all
        have plain : c ≠ '-' := by
          rintro rfl
          revert digit
          decide
        simp [plain]
  rw [ne_eq, digitsValue_eq_zero_iff decimal]
  simp [bigintIsTruthy, noSign]

/-- A bigint literal counts as true exactly if its integer is not zero. -/
theorem bigintIsTruthy_iff {digits : List Char} {n : Int} (denotes : integer? digits = some n) :
    bigintIsTruthy digits = true ↔ n ≠ 0 := by
  unfold integer? at denotes
  split at denotes
  · rename_i unsigned
    split at denotes
    · rename_i wellFormed
      cases denotes
      have signed : bigintIsTruthy ('-' :: unsigned) = bigintIsTruthy unsigned := by
        simp [bigintIsTruthy]
      rw [signed, bigintIsTruthy_iff_digitsValue wellFormed.2]
      omega
    · cases denotes
  · split at denotes
    · rename_i wellFormed
      cases denotes
      rw [bigintIsTruthy_iff_digitsValue wellFormed.2]
      omega
    · cases denotes

theorem IntegerOf.isTruthy_iff {digits : List Char} {n : Int} (denotes : IntegerOf digits n) :
    bigintIsTruthy digits = true ↔ n ≠ 0 := by
  unfold IntegerOf at denotes
  split at denotes
  · rename_i value
    rw [bigintIsTruthy_iff value, denotes]
  · exact denotes

/-- Every bigint literal has a value, however it is written. -/
theorem exists_integerOf (digits : List Char) : ∃ n, IntegerOf digits n := by
  cases named : integer? digits with
  | some value => exact ⟨value, by simp [IntegerOf, named]⟩
  | none =>
      cases truthy : bigintIsTruthy digits with
      | true => exact ⟨1, by simp [IntegerOf, named, truthy]⟩
      | false => exact ⟨0, by simp [IntegerOf, named, truthy]⟩

theorem LiteralValue.isTruthy_of_denotes {value : LiteralValue} {v : Value}
    (denotes : value.Denotes v) : v.isTruthy = value.isTruthy := by
  cases value with
  | string text =>
      cases denotes
      rw [Value.isTruthy, LiteralValue.isTruthy, Bool.eq_iff_iff]
      simp
  | number | boolean => cases denotes; rfl
  | bigint digits =>
      obtain ⟨n, value, rfl⟩ := denotes
      rw [LiteralValue.isTruthy, Bool.eq_iff_iff, value.isTruthy_iff]
      simp [Value.isTruthy]

/-!
## Members and constraints
-/

namespace Table

variable {t : Table} {choice : TypeId → Value → Prop} {id : TypeId} {v : Value}

theorem inhabits_iff :
    t.Inhabits choice id v ↔
      match t.get? id with
      | none => False
      | some (.intrinsic keyword) => keyword.Denotes v
      | some (.literal value) => value.Denotes v
      | some (.object _) | some (.array _) | some (.tuple _) => ∃ identity, v = .object identity
      | some (.union members) => ∃ member ∈ members, t.Inhabits choice member v
      | some (.intersection members) =>
        (∀ member ∈ members, t.kindIn member Kind.objectLike = false →
          t.Inhabits choice member v) ∧
        ((∀ member ∈ members, t.kindIn member Kind.objectLike = true) →
          ∃ identity, v = .object identity)
      | some (.typeParameter _ _) | some (.indexedAccess _ _) =>
        choice id v ∧
          ∀ base, t.baseConstraint? id = some base → t.Inhabits choice base v := by
  constructor
  · intro inhabits
    cases inhabits with
    | intrinsic entry denotes | literal entry denotes => simpa [entry] using denotes
    | object entry | array entry | tuple entry => simp [entry]
    | union entry included member => simpa [entry] using ⟨_, included, member⟩
    | intersection entry each objects => simpa [entry] using And.intro each objects
    | parameter entry chosen bounded | access entry chosen bounded =>
        simpa [entry] using And.intro chosen bounded
  · intro values
    cases entry : t.get? id with
    | none => simp [entry] at values
    | some d =>
        rw [entry] at values
        cases d with
        | intrinsic => exact .intrinsic entry values
        | literal => exact .literal entry values
        | object => obtain ⟨identity, rfl⟩ := values; exact .object entry
        | array => obtain ⟨identity, rfl⟩ := values; exact .array entry
        | tuple => obtain ⟨identity, rfl⟩ := values; exact .tuple entry
        | union =>
            obtain ⟨member, included, value⟩ := values
            exact .union entry included value
        | intersection => exact .intersection entry values.1 values.2
        | typeParameter => exact .parameter entry values.1 values.2
        | indexedAccess => exact .access entry values.1 values.2

namespace Inhabits

theorem exists_unionPart (inhabits : t.Inhabits choice id v) :
    ∃ part ∈ t.unionParts id, t.Inhabits choice part v := by
  by_cases combined : ∃ members, t.get? id = some (.union members)
  · obtain ⟨members, entry⟩ := combined
    rw [unionParts_of_union entry]
    rw [inhabits_iff] at inhabits
    simpa [entry] using inhabits
  · rw [unionParts_of_not_union fun members entry => combined ⟨members, entry⟩]
    exact ⟨id, List.mem_singleton.mpr rfl, inhabits⟩

theorem constrained (inhabits : t.Inhabits choice id v) :
    t.Inhabits choice (t.constrained id) v := by
  cases found : t.baseConstraint? id with
  | none => simpa [Table.constrained, found] using inhabits
  | some base =>
      rw [constrained_of_baseConstraint? found]
      cases inhabits with
      | parameter _ _ bounded | access _ _ bounded => exact bounded base found
      | intrinsic entry | literal entry | object entry | array entry | tuple entry
      | union entry | intersection entry =>
          simp [baseConstraint?_eq, entry, baseConstraintStep] at found

theorem exists_constrainedUnionPart (inhabits : t.Inhabits choice id v) :
    ∃ part ∈ t.constrainedUnionParts id, t.Inhabits choice part v := by
  obtain ⟨part, included, member⟩ := inhabits.exists_unionPart
  obtain ⟨resolved, belongs, value⟩ := member.constrained.exists_unionPart
  exact ⟨resolved, List.mem_flatMap.mpr ⟨part, included, belongs⟩, value⟩

/-- A value of an intersection is an object, or a value of what one of the constituents that are no
object types resolves to. -/
theorem exists_constituent {members : List TypeId} (inhabits : t.Inhabits choice id v)
    (entry : t.get? id = some (.intersection members)) :
    (∃ identity, v = .object identity) ∨
      ∃ part ∈ t.constrainedIntersectionParts id, t.Inhabits choice part v := by
  rw [inhabits_iff, entry] at inhabits
  obtain ⟨each, objects⟩ := inhabits
  by_cases branded : ∀ member ∈ members, t.kindIn member Kind.objectLike = true
  · exact .inl (objects branded)
  · obtain ⟨member, included, other⟩ :
        ∃ member ∈ members, t.kindIn member Kind.objectLike = false := by
      simpa using branded
    exact .inr ⟨t.constrained member,
      (mem_constrainedIntersectionParts_iff entry).mpr ⟨member, included, rfl⟩,
      (each member included other).constrained⟩

end Inhabits

end Table

end ConditionLint
