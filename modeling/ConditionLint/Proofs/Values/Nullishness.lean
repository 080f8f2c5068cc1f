import ConditionLint.Proofs.Sites.Nullability
import ConditionLint.Proofs.Sites.Undecidable
import ConditionLint.Proofs.Table.Closure
import ConditionLint.Proofs.Values.Constituents
import Mathlib.Logic.Basic

/-!
# Verdicts on operands of `??` hold of every value

Where the operand is reported to be never nullish, no value of its type is `null` or `undefined`,
and where it is reported to be always nullish, every value is. Constituents of intersections have to
be settled here too, and `void`, which is read as no nullish type, must not be a member. On the
other side, a type that hides nothing and leaves its operand undecided has values of both kinds.
-/

set_option autoImplicit false

namespace ConditionLint

/-- The expression is a member access or a chain. -/
def Expr.isAccess : Expr → Bool
  | .member _ _ _ _ | .chain _ _ => true
  | _ => false

def Value.isNullish : Value → Bool
  | undefined | null => true
  | _ => false

namespace Table

variable {t : Table} {choice : TypeId → Value → Prop} {id type : TypeId} {v : Value}
  {missing : Bool}

/-!
## Operands that a type leaves undecided
-/

/-- The recorded type of an operand, whose value may be missing or not, decides nothing. -/
def LeavesNullish (t : Table) (type : TypeId) (missing : Bool) : Prop :=
  t.isIndeterminate (t.constrained type) = true ∨
    ∀ verdict, ¬ t.FixesNullish (t.constrained type) missing verdict

theorem Regular.isPossiblyNullish_of_isAlwaysNullish (regular : t.Regular)
    (always : t.isAlwaysNullish type = true) : t.isPossiblyNullish type = true := by
  obtain ⟨member, included⟩ := regular.exists_mem_unionParts type
  obtain ⟨part, belongs⟩ := regular.exists_mem_unionParts (t.constrained member)
  have resolved : part ∈ t.constrainedUnionParts type :=
    List.mem_flatMap.mpr ⟨member, included, belongs⟩
  exact List.any_eq_true.mpr ⟨part, resolved, List.all_eq_true.mp always part resolved⟩

/-- An operand is left undecided if it can be nullish or missing, and can be neither. -/
theorem Regular.leavesNullish_iff (regular : t.Regular) :
    t.LeavesNullish type missing ↔
      t.isIndeterminate (t.constrained type) = true ∨
        t.isNever (t.constrained type) = false ∧
          (t.isPossiblyNullish (t.constrained type) = true ∨ missing = true) ∧
          t.isAlwaysNullish (t.constrained type) = false := by
  apply or_congr_right
  constructor
  · intro undecided
    have inhabited : t.isNever (t.constrained type) = false := by
      rw [Bool.eq_false_iff]
      intro never
      exact undecided _ (.never never)
    refine ⟨inhabited, ?_, ?_⟩
    · cases nullish : t.isPossiblyNullish (t.constrained type) with
      | true => exact .inl rfl
      | false =>
          cases absent : missing with
          | true => exact .inr rfl
          | false => exact (undecided _ (.neverNullish inhabited nullish absent)).elim
    · rw [Bool.eq_false_iff]
      intro always
      have possibly := regular.isPossiblyNullish_of_isAlwaysNullish always
      exact undecided _ (.alwaysNullish inhabited possibly always)
  · intro ⟨inhabited, possibly, notAlways⟩ verdict fixes
    cases fixes with
    | never never => simp [never] at inhabited
    | neverNullish _ notNullish present => simp [notNullish, present] at possibly
    | alwaysNullish _ _ always => simp [always] at notAlways

/-!
## Values of one type
-/

/-- Kinds of constituents that are nullish or hide whether they are. -/
def obscureKinds : List Kind :=
  .void :: .union :: Kind.nullable ++ hidingKinds

/-- No member of a type is `void`, and every constituent of an intersection among the members
resolves to a type of none of the obscure kinds. -/
def SettledOperand (t : Table) (id : TypeId) : Prop :=
  ∀ part ∈ t.constrainedUnionParts id, t.kindIn part [.void] = false ∧
    (t.kindIn part [.intersection] = true →
      ∀ constituent ∈ t.constrainedIntersectionParts part,
        t.kindIn constituent obscureKinds = false)

instance (t : Table) (id : TypeId) : Decidable (t.SettledOperand id) :=
  inferInstanceAs (Decidable (∀ part ∈ t.constrainedUnionParts id, t.kindIn part [.void] = false ∧
    (t.kindIn part [.intersection] = true →
      ∀ constituent ∈ t.constrainedIntersectionParts part,
        t.kindIn constituent obscureKinds = false)))

theorem isNullish_of_inhabits (inhabits : t.Inhabits choice id v)
    (nullish : t.isNullish id = true) :
    v.isNullish = true := by
  rw [inhabits_iff] at inhabits
  cases entry : t.get? id with
  | none => simp [entry] at inhabits
  | some d =>
      rw [entry] at inhabits
      rw [isNullish, kindIn_of_get? entry] at nullish
      cases d with
      | intrinsic keyword =>
          cases keyword with
          | undefined | null => rw [inhabits]; rfl
          | _ => simp [Descriptor.kind, Intrinsic.kind, Kind.nullable] at nullish
      | literal value =>
          cases value <;> simp [Descriptor.kind, LiteralValue.kind, Kind.nullable] at nullish
      | _ => simp [Descriptor.kind, Kind.nullable] at nullish

theorem LiteralValue.isNullish_of_denotes {value : LiteralValue} (denotes : value.Denotes v) :
    v.isNullish = false := by
  cases value with
  | bigint digits =>
      obtain ⟨n, _, rfl⟩ := denotes
      rfl
  | string | number | boolean => cases denotes; rfl

theorem isNullish_eq_false_of_inhabits (inhabits : t.Inhabits choice id v)
    (settled : t.kindIn id obscureKinds = false) : v.isNullish = false := by
  rw [inhabits_iff] at inhabits
  cases entry : t.get? id with
  | none => simp [entry] at inhabits
  | some d =>
      rw [entry] at inhabits
      rw [kindIn_of_get? entry, decide_eq_false_iff_not] at settled
      cases d with
      | intrinsic keyword =>
          cases keyword with
          | never => exact inhabits.elim
          | string | number | bigint | symbol | object => obtain ⟨_, rfl⟩ := inhabits; rfl
          | any | unknown | void | undefined | null =>
              exact absurd (by decide) settled
      | literal value => exact LiteralValue.isNullish_of_denotes inhabits
      | object | array | tuple => obtain ⟨_, rfl⟩ := inhabits; rfl
      | union | intersection | typeParameter | indexedAccess =>
          exact absurd (by simp [Descriptor.kind, obscureKinds, hidingKinds, Kind.undecidable,
            Kind.typeVariable]) settled

/-!
## Values of members
-/

private theorem kindIn_union_eq_false (noUnion : ∀ members, t.get? id ≠ some (.union members)) :
    t.kindIn id [.union] = false := by
  cases entry : t.get? id with
  | none => simp [kindIn, kind?, entry]
  | some d =>
      rw [kindIn_of_get? entry]
      cases d with
      | union members => exact absurd entry (noUnion members)
      | intrinsic keyword => cases keyword <;> rfl
      | literal value => cases value <;> rfl
      | _ => rfl

private theorem kindIn_intersection_eq_false
    (noIntersection : ∀ members, t.get? id ≠ some (.intersection members)) :
    t.kindIn id [.intersection] = false := by
  cases entry : t.get? id with
  | none => simp [kindIn, kind?, entry]
  | some d =>
      rw [kindIn_of_get? entry]
      cases d with
      | intersection members => exact absurd entry (noIntersection members)
      | intrinsic keyword => cases keyword <;> rfl
      | literal value => cases value <;> rfl
      | _ => rfl

private theorem kindIn_append (t : Table) (id : TypeId) (first second : List Kind) :
    t.kindIn id (first ++ second) = (t.kindIn id first || t.kindIn id second) := by
  cases found : t.kind? id <;> simp [kindIn, found]

theorem isNullish_eq_false_of_part (inhabits : t.Inhabits choice id v)
    (noUnion : ∀ members, t.get? id ≠ some (.union members))
    (decidable : t.kindIn id Kind.undecidable = false) (noVoid : t.kindIn id [.void] = false)
    (present : t.isNullish id = false)
    (settled : t.kindIn id [.intersection] = true →
      ∀ constituent ∈ t.constrainedIntersectionParts id,
        t.kindIn constituent obscureKinds = false) :
    v.isNullish = false := by
  rcases intersection_or_single t id with ⟨members, entry⟩ | single
  · rcases inhabits.exists_constituent entry with ⟨identity, rfl⟩ | ⟨part, belongs, value⟩
    · rfl
    · -- One constituent that is no object type holds the value, and it is settled.
      have isIntersection : t.kindIn id [.intersection] = true := by
        simp [kindIn_of_get? entry, Descriptor.kind]
      exact isNullish_eq_false_of_inhabits value (settled isIntersection part belongs)
  · have plain : t.kindIn id obscureKinds = false := by
      have split : obscureKinds =
          [.void] ++ ([.union] ++ (Kind.nullable ++ ([.intersection] ++ Kind.undecidable))) := rfl
      rw [isNullish] at present
      rw [split, kindIn_append, kindIn_append, kindIn_append, kindIn_append, noVoid,
        kindIn_union_eq_false noUnion, present, kindIn_intersection_eq_false single, decidable]
      rfl
    exact isNullish_eq_false_of_inhabits inhabits plain

/-- What the type fixes about the operand holds of its values. -/
theorem FixesNullish.sound (regular : t.Regular) (decidable : t.isIndeterminate id = false)
    (settled : t.SettledOperand id) {verdict : Verdict}
    (fixed : t.FixesNullish id missing verdict) (inhabits : t.Inhabits choice id v) :
    (verdict = .neverNullish → v.isNullish = false) ∧
      (verdict = .alwaysNullish → v.isNullish = true) := by
  obtain ⟨part, included, value⟩ := inhabits.exists_constrainedUnionPart
  cases fixed with
  | never => simp
  | neverNullish _ notNullish =>
      have present : t.isNullish part = false :=
        Bool.eq_false_iff.mpr (List.any_eq_false.mp notNullish part included)
      obtain ⟨noVoid, constituents⟩ := settled part included
      have result : v.isNullish = false := isNullish_eq_false_of_part value
        (regular.get?_ne_union_of_mem_constrainedUnionParts included)
        (isIndeterminate_eq_false_iff.mp decidable part included) noVoid present constituents
      simp [result]
  | alwaysNullish _ _ always =>
      have nullish := List.all_eq_true.mp always part included
      simp [isNullish_of_inhabits value nullish]

/-!
## Types that hide nothing
-/

/-- Kinds that are generic, combine constituents, can be anything, or stand for no value or an
absent one. -/
def unclearKinds : List Kind :=
  .never :: .void :: hidingKinds

/-- The members of the type are of none of the unclear kinds. -/
def Clear (t : Table) (id : TypeId) : Prop :=
  ∀ part ∈ t.unionParts id, t.kindIn part unclearKinds = false

instance (t : Table) (id : TypeId) : Decidable (t.Clear id) :=
  inferInstanceAs (Decidable (∀ part ∈ t.unionParts id, _))

theorem inhabits_of_mem_unionParts {part : TypeId} (included : part ∈ t.unionParts id)
    (value : t.Inhabits choice part v) : t.Inhabits choice id v := by
  rcases union_or_single t id with ⟨members, entry⟩ | single
  · rw [unionParts_of_union entry] at included
    exact .union entry included value
  · rwa [(mem_unionParts_of_single single).mp included] at value

theorem exists_nullish_value (choice : TypeId → Value → Prop) (nullish : t.isNullish id = true) :
    ∃ v, t.Inhabits choice id v ∧ v.isNullish = true := by
  cases entry : t.get? id with
  | none => simp [isNullish, kindIn, kind?, entry] at nullish
  | some d =>
      rw [isNullish, kindIn_of_get? entry] at nullish
      cases d with
      | intrinsic keyword =>
          cases keyword with
          | undefined => exact ⟨.undefined, .intrinsic entry rfl, rfl⟩
          | null => exact ⟨.null, .intrinsic entry rfl, rfl⟩
          | _ => simp [Descriptor.kind, Intrinsic.kind, Kind.nullable] at nullish
      | literal value =>
          cases value <;> simp [Descriptor.kind, LiteralValue.kind, Kind.nullable] at nullish
      | _ => simp [Descriptor.kind, Kind.nullable] at nullish

theorem exists_present_value (choice : TypeId → Value → Prop) {d : Descriptor}
    (entry : t.get? id = some d) (plain : d.kind ∉ unclearKinds) (noUnion : d.kind ≠ .union)
    (present : d.kind ∉ Kind.nullable) :
    ∃ v, t.Inhabits choice id v ∧ v.isNullish = false := by
  cases d with
  | intrinsic keyword =>
      cases keyword with
      | string => exact ⟨.string "", .intrinsic entry ⟨_, rfl⟩, rfl⟩
      | number => exact ⟨.number default, .intrinsic entry ⟨_, rfl⟩, rfl⟩
      | bigint => exact ⟨.bigint 0, .intrinsic entry ⟨_, rfl⟩, rfl⟩
      | symbol => exact ⟨.symbol 0, .intrinsic entry ⟨_, rfl⟩, rfl⟩
      | object => exact ⟨.object 0, .intrinsic entry ⟨_, rfl⟩, rfl⟩
      | undefined | null => exact absurd (by decide) present
      | any | unknown | never | void => exact absurd (by decide) plain
  | literal value =>
      cases value with
      | string text => exact ⟨.string text, .literal entry rfl, rfl⟩
      | number value => exact ⟨.number value, .literal entry rfl, rfl⟩
      | boolean value => exact ⟨.boolean value, .literal entry rfl, rfl⟩
      | bigint digits =>
          obtain ⟨n, integer⟩ := exists_integerOf digits.toList
          exact ⟨.bigint n, .literal entry ⟨n, integer, rfl⟩, rfl⟩
  | object => exact ⟨.object 0, .object entry, rfl⟩
  | array => exact ⟨.object 0, .array entry, rfl⟩
  | tuple => exact ⟨.object 0, .tuple entry, rfl⟩
  | union => exact absurd rfl noUnion
  | intersection | typeParameter | indexedAccess =>
      exact absurd (by simp [Descriptor.kind, unclearKinds, hidingKinds, Kind.undecidable,
        Kind.typeVariable]) plain

namespace Clear

variable (clear : t.Clear id)

include clear

theorem fixed (part : TypeId) (included : part ∈ t.unionParts id) :
    t.kindIn part Kind.typeVariable = false :=
  kindIn_eq_false_of_subset (by decide) (clear part included)

theorem constrained_eq : t.constrained id = id := by
  apply constrained_of_not_variable
  rcases union_or_single t id with ⟨members, entry⟩ | single
  · rw [kindIn_of_get? entry]
    rfl
  · exact clear.fixed id ((mem_unionParts_of_single single).mpr rfl)

theorem isIndeterminate_eq_false (regular : t.Regular) : t.isIndeterminate id = false := by
  rw [isIndeterminate_eq_false_iff]
  intro part resolved
  have included := (regular.mem_constrainedUnionParts clear.fixed).mp resolved
  exact kindIn_eq_false_of_subset (by decide) (clear part included)

/-- A type that hides nothing and leaves its operand undecided has values of both kinds. -/
theorem exists_values (regular : t.Regular) (choice : TypeId → Value → Prop)
    (undecided : t.LeavesNullish id false) :
    (∃ v, t.Inhabits choice id v ∧ v.isNullish = true) ∧
      ∃ v, t.Inhabits choice id v ∧ v.isNullish = false := by
  have parts : ∀ {part}, part ∈ t.constrainedUnionParts id ↔ part ∈ t.unionParts id :=
    regular.mem_constrainedUnionParts clear.fixed
  rw [regular.leavesNullish_iff, clear.constrained_eq, clear.isIndeterminate_eq_false regular]
    at undecided
  obtain ⟨_, nullish, notAlways⟩ := undecided.resolve_left Bool.false_ne_true
  obtain ⟨absent, resolvedAbsent, nullish⟩ :=
    List.any_eq_true.mp (nullish.resolve_right Bool.false_ne_true)
  obtain ⟨present, resolvedPresent, notNullish⟩ := List.all_eq_false.mp notAlways
  rw [parts] at resolvedAbsent resolvedPresent
  constructor
  · obtain ⟨v, value, isNullish⟩ := exists_nullish_value choice nullish
    exact ⟨v, inhabits_of_mem_unionParts resolvedAbsent value, isNullish⟩
  · rcases union_or_single t id with ⟨members, entry⟩ | single
    · have belongs := resolvedPresent
      rw [unionParts_of_union entry] at belongs
      obtain ⟨d, found⟩ :=
        exists_get?_of_contains (regular.contains_of_mem_references entry belongs)
      have plain := clear present resolvedPresent
      rw [kindIn_of_get? found, decide_eq_false_iff_not] at plain
      rw [isNullish, kindIn_of_get? found, decide_eq_true_eq] at notNullish
      have noUnion : d.kind ≠ .union := by
        intro kind
        have no := kindIn_union_eq_false (regular.get?_ne_union_of_mem_unionParts resolvedPresent)
        rw [kindIn_of_get? found, kind] at no
        cases no
      obtain ⟨v, value, isPresent⟩ := exists_present_value choice found plain noUnion notNullish
      exact ⟨v, inhabits_of_mem_unionParts resolvedPresent value, isPresent⟩
    · -- The only member would be nullish and not nullish.
      rw [mem_unionParts_of_single single] at resolvedAbsent resolvedPresent
      rw [resolvedPresent, ← resolvedAbsent] at notNullish
      exact absurd nullish notNullish

end Clear

end Table

namespace Program

variable {p : Program} {e : Expr} {type : TypeId}

theorem judgeNullish_finding?_eq_none_iff (recorded : p.typeOf? e.id = some type) :
    (p.judgeNullish e).finding? = none ↔ p.table.LeavesNullish type (p.mayBeMissing e) := by
  have typed := constrainedType?_of_typeOf? recorded
  rw [Option.eq_none_iff_forall_ne_some, Table.LeavesNullish, ← Bool.not_eq_false,
    ← imp_iff_not_or]
  constructor
  · intro silent decidable verdict fixes
    exact silent _ (judgeNullish_finding?_eq_some_iff.mpr
      ⟨_, verdict, typed, decidable, fixes, rfl⟩)
  · intro undecided f found
    obtain ⟨other, verdict, same, decidable, fixes, _⟩ :=
      judgeNullish_finding?_eq_some_iff.mp found
    rw [typed] at same
    cases same
    exact undecided decidable verdict fixes

theorem mayBeMissing_eq_false (plain : e.isAccess = false) : p.mayBeMissing e = false := by
  cases e with
  | member | chain => cases plain
  | _ => rfl

end Program

/-- Whatever the type variables stand for, the verdict on an operand of `??` holds of every value of
its recorded type. If this type hides nothing and the operand, which is no access and no chain, is
left undecided, then the type has a value that is `null` or `undefined` and one that is not. -/
theorem judgeNullish_exact {ds : List Descriptor} {p : Program}
    (accepted : Table.ofDescriptors? ds = .ok p.table) {e : Expr} {type : TypeId}
    (recorded : p.typeOf? e.id = some type) (choice : TypeId → Value → Prop) :
    (p.table.SettledOperand (p.table.constrained type) →
      ∀ f, (p.judgeNullish e).finding? = some f → ∀ v, p.table.Inhabits choice type v →
        (f.verdict = .neverNullish → v.isNullish = false) ∧
          (f.verdict = .alwaysNullish → v.isNullish = true)) ∧
      (p.table.Clear type → e.isAccess = false → (p.judgeNullish e).finding? = none →
        (∃ v, p.table.Inhabits choice type v ∧ v.isNullish = true) ∧
          ∃ v, p.table.Inhabits choice type v ∧ v.isNullish = false) := by
  have regular := (Table.wellFormed_of_ofDescriptors? accepted).toRegular
  constructor
  · intro settled f reported v inhabits
    obtain ⟨resolved, verdict, typed, decidable, fixes, rfl⟩ :=
      Program.judgeNullish_finding?_eq_some_iff.mp reported
    have same : p.table.constrained type = resolved :=
      Option.some.inj ((Program.constrainedType?_of_typeOf? recorded).symm.trans typed)
    subst same
    exact fixes.sound regular decidable settled inhabits.constrained
  · intro clear plain undecided
    rw [Program.judgeNullish_finding?_eq_none_iff recorded, Program.mayBeMissing_eq_false plain]
      at undecided
    exact clear.exists_values regular choice undecided

namespace Operands

/-!
The operand `x`, whose type is a type parameter under a branded string, and the operand `y`, whose
type is the union of `null` and `0n`.
-/

def descriptors : List Descriptor :=
  wellKnown ++
    [.object ⟨[⟨"brand", .string⟩], [], []⟩, .intersection [.string, ⟨14⟩],
      .typeParameter "T" (some ⟨15⟩), .literal (.bigint "0"), .union [.null, ⟨17⟩]]

def x : Expr :=
  .identifier ⟨⟨⟨0⟩, ⟨0, 1, 1, 1⟩⟩, "x"⟩

def y : Expr :=
  .identifier ⟨⟨⟨1⟩, ⟨3, 4, 1, 4⟩⟩, "y"⟩

def program : Program :=
  ((⟨.ofList descriptors, ∅, true⟩ : Program).record x.id ⟨16⟩).record y.id ⟨18⟩

private theorem ofDescriptors?_descriptors : Table.ofDescriptors? descriptors = .ok program.table :=
  Table.ofDescriptors?_eq_ok_iff.mpr ⟨⟨_, rfl⟩, by decide, rfl⟩

private theorem typeOf?_x : program.typeOf? x.id = some ⟨16⟩ := by
  simp [program, x, y, Expr.id, Expr.node]

private theorem typeOf?_y : program.typeOf? y.id = some ⟨18⟩ := by
  simp [program]

private theorem clear_y : program.table.Clear ⟨18⟩ := by
  decide

private theorem judgeNullish_x :
    (program.judgeNullish x).finding? = some ⟨.neverNullish, x.span, some ⟨15⟩⟩ := by
  rw [Program.judgeNullish_finding?_eq_some_iff]
  refine ⟨⟨15⟩, .neverNullish, ?_, by decide, .neverNullish ?_ ?_ rfl, rfl⟩
  · rw [Program.constrainedType?_of_typeOf? typeOf?_x]
    decide
  · decide
  · decide

private theorem judgeNullish_y : (program.judgeNullish y).finding? = none := by
  have regular := (Table.wellFormed_of_ofDescriptors? ofDescriptors?_descriptors).toRegular
  rw [Program.judgeNullish_finding?_eq_none_iff typeOf?_y]
  exact regular.leavesNullish_iff.mpr (.inr (by decide))

end Operands

theorem operands_exact :
    Table.ofDescriptors? Operands.descriptors = .ok Operands.program.table ∧
      Operands.program.typeOf? Operands.x.id = some ⟨16⟩ ∧
      (Operands.program.judgeNullish Operands.x).finding? =
        some ⟨.neverNullish, Operands.x.span, some ⟨15⟩⟩ ∧
      (∀ choice v, Operands.program.table.Inhabits choice ⟨16⟩ v → v.isNullish = false) ∧
      Operands.program.typeOf? Operands.y.id = some ⟨18⟩ ∧
      (Operands.program.judgeNullish Operands.y).finding? = none ∧
      ∀ choice, (∃ v, Operands.program.table.Inhabits choice ⟨18⟩ v ∧ v.isNullish = true) ∧
        ∃ v, Operands.program.table.Inhabits choice ⟨18⟩ v ∧ v.isNullish = false := by
  have settled :
      Operands.program.table.SettledOperand (Operands.program.table.constrained ⟨16⟩) := by
    decide
  refine ⟨Operands.ofDescriptors?_descriptors, Operands.typeOf?_x, Operands.judgeNullish_x, ?_,
    Operands.typeOf?_y, Operands.judgeNullish_y, ?_⟩
  · intro choice v inhabits
    obtain ⟨sound, _⟩ :=
      judgeNullish_exact Operands.ofDescriptors?_descriptors Operands.typeOf?_x choice
    exact (sound settled _ Operands.judgeNullish_x v inhabits).1 rfl
  · intro choice
    obtain ⟨_, complete⟩ :=
      judgeNullish_exact Operands.ofDescriptors?_descriptors Operands.typeOf?_y choice
    exact complete Operands.clear_y rfl Operands.judgeNullish_y

end ConditionLint
