import ConditionLint.Proofs.Sites.Decider
import ConditionLint.Proofs.Values.Inhabitant

/-!
# Verdicts on conditions hold of every value

Where a condition is reported to be always truthy, always falsy or never, every value of its type
is truthy, every one is falsy, or there is none. Constituents of intersections have to be settled:
a constituent that is generic, `any`, `unknown` or itself an intersection hides what it can be.
-/

set_option autoImplicit false

namespace ConditionLint

namespace Table

/-- Kinds of constituents that hide what they can be. -/
def hidingKinds : List Kind :=
  .intersection :: Kind.undecidable

/-- Every constituent of an intersection among the members of a type resolves to a type that is
none of, and no union of, the hiding kinds. -/
def SettledIntersections (t : Table) (id : TypeId) : Prop :=
  ∀ part ∈ t.constrainedUnionParts id, t.kindIn part [.intersection] = true →
    ∀ constituent ∈ t.constrainedIntersectionParts part,
      t.hasKind constituent hidingKinds = false

instance (t : Table) (id : TypeId) : Decidable (t.SettledIntersections id) :=
  inferInstanceAs (Decidable (∀ part ∈ t.constrainedUnionParts id,
    t.kindIn part [.intersection] = true →
      ∀ constituent ∈ t.constrainedIntersectionParts part,
        t.hasKind constituent hidingKinds = false))

variable {t : Table} {choice : TypeId → Value → Prop} {id : TypeId} {v : Value}

/-!
## Types with one truth value
-/

theorem isTruthy_of_isTruthyLiteral (inhabits : t.Inhabits choice id v)
    (literal : t.isTruthyLiteral id = true) : v.isTruthy = true := by
  unfold isTruthyLiteral literal? at literal
  split at literal
  · rename_i value entry
    rw [inhabits_iff, entry] at inhabits
    rw [LiteralValue.isTruthy_of_denotes inhabits]
    simpa using literal
  · simp at literal

theorem isTruthy_of_isFalsy (inhabits : t.Inhabits choice id v) (falsy : t.isFalsy id = true) :
    v.isTruthy = false := by
  rw [inhabits_iff] at inhabits
  cases entry : t.get? id with
  | none => simp [entry] at inhabits
  | some d =>
      rw [entry] at inhabits
      simp only [isFalsy, kindIn_of_get? entry, literal?, entry, Bool.or_eq_true,
        decide_eq_true_eq] at falsy
      cases d with
      | intrinsic keyword =>
          cases keyword with
          | void | undefined | null => rw [inhabits]; rfl
          | _ => simp [Descriptor.kind, Intrinsic.kind] at falsy
      | literal value =>
          rw [LiteralValue.isTruthy_of_denotes inhabits]
          cases value <;> simpa [Descriptor.kind, LiteralValue.kind] using falsy
      | _ => simp [Descriptor.kind] at falsy

theorem isTruthy_of_solid (inhabits : t.Inhabits choice id v)
    (noUnion : ∀ members, t.get? id ≠ some (.union members))
    (noIntersection : ∀ members, t.get? id ≠ some (.intersection members))
    (decidable : t.kindIn id Kind.undecidable = false)
    (solid : t.kindIn id Kind.possiblyFalsy = false) : v.isTruthy = true := by
  rw [inhabits_iff] at inhabits
  cases entry : t.get? id with
  | none => simp [entry] at inhabits
  | some d =>
      rw [entry] at inhabits
      simp only [kindIn_of_get? entry, decide_eq_false_iff_not] at decidable solid
      cases d with
      | intrinsic keyword =>
          cases keyword with
          | never => exact inhabits.elim
          | symbol | object => obtain ⟨identity, rfl⟩ := inhabits; rfl
          | any | unknown => simp [Descriptor.kind, Intrinsic.kind, Kind.undecidable] at decidable
          | _ => simp [Descriptor.kind, Intrinsic.kind, Kind.possiblyFalsy] at solid
      | literal value =>
          cases value <;> simp [Descriptor.kind, LiteralValue.kind, Kind.possiblyFalsy] at solid
      | object | array | tuple => obtain ⟨identity, rfl⟩ := inhabits; rfl
      | union members => exact absurd entry (noUnion members)
      | intersection members => exact absurd entry (noIntersection members)
      | typeParameter | indexedAccess =>
          simp [Descriptor.kind, Kind.undecidable, Kind.typeVariable] at decidable

/-!
## Constituents and members
-/

/-- A constituent that keeps an intersection from being possibly falsy. -/
theorem isTruthy_of_constituent (regular : t.Regular) (inhabits : t.Inhabits choice id v)
    (settled : t.hasKind id hidingKinds = false)
    (solid : t.isTruthyLiteral id = true ∨ t.hasKind id Kind.possiblyFalsy = false) :
    v.isTruthy = true := by
  rcases solid with literal | solid
  · exact isTruthy_of_isTruthyLiteral inhabits literal
  · obtain ⟨part, included, value⟩ := inhabits.exists_unionPart
    have settled : t.kindIn part hidingKinds = false := kindIn_of_hasKind_eq_false settled included
    have noIntersection : ∀ members, t.get? part ≠ some (.intersection members) := by
      intro members entry
      simp [kindIn_of_get? entry, Descriptor.kind, hidingKinds] at settled
    exact isTruthy_of_solid value (regular.get?_ne_union_of_mem_unionParts included) noIntersection
      (kindIn_eq_false_of_subset (List.subset_cons_self _ _) settled)
      (kindIn_of_hasKind_eq_false solid included)

theorem constrainedIntersectionParts_of_single
    (noIntersection : ∀ members, t.get? id ≠ some (.intersection members))
    (decidable : t.kindIn id Kind.undecidable = false) :
    t.constrainedIntersectionParts id = [id] := by
  have fixed : t.kindIn id Kind.typeVariable = false :=
    kindIn_eq_false_of_subset (by simp [Kind.undecidable]) decidable
  rw [constrainedIntersectionParts, intersectionParts_of_not_intersection noIntersection,
    List.map_singleton, constrained_of_not_variable fixed]

theorem isTruthy_of_part (regular : t.Regular) (inhabits : t.Inhabits choice id v)
    (noUnion : ∀ members, t.get? id ≠ some (.union members))
    (decidable : t.kindIn id Kind.undecidable = false)
    (settled : t.kindIn id [.intersection] = true →
      ∀ constituent ∈ t.constrainedIntersectionParts id,
        t.hasKind constituent hidingKinds = false)
    (solid : ∀ constituent ∈ t.constrainedIntersectionParts id,
      t.isTruthyLiteral constituent = true ∨
        t.hasKind constituent Kind.possiblyFalsy = false) :
    v.isTruthy = true := by
  rcases intersection_or_single t id with ⟨members, entry⟩ | noIntersection
  · rcases inhabits.exists_constituent entry with ⟨identity, rfl⟩ | ⟨part, belongs, value⟩
    · rfl
    · -- One constituent that is no object type holds the value, and it alone decides.
      have isIntersection : t.kindIn id [.intersection] = true := by
        simp [kindIn_of_get? entry, Descriptor.kind]
      exact isTruthy_of_constituent regular value (settled isIntersection part belongs)
        (solid part belongs)
  · rw [constrainedIntersectionParts_of_single noIntersection decidable] at solid
    rcases solid id (List.mem_singleton.mpr rfl) with literal | solid
    · exact isTruthy_of_isTruthyLiteral inhabits literal
    · rw [hasKind_of_not_union noUnion] at solid
      exact isTruthy_of_solid inhabits noUnion noIntersection decidable solid

private theorem not_objectLike_of_isFalsy (falsy : t.isFalsy (t.constrained id) = true) :
    t.kindIn id Kind.objectLike = false := by
  rw [Bool.eq_false_iff]
  intro objectLike
  obtain ⟨kind, member, found⟩ := kindIn_iff.mp objectLike
  have fixed : t.kindIn id Kind.typeVariable = false := by
    simp only [kindIn, found]
    revert member
    cases kind <;> simp [Kind.objectLike, Kind.typeVariable]
  rw [constrained_of_not_variable fixed] at falsy
  cases entry : t.get? id with
  | none => simp [kind?, entry] at found
  | some d =>
      rw [kind?_of_get? entry] at found
      cases Option.some.inj found
      simp only [isFalsy, kindIn_of_get? entry, literal?, entry] at falsy
      cases d with
      | intrinsic keyword =>
          cases keyword <;> simp_all [Descriptor.kind, Intrinsic.kind, Kind.objectLike]
      | literal value =>
          cases value <;> simp [Descriptor.kind, LiteralValue.kind, Kind.objectLike] at member
      | _ => simp [Descriptor.kind] at falsy

theorem isTruthy_eq_false_of_part (inhabits : t.Inhabits choice id v)
    (decidable : t.kindIn id Kind.undecidable = false) {constituent : TypeId}
    (included : constituent ∈ t.constrainedIntersectionParts id)
    (falsy : t.isFalsy constituent = true) : v.isTruthy = false := by
  by_cases combined : ∃ members, t.get? id = some (.intersection members)
  · obtain ⟨members, entry⟩ := combined
    obtain ⟨member, belongs, rfl⟩ := (mem_constrainedIntersectionParts_iff entry).mp included
    rw [inhabits_iff, entry] at inhabits
    have value := inhabits.1 member belongs (not_objectLike_of_isFalsy falsy)
    exact isTruthy_of_isFalsy value.constrained falsy
  · rw [constrainedIntersectionParts_of_single
      (fun members entry => combined ⟨members, entry⟩) decidable] at included
    cases List.mem_singleton.mp included
    exact isTruthy_of_isFalsy inhabits falsy

/-!
## Verdicts
-/

/-- Only `never` itself has the kind `never`, since no union holds it. -/
theorem WellFormed.eq_never_of_isNever (wellFormed : t.WellFormed) (never : t.isNever id = true) :
    id = .never := by
  obtain ⟨part, included, kind⟩ := hasKind_iff.mp never
  have isNever : t.get? part = some (.intrinsic .never) := by
    cases entry : t.get? part with
    | none => simp [kindIn, kind?, entry] at kind
    | some d =>
        rw [kindIn_of_get? entry] at kind
        cases d with
        | intrinsic keyword => cases keyword <;> simp_all [Descriptor.kind, Intrinsic.kind]
        | literal value => cases value <;> simp [Descriptor.kind, LiteralValue.kind] at kind
        | _ => simp [Descriptor.kind] at kind
  have wellKnown : t.get? .never = some (.intrinsic .never) :=
    wellFormed.get?_wellKnown rfl
  have same : part = .never := wellFormed.get?_injective isNever wellKnown
  rcases union_or_single t id with ⟨members, entry⟩ | single
  · rw [unionParts_of_union entry] at included
    have flat := (irregularity?_eq_none_iff.mp (wellFormed.members entry rfl)).2 part included
    simp [memberIrregularity?, same, wellKnown] at flat
  · exact ((mem_unionParts_of_single single).mp included).symm.trans same

theorem not_inhabits_of_isNever (wellFormed : t.WellFormed) (never : t.isNever id = true) :
    ¬ t.Inhabits choice id v := by
  have wellKnown : t.get? .never = some (.intrinsic .never) :=
    wellFormed.get?_wellKnown rfl
  rw [wellFormed.eq_never_of_isNever never, inhabits_iff, wellKnown]
  exact not_false

/-- The verdict that a type fixes holds of all its values. -/
theorem truthVerdict?_sound (wellFormed : t.WellFormed)
    (decidable : t.isIndeterminate id = false) (settled : t.SettledIntersections id)
    {verdict : Verdict} (fixed : t.truthVerdict? id = some verdict) :
    (verdict = .never ∧ ∀ v, ¬ t.Inhabits choice id v) ∨
    (verdict = .alwaysFalsy ∧ ∀ v, t.Inhabits choice id v → v.isTruthy = false) ∨
    (verdict = .alwaysTruthy ∧ ∀ v, t.Inhabits choice id v → v.isTruthy = true) := by
  have decidableParts := isIndeterminate_eq_false_iff.mp decidable
  unfold truthVerdict? at fixed
  split at fixed
  · rename_i never
    exact .inl ⟨(Option.some.inj fixed).symm, fun v => not_inhabits_of_isNever wellFormed never⟩
  · split at fixed
    · rename_i noneTruthy
      rw [Bool.not_eq_eq_eq_not, Bool.not_true, isPossiblyTruthy_eq_false_iff] at noneTruthy
      refine .inr (.inl ⟨(Option.some.inj fixed).symm, fun v inhabits => ?_⟩)
      obtain ⟨part, included, value⟩ := inhabits.exists_constrainedUnionPart
      obtain ⟨constituent, belongs, falsy⟩ := noneTruthy part included
      exact isTruthy_eq_false_of_part value (decidableParts part included) belongs falsy
    · split at fixed
      · rename_i noneFalsy
        rw [Bool.not_eq_eq_eq_not, Bool.not_true, isPossiblyFalsy_eq_false_iff] at noneFalsy
        refine .inr (.inr ⟨(Option.some.inj fixed).symm, fun v inhabits => ?_⟩)
        obtain ⟨part, included, value⟩ := inhabits.exists_constrainedUnionPart
        exact isTruthy_of_part wellFormed.toRegular value
          (wellFormed.get?_ne_union_of_mem_constrainedUnionParts included)
          (decidableParts part included) (settled part included) (noneFalsy part included)
      · cases fixed

end Table

/-- A verdict on a condition that is no negation and no `&&` or `||` holds of every value of its
recorded type, whatever the type variables stand for. -/
theorem judgeCondition_sound {ds : List Descriptor} {p : Program}
    (accepted : Table.ofDescriptors? ds = .ok p.table) {e : Expr} (plain : e.isDecider = true)
    {type : TypeId} (recorded : p.typeOf? e.id = some type)
    (settled : p.table.SettledIntersections (p.table.constrained type))
    {f : Finding} (reported : (p.judgeCondition e).finding? = some f)
    (choice : TypeId → Value → Prop) :
    (f.verdict = .never ∧ ∀ v, ¬ p.table.Inhabits choice type v) ∨
    (f.verdict = .alwaysFalsy ∧ ∀ v, p.table.Inhabits choice type v → v.isTruthy = false) ∨
    (f.verdict = .alwaysTruthy ∧ ∀ v, p.table.Inhabits choice type v → v.isTruthy = true) := by
  have wellFormed := Table.wellFormed_of_ofDescriptors? accepted
  rw [Program.judgeCondition_finding?_eq_some_iff, Expr.decider_of_isDecider plain,
    Expr.swaps_of_isDecider plain, Program.judgeTruth_finding?_eq_some_iff] at reported
  obtain ⟨_, resolved, verdict, typed, decidable, fixed, rfl⟩ := reported
  have same : resolved = p.table.constrained type := by
    simpa [Program.constrainedType?, recorded, eq_comm] using typed
  subst same
  have resolves : ∀ v, p.table.Inhabits choice type v →
      p.table.Inhabits choice (p.table.constrained type) v := fun v => .constrained
  rcases @Table.truthVerdict?_sound _ choice _ wellFormed decidable settled _ fixed with
    ⟨never, none⟩ | ⟨falsy, all⟩ | ⟨truthy, all⟩
  · exact .inl ⟨never, fun v inhabits => none v (resolves v inhabits)⟩
  · exact .inr (.inl ⟨falsy, fun v inhabits => all v (resolves v inhabits)⟩)
  · exact .inr (.inr ⟨truthy, fun v inhabits => all v (resolves v inhabits)⟩)

def brandedDescriptors : List Descriptor :=
  wellKnown ++
    [.literal (.string "a"), .object ⟨[⟨"brand", .string⟩], [], []⟩, .intersection [⟨14⟩, ⟨15⟩],
      .typeParameter "T" (some ⟨16⟩), .union [.symbol, ⟨17⟩]]

def brandedName : Expr :=
  .identifier ⟨⟨⟨0⟩, ⟨0, 1, 1, 1⟩⟩, "x"⟩

def brandedProgram : Program :=
  Program.record ⟨.ofList brandedDescriptors, ∅, true⟩ brandedName.id ⟨18⟩

theorem brandedName_alwaysTruthy :
    Table.ofDescriptors? brandedDescriptors = .ok brandedProgram.table ∧
      brandedName.isDecider = true ∧ brandedProgram.typeOf? brandedName.id = some ⟨18⟩ ∧
      brandedProgram.table.SettledIntersections (brandedProgram.table.constrained ⟨18⟩) ∧
      (brandedProgram.judgeCondition brandedName).finding? =
        some ⟨.alwaysTruthy, brandedName.span, some ⟨18⟩⟩ ∧
      ∀ choice v, brandedProgram.table.Inhabits choice ⟨18⟩ v → v.isTruthy = true := by
  have accepted : Table.ofDescriptors? brandedDescriptors = .ok brandedProgram.table :=
    Table.ofDescriptors?_eq_ok_iff.mpr ⟨⟨_, rfl⟩, by decide +kernel, rfl⟩
  have recorded : brandedProgram.typeOf? brandedName.id = some ⟨18⟩ := by
    simp [brandedProgram, Program.typeOf?, Program.record]
  have settled :
      brandedProgram.table.SettledIntersections (brandedProgram.table.constrained ⟨18⟩) := by
    decide +kernel
  have reported : (brandedProgram.judgeCondition brandedName).finding? =
      some ⟨.alwaysTruthy, brandedName.span, some ⟨18⟩⟩ := by
    rw [Program.judgeCondition_finding?_eq_some_iff, Program.judgeTruth_finding?_eq_some_iff]
    refine ⟨rfl, ⟨18⟩, .alwaysTruthy, ?_, by decide +kernel, by decide +kernel, rfl⟩
    rw [Expr.decider_of_isDecider rfl, Program.constrainedType?, recorded]
    decide +kernel
  refine ⟨accepted, rfl, recorded, settled, reported, fun choice => ?_⟩
  rcases judgeCondition_sound accepted rfl recorded settled reported choice with
    ⟨other, _⟩ | ⟨other, _⟩ | ⟨_, all⟩
  · cases other
  · cases other
  · exact all

end ConditionLint
