import ConditionLint.Proofs.Sites.Decider
import ConditionLint.Proofs.Sites.Nullability
import ConditionLint.Proofs.Table.Parts

/-!
# Chains that can break off

A chain with an optional step on an element breaks off with `undefined` where the element is
missing, whatever its type says. Steps after the element and operands of `??` are left undecided
for this reason. A condition is not: it is found to be always truthy whenever its type is.
-/

set_option autoImplicit false

namespace ConditionLint

/-- The base of a member access or call, and whether the step is optional. -/
def Expr.step? : Expr → Option (Expr × Bool)
  | .member _ base _ optional | .call _ base _ optional => some (base, optional)
  | _ => none

/-- The chain of steps that ends with the expression can break off: an optional step of it is made
on an element. -/
inductive Expr.BreaksOff (p : Program) : Expr → Prop where
  | here {e base : Expr} :
      e.step? = some (base, true) → p.readsElement base = true → BreaksOff p e
  | before {e base : Expr} {optional : Bool} :
      e.step? = some (base, optional) → BreaksOff p base → BreaksOff p e

private theorem Program.passesElement_step {p : Program} {e base : Expr} {optional : Bool}
    (step : e.step? = some (base, optional)) :
    p.passesElement e = ((optional && p.readsElement base) || p.passesElement base) := by
  cases e with
  | member | call =>
      cases step
      rw [passesElement]
  | _ => cases step

theorem Program.passesElement_iff {p : Program} {e : Expr} :
    p.passesElement e = true ↔ e.BreaksOff p := by
  constructor
  · intro passes
    fun_induction passesElement p e with
    | case1 node base key optional ih | case2 node base arguments optional ih =>
        rcases Bool.or_eq_true_iff.mp passes with reads | passes
        · obtain ⟨rfl, reads⟩ := Bool.and_eq_true_iff.mp reads
          exact .here rfl reads
        · exact .before rfl (ih passes)
    | case3 => cases passes
  · intro breaksOff
    induction breaksOff with
    | here step reads => simp [passesElement_step step, reads]
    | before step _ ih => simp [passesElement_step step, ih]

/-- The members of a type, read as the types of a condition, leave it no falsy value. -/
structure Table.IsFixedTruthy (t : Table) (id : TypeId) : Prop where
  decidable : ∀ part ∈ t.constrainedUnionParts id, t.kindIn part Kind.undecidable = false
  inhabited : ∀ part ∈ t.unionParts id, t.kindIn part [.never] = false
  truthy : ∃ part ∈ t.constrainedUnionParts id,
    ∀ constituent ∈ t.constrainedIntersectionParts part, t.isFalsy constituent = false
  notFalsy : ∀ part ∈ t.constrainedUnionParts id,
    ∀ constituent ∈ t.constrainedIntersectionParts part,
      t.isTruthyLiteral constituent = true ∨ t.hasKind constituent Kind.possiblyFalsy = false

theorem Table.isFixedTruthy_iff {t : Table} {id : TypeId} :
    t.IsFixedTruthy id ↔
      t.isIndeterminate id = false ∧ t.truthVerdict? id = some .alwaysTruthy := by
  have verdict : t.truthVerdict? id = some .alwaysTruthy ↔
      t.isNever id = false ∧ t.isPossiblyTruthy id = true ∧ t.isPossiblyFalsy id = false := by
    unfold truthVerdict?
    cases t.isNever id <;> cases t.isPossiblyTruthy id <;> cases t.isPossiblyFalsy id <;> decide
  rw [verdict, isIndeterminate_eq_false_iff, isNever_eq_false_iff, isPossiblyTruthy_iff,
    isPossiblyFalsy_eq_false_iff]
  constructor
  · intro fixed
    exact ⟨fixed.decidable, fixed.inhabited, fixed.truthy, fixed.notFalsy⟩
  · rintro ⟨decidable, inhabited, truthy, notFalsy⟩
    exact ⟨decidable, inhabited, truthy, notFalsy⟩

namespace Program

variable {p : Program}

/-- A condition that reads no element itself is found to be always truthy if its type is. -/
theorem judgeCondition_alwaysTruthy_iff {e : Expr} (plain : e.isDecider = true)
    (stays : p.readsElement e = false) :
    (∃ f, (p.judgeCondition e).finding? = some f ∧ f.verdict = .alwaysTruthy) ↔
      ∃ type, p.constrainedType? e = some type ∧ p.table.IsFixedTruthy type := by
  constructor
  · rintro ⟨f, found, truthy⟩
    rw [judgeCondition_finding?_eq_some_iff, Expr.decider_of_isDecider plain,
      Expr.swaps_of_isDecider plain, judgeTruth_finding?_eq_some_iff] at found
    obtain ⟨_, type, verdict, typed, decidable, fixed, rfl⟩ := found
    cases truthy
    exact ⟨type, typed, Table.isFixedTruthy_iff.mpr ⟨decidable, fixed⟩⟩
  · rintro ⟨type, typed, fixed⟩
    obtain ⟨decidable, verdict⟩ := Table.isFixedTruthy_iff.mp fixed
    refine ⟨⟨.alwaysTruthy, e.span, some type⟩, ?_, rfl⟩
    rw [judgeCondition_finding?_eq_some_iff, Expr.decider_of_isDecider plain,
      Expr.swaps_of_isDecider plain, judgeTruth_finding?_eq_some_iff]
    exact ⟨stays, type, .alwaysTruthy, typed, decidable, verdict, rfl⟩

/-- Where the value of an operand of `??` may be missing, only its type being nullish or empty is
found. -/
theorem judgeNullish_of_missing {e : Expr} (missing : p.mayBeMissing e = true) {f : Finding}
    (found : (p.judgeNullish e).finding? = some f) :
    f.verdict = .never ∨ f.verdict = .alwaysNullish := by
  obtain ⟨type, verdict, _, _, fixes, rfl⟩ := judgeNullish_finding?_eq_some_iff.mp found
  cases fixes with
  | never => exact .inl rfl
  | alwaysNullish => exact .inr rfl
  | neverNullish _ _ present =>
      rw [missing] at present
      cases present

private theorem judgeNullish_ne_neverNullish {e : Expr} (missing : p.mayBeMissing e = true)
    {f : Finding}
    (found : (p.judgeNullish e).finding? = some f) : f.verdict ≠ .neverNullish := by
  cases judgeNullish_of_missing missing found with
  | inl never => simp [never]
  | inr always => simp [always]

theorem mayBeMissing_chain {node : Node} {inner : Expr} (breaksOff : inner.BreaksOff p) :
    p.mayBeMissing (.chain node inner) = true := by
  have passes := passesElement_iff.mpr breaksOff
  have notAsserted : inner.isNonNull = false := by
    cases inner with
    | nonNull => simp [passesElement] at passes
    | _ => rfl
  simp [mayBeMissing, passes, notAsserted]

/-- The doubt about a step of a chain that can break off is settled without the tokens. -/
theorem judgeStep_eq_of_breaksOff {e : Expr} (breaksOff : e.BreaksOff p) (tokens : TokenStream) :
    p.judgeStep tokens e =
      .ok (.undecided (e.optionalStep?.map fun _ => .afterElement e.span)) := by
  unfold judgeStep
  cases e.optionalStep? with
  | none => rfl
  | some found => exact if_pos (passesElement_iff.mpr breaksOff)

private theorem judgeStep_of_breaksOff {e : Expr} (breaksOff : e.BreaksOff p)
    (tokens : TokenStream) :
    ∃ doubt, p.judgeStep tokens e = .ok (.undecided doubt) :=
  ⟨_, judgeStep_eq_of_breaksOff breaksOff tokens⟩

end Program

/-- Where a chain can break off, the operand of `??` and the steps are left undecided, but a
condition is found to be always truthy exactly if its recorded type is. -/
theorem chain_breaking_off {p : Program} {node : Node} {inner : Expr}
    (breaksOff : inner.BreaksOff p) :
    (∀ f, (p.judgeNullish (.chain node inner)).finding? = some f → f.verdict ≠ .neverNullish) ∧
      (∀ tokens, ∃ doubt, p.judgeStep tokens inner = .ok (.undecided doubt)) ∧
      ((∃ f, (p.judgeCondition (.chain node inner)).finding? = some f ∧
          f.verdict = .alwaysTruthy) ↔
        ∃ type, p.constrainedType? (.chain node inner) = some type ∧
          p.table.IsFixedTruthy type) := by
  refine ⟨?_, ?_, ?_⟩
  · intro f found
    exact Program.judgeNullish_ne_neverNullish (Program.mayBeMissing_chain breaksOff) found
  · exact Program.judgeStep_of_breaksOff breaksOff
  · exact Program.judgeCondition_alwaysTruthy_iff rfl rfl

namespace Roster

/-!
The chains `list[i]?.owner` and `list[i]?.owner.describe()`, where `list` is an array of objects
with an `owner` and both chains have an object type.
-/

def descriptors : List Descriptor :=
  wellKnown ++
    [.object ⟨[⟨"name", .string⟩], [], []⟩, .object ⟨[⟨"owner", ⟨14⟩⟩], [], []⟩, .array ⟨15⟩]

def list : Expr :=
  .identifier ⟨⟨⟨0⟩, ⟨4, 8, 1, 5⟩⟩, "list"⟩

def element : Expr :=
  .member ⟨⟨2⟩, ⟨4, 11, 1, 5⟩⟩ list (.computed (.identifier ⟨⟨⟨1⟩, ⟨9, 10, 1, 10⟩⟩, "i"⟩)) false

def owner : Expr :=
  .member ⟨⟨4⟩, ⟨4, 18, 1, 5⟩⟩ element (.named ⟨⟨⟨3⟩, ⟨13, 18, 1, 14⟩⟩, "owner"⟩) true

def description : Expr :=
  .call ⟨⟨7⟩, ⟨4, 29, 1, 5⟩⟩
    (.member ⟨⟨6⟩, ⟨4, 27, 1, 5⟩⟩ owner (.named ⟨⟨⟨5⟩, ⟨19, 27, 1, 20⟩⟩, "describe"⟩) false)
    [] false

def ownerChain : Expr :=
  .chain ⟨⟨8⟩, owner.span⟩ owner

def descriptionChain : Expr :=
  .chain ⟨⟨9⟩, description.span⟩ description

def program : Program :=
  (Program.record ⟨.ofList descriptors, ∅, true⟩ list.id ⟨16⟩).record ownerChain.id ⟨14⟩
    |>.record descriptionChain.id ⟨14⟩

private theorem ofDescriptors?_descriptors : Table.ofDescriptors? descriptors = .ok program.table :=
  Table.ofDescriptors?_eq_ok_iff.mpr ⟨⟨_, rfl⟩, by decide +kernel, rfl⟩

private theorem typeOf?_list : program.typeOf? list.id = some ⟨16⟩ := by
  simp [program, Expr.id, Expr.node, list, ownerChain, descriptionChain]

private theorem typeOf?_ownerChain : program.typeOf? ownerChain.id = some ⟨14⟩ := by
  simp [program, Expr.id, Expr.node, ownerChain, descriptionChain]

theorem typeOf?_descriptionChain : program.typeOf? descriptionChain.id = some ⟨14⟩ := by
  simp [program]

theorem constrained_record : program.table.constrained ⟨14⟩ = ⟨14⟩ := by
  decide +kernel

private theorem isFixedTruthy_record : program.table.IsFixedTruthy ⟨14⟩ :=
  Table.isFixedTruthy_iff.mpr (by decide +kernel)

theorem readsElement_element : program.readsElement element = true := by
  have typed : program.constrainedType? list = some ⟨16⟩ := by
    rw [Program.constrainedType?, typeOf?_list]
    decide +kernel
  have array : (program.table.constrainedUnionParts ⟨16⟩).any program.table.isArray = true := by
    decide +kernel
  simp [element, Program.readsElement, typed, array]

private theorem breaksOff_owner : owner.BreaksOff program :=
  .here rfl readsElement_element

private theorem breaksOff_description : description.BreaksOff program :=
  .before rfl (.before rfl breaksOff_owner)

end Roster

theorem description_alwaysTruthy :
    Roster.description.BreaksOff Roster.program ∧
      ∃ f, (Roster.program.judgeCondition Roster.descriptionChain).finding? = some f ∧
        f.verdict = .alwaysTruthy := by
  have breaksOff := Roster.breaksOff_description
  refine ⟨breaksOff, (chain_breaking_off breaksOff).2.2.mpr ⟨⟨14⟩, ?_, ?_⟩⟩
  · have typed := Roster.typeOf?_descriptionChain
    rw [Roster.descriptionChain] at typed
    rw [Program.constrainedType?, typed, Option.map_some, Roster.constrained_record]
  · exact Roster.isFixedTruthy_record

/-- The owner of an element that may be missing is found to be always truthy. -/
theorem not_forall_chain_ne_alwaysTruthy :
    ¬ ∀ (ds : List Descriptor) (p : Program) (node : Node) (inner : Expr),
      Table.ofDescriptors? ds = .ok p.table → inner.BreaksOff p →
      ∀ f, (p.judgeCondition (.chain node inner)).finding? = some f →
        f.verdict ≠ .alwaysTruthy := by
  intro never
  have typed : Roster.program.constrainedType? Roster.ownerChain = some ⟨14⟩ := by
    rw [Program.constrainedType?, Roster.typeOf?_ownerChain, Option.map_some,
      Roster.constrained_record]
  obtain ⟨f, found, truthy⟩ := (Program.judgeCondition_alwaysTruthy_iff rfl rfl).mpr
    ⟨⟨14⟩, typed, Roster.isFixedTruthy_record⟩
  exact never _ _ _ _ Roster.ofDescriptors?_descriptors Roster.breaksOff_owner f found truthy

end ConditionLint
