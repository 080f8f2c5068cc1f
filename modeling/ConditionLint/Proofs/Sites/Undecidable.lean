import ConditionLint.Proofs.Sites.Decider
import ConditionLint.Proofs.Sites.Nullability
import ConditionLint.Proofs.Table.Resolution

/-!
# Types that can be anything are not judged

Where the type of a condition or of an operand of `??` resolves to one that can be anything, through
however many unions and constraints, nothing is found.
-/

set_option autoImplicit false

namespace ConditionLint

namespace Program

variable {p : Program} {e : Expr} {type : TypeId}

theorem constrainedType?_of_typeOf? (recorded : p.typeOf? e.id = some type) :
    p.constrainedType? e = some (p.table.constrained type) := by
  rw [constrainedType?, recorded, Option.map_some]

theorem judgeCondition_of_isIndeterminate
    (typed : p.constrainedType? e.decider = some type)
    (undecidable : p.table.isIndeterminate type = true) : (p.judgeCondition e).finding? = none := by
  refine Option.eq_none_iff_forall_ne_some.mpr fun f found => ?_
  obtain ⟨_, found⟩ := judgeCondition_finding?_eq_some_iff.mp found
  obtain ⟨other, _, same, decidable, _⟩ := judgeTruth_finding?_eq_some_iff.mp found
  rw [typed] at same
  cases same
  rw [undecidable] at decidable
  cases decidable

theorem judgeNullish_of_isIndeterminate (typed : p.constrainedType? e = some type)
    (undecidable : p.table.isIndeterminate type = true) : (p.judgeNullish e).finding? = none := by
  refine Option.eq_none_iff_forall_ne_some.mpr fun f found => ?_
  obtain ⟨other, _, same, decidable, _⟩ := judgeNullish_finding?_eq_some_iff.mp found
  rw [typed] at same
  cases same
  rw [undecidable] at decidable
  cases decidable

end Program

/-- No condition and no nullish operand is decided by a type that resolves to one that can be
anything. -/
theorem judge_of_resolvesTo_open {ds : List Descriptor} {p : Program}
    (accepted : Table.ofDescriptors? ds = .ok p.table) {type target : TypeId}
    (resolves : p.table.ResolvesTo type target) (isOpen : p.table.IsOpen target) :
    (∀ e : Expr, p.typeOf? e.decider.id = some type → (p.judgeCondition e).finding? = none) ∧
      ∀ e : Expr, p.typeOf? e.id = some type → (p.judgeNullish e).finding? = none := by
  have regular := (Table.wellFormed_of_ofDescriptors? accepted).toRegular
  have undecidable : p.table.isIndeterminate (p.table.constrained type) = true :=
    (resolves.constrained regular isOpen).isIndeterminate regular isOpen
  constructor
  · intro e recorded
    exact Program.judgeCondition_of_isIndeterminate
      (Program.constrainedType?_of_typeOf? recorded) undecidable
  · intro e recorded
    exact Program.judgeNullish_of_isIndeterminate
      (Program.constrainedType?_of_typeOf? recorded) undecidable

namespace Nested

/-!
The condition `!(ready && x)` and the operand `x`, where the type of `x` is a type parameter under
`U | null`, `U` is under `V`, `V` is under `string | W`, and nothing is known of `W`.
-/

def descriptors : List Descriptor :=
  wellKnown ++
    [.typeParameter "W" none, .union [.string, ⟨14⟩], .typeParameter "V" (some ⟨15⟩),
      .typeParameter "U" (some ⟨16⟩), .union [.null, ⟨17⟩], .typeParameter "T" (some ⟨18⟩)]

def ready : Expr :=
  .identifier ⟨⟨⟨0⟩, ⟨2, 7, 1, 3⟩⟩, "ready"⟩

def operand : Expr :=
  .identifier ⟨⟨⟨1⟩, ⟨11, 12, 1, 12⟩⟩, "x"⟩

def condition : Expr :=
  .unary ⟨⟨3⟩, ⟨0, 13, 1, 1⟩⟩ .not (.logical ⟨⟨2⟩, ⟨2, 12, 1, 3⟩⟩ .and ready operand)

def program : Program :=
  Program.record ⟨.ofList descriptors, ∅, true⟩ operand.id ⟨19⟩

private theorem ofDescriptors?_descriptors : Table.ofDescriptors? descriptors = .ok program.table :=
  Table.ofDescriptors?_eq_ok_iff.mpr ⟨⟨_, rfl⟩, by decide, rfl⟩

private theorem typeOf?_operand : program.typeOf? operand.id = some ⟨19⟩ := by
  simp [program]

private theorem resolvesTo_parameter : program.table.ResolvesTo ⟨19⟩ ⟨14⟩ := by
  have first : program.table.get? ⟨19⟩ = some (.typeParameter "T" (some ⟨18⟩)) := by
    decide
  have nullable : program.table.get? ⟨18⟩ = some (.union [.null, ⟨17⟩]) := by decide
  have second : program.table.get? ⟨17⟩ = some (.typeParameter "U" (some ⟨16⟩)) := by
    decide
  have third : program.table.get? ⟨16⟩ = some (.typeParameter "V" (some ⟨15⟩)) := by
    decide
  have either : program.table.get? ⟨15⟩ = some (.union [.string, ⟨14⟩]) := by decide
  exact .constraint first (.member nullable (by decide) (.constraint second (.constraint third
    (.member either (by decide) .self))))

private theorem isOpen_parameter : program.table.IsOpen ⟨14⟩ := by
  have last : program.table.get? ⟨14⟩ = some (.typeParameter "W" none) := by decide
  exact .parameter last

end Nested

theorem nested_undecided :
    Nested.program.table.ResolvesTo ⟨19⟩ ⟨14⟩ ∧ Nested.program.table.IsOpen ⟨14⟩ ∧
      (Nested.program.judgeCondition Nested.condition).finding? = none ∧
      (Nested.program.judgeNullish Nested.operand).finding? = none := by
  obtain ⟨conditions, operands⟩ := judge_of_resolvesTo_open Nested.ofDescriptors?_descriptors
    Nested.resolvesTo_parameter Nested.isOpen_parameter
  exact ⟨Nested.resolvesTo_parameter, Nested.isOpen_parameter,
    conditions _ Nested.typeOf?_operand, operands _ Nested.typeOf?_operand⟩

end ConditionLint
