import ConditionLint.Proofs.Sites.Instance
import ConditionLint.Proofs.Table.Persistence
import ConditionLint.Proofs.Values.Nullishness
import ConditionLint.Proofs.Values.Union

/-!
# Wider unions decide no more

A condition or an operand of `??` that is undecided with a union as its type stays undecided if
further members are joined.
-/

set_option autoImplicit false

namespace ConditionLint

namespace Table

variable {t : Table} {r s : TypeId} {ms more : List TypeId} {missing : Bool}

theorem WellFormed.leavesNullish_wider (wellFormed : t.WellFormed)
    (inhabited : ∃ m ∈ ms, m ≠ .never) (left : t.union ms = (t, r))
    (right : t.union (ms ++ more) = (t, s)) (undecided : t.LeavesNullish r missing) :
    t.LeavesNullish s missing := by
  rcases wellFormed.wider_cases inhabited left right with isOpen | rfl | ⟨resolved, never, wider⟩
  · left
    rw [isOpen.constrained_eq]
    exact ResolvesTo.self.isIndeterminate wellFormed.toRegular isOpen
  · exact undecided
  · rw [wellFormed.leavesNullish_iff] at undecided ⊢
    rw [resolved]
    rcases undecided with undecidable | ⟨_, possibly, notAlways⟩
    · exact .inl (or_self_iff.mp (wider t.widens_undecidable undecidable))
    · rw [isAlwaysNullish_eq, Bool.not_eq_false'] at notAlways
      rcases wider wellFormed.widens_present notAlways with undecidable | present
      · exact .inl undecidable
      refine or_iff_not_imp_left.mpr fun decidable => ⟨never, ?_, ?_⟩
      · exact possibly.imp_left fun nullish =>
          (wider t.widens_nullish nullish).resolve_left decidable
      · rw [isAlwaysNullish_eq, present]
        rfl

end Table

namespace Program

variable {p : Program} {e : Expr} {type : TypeId}

theorem judgeCondition_finding?_eq_none_iff (recorded : p.typeOf? e.decider.id = some type) :
    (p.judgeCondition e).finding? = none ↔
      p.readsElement e.decider = true ∨ p.table.conditionVerdict? type = none := by
  have verdict := conditionVerdict?_eq_of_typeOf? recorded
  rw [conditionVerdict?] at verdict
  rw [← Option.map_eq_none_iff, verdict]
  cases p.readsElement e.decider <;> simp

/-- The second program has another type for an expression. Whether the expression reads an element
and whether its value may be missing, which other expressions decide, are the same. -/
structure Retyped (p q : Program) (e : Expr) (before after : TypeId) : Prop where
  table : q.table = p.table
  before : p.typeOf? e.id = some before
  after : q.typeOf? e.id = some after
  readsElement : q.readsElement e = p.readsElement e
  mayBeMissing : q.mayBeMissing e = p.mayBeMissing e

end Program

/-- A union that `any` and `unknown` leave alone is possibly truthy, possibly falsy, possibly
nullish or undecidable exactly if one of the joined types is, and always nullish exactly if all of
them are, in every later table. If further types are joined with the union, or with the types that
it joins, then no condition and no operand of `??` that was undecided becomes decided. -/
theorem union_answers {t later : Table} (reached : t.Reached) {ms : List TypeId}
    (notEmpty : ms ≠ []) (contained : ∀ m ∈ ms, t.contains m = true) (noNever : .never ∉ ms)
    (grows : (t.union ms).1.Grows later) :
    ((t.union ms).2 ≠ .any → (t.union ms).2 ≠ .unknown → later.Combines (t.union ms).2 ms) ∧
      ∀ more, (∀ id ∈ more, later.contains id = true) →
        later.union ((t.union ms).2 :: more) = later.union (ms ++ more) ∧
        ∀ p q : Program, (later.union (ms ++ more)).1.Grows p.table →
          (∀ e, p.Retyped q (Expr.decider e) (t.union ms).2 (later.union (ms ++ more)).2 →
            (p.judgeCondition e).finding? = none → (q.judgeCondition e).finding? = none) ∧
          ∀ e, p.Retyped q e (t.union ms).2 (later.union (ms ++ more)).2 →
            (p.judgeNullish e).finding? = none → (q.judgeNullish e).finding? = none := by
  have wellFormed := reached.wellFormed
  have reachedUnion : (BuilderCall.run t (.union ms)).1.Reached := reached.run contained
  have before : t.entries.toList <+: later.entries.toList :=
    (Table.entries_prefix_run t (.union ms)).trans grows.grown
  have reachedLater := reachedUnion.grows grows
  have joined : later.union ms = (later, (t.union ms).2) :=
    wellFormed.union_of_grown reachedLater.wellFormed.indexed contained rfl before grows.grown
  obtain ⟨first, member⟩ := List.exists_mem_of_ne_nil ms notEmpty
  have inhabited : ∃ m ∈ ms, m ≠ .never := ⟨first, member, fun same => noNever (same ▸ member)⟩
  refine ⟨fun notAny notUnknown => ?_, fun more containedMore => ⟨?_, fun p q growsOn => ?_⟩⟩
  · exact reachedLater.wellFormed.combines_union joined notEmpty noNever notAny notUnknown
  · exact reachedLater.wellFormed.union_cons_union joined more
  · have containedAll : ∀ id ∈ ms ++ more, later.contains id = true := by
      intro id included
      rcases List.mem_append.mp included with old | new
      · exact Table.contains_of_grown before (contained id old)
      · exact containedMore id new
    have onwards : later.entries.toList <+: p.table.entries.toList :=
      (Table.entries_prefix_run later (.union (ms ++ more))).trans growsOn.grown
    have reachedWide : (BuilderCall.run later (.union (ms ++ more))).1.Reached :=
      reachedLater.run containedAll
    have reachedLast : p.table.Reached := reachedWide.grows growsOn
    have indexed := reachedLast.wellFormed.indexed
    have left : p.table.union ms = (p.table, (t.union ms).2) :=
      wellFormed.union_of_grown indexed contained rfl (before.trans onwards)
        (grows.grown.trans onwards)
    have right : p.table.union (ms ++ more) = (p.table, (later.union (ms ++ more)).2) :=
      reachedLater.wellFormed.union_of_grown indexed containedAll rfl onwards growsOn.grown
    constructor
    · intro e retyped undecided
      rw [Program.judgeCondition_finding?_eq_none_iff retyped.before] at undecided
      rw [Program.judgeCondition_finding?_eq_none_iff retyped.after, retyped.readsElement,
        retyped.table]
      exact undecided.imp_right
        (reachedLast.wellFormed.conditionVerdict?_wider inhabited left right)
    · intro e retyped undecided
      rw [Program.judgeNullish_finding?_eq_none_iff retyped.before] at undecided
      rw [Program.judgeNullish_finding?_eq_none_iff retyped.after, retyped.mayBeMissing,
        retyped.table]
      exact reachedLast.wellFormed.leavesNullish_wider inhabited left right undecided

namespace Widened

/-!
The operand `x`, whose type is the union of `null` and a type parameter `T` under `"a"`, and then
the union with `string` as well.
-/

def descriptors : List Descriptor :=
  wellKnown ++
    [.literal (.string "a"), .typeParameter "T" (some ⟨14⟩), .union [.null, ⟨15⟩],
      .union [.null, .string, ⟨15⟩]]

def table : Table :=
  .ofList descriptors

def operand : Expr :=
  .identifier ⟨⟨⟨0⟩, ⟨0, 1, 1, 1⟩⟩, "x"⟩

def narrow : Program :=
  Program.record ⟨table, ∅, true⟩ operand.id ⟨16⟩

def wide : Program :=
  Program.record ⟨table, ∅, true⟩ operand.id ⟨17⟩

private theorem reached_table : table.Reached :=
  ⟨table, .inr ⟨descriptors, Table.ofDescriptors?_eq_ok_iff.mpr ⟨⟨_, rfl⟩, by decide, rfl⟩⟩, .refl⟩

private theorem union_narrow : table.union [⟨15⟩, .null] = (table, ⟨16⟩) :=
  reached_table.wellFormed.union_of_get? (by decide) (by decide) rfl (by decide +kernel)

private theorem union_wide : table.union [⟨15⟩, .null, .string] = (table, ⟨17⟩) :=
  reached_table.wellFormed.union_of_get? (by decide) (by decide) rfl (by decide +kernel)

private theorem retyped_operand : narrow.Retyped wide operand ⟨16⟩ ⟨17⟩ :=
  ⟨rfl, by simp [narrow], by simp [wide], rfl, rfl⟩

private theorem judgeCondition_narrow : (narrow.judgeCondition operand).finding? = none := by
  rw [Program.judgeCondition_finding?_eq_none_iff retyped_operand.before]
  exact .inr (by decide)

private theorem judgeNullish_narrow : (narrow.judgeNullish operand).finding? = none := by
  rw [Program.judgeNullish_finding?_eq_none_iff retyped_operand.before]
  exact reached_table.wellFormed.leavesNullish_iff.mpr (.inr (by decide))

end Widened

theorem widened_undecided :
    Widened.table.Reached ∧ Widened.table.union [⟨15⟩, .null] = (Widened.table, ⟨16⟩) ∧
      Widened.table.union [⟨15⟩, .null, .string] = (Widened.table, ⟨17⟩) ∧
      Widened.table.Combines ⟨16⟩ [⟨15⟩, .null] ∧
      (Widened.narrow.judgeCondition Widened.operand).finding? = none ∧
      (Widened.wide.judgeCondition Widened.operand).finding? = none ∧
      (Widened.narrow.judgeNullish Widened.operand).finding? = none ∧
      (Widened.wide.judgeNullish Widened.operand).finding? = none := by
  have contained : ∀ m ∈ [(⟨15⟩ : TypeId), .null], Widened.table.contains m = true := by decide
  have grows : (Widened.table.union [⟨15⟩, .null]).1.Grows Widened.table := by
    rw [Widened.union_narrow]
    exact .refl
  obtain ⟨combines, wider⟩ :=
    union_answers Widened.reached_table (by simp) contained (by decide) grows
  rw [Widened.union_narrow] at combines wider
  obtain ⟨_, undecided⟩ := wider [.string] (by decide)
  have onwards : (Widened.table.union ([⟨15⟩, .null] ++ [.string])).1.Grows Widened.table := by
    rw [List.cons_append, List.cons_append, List.nil_append, Widened.union_wide]
    exact .refl
  obtain ⟨conditions, operands⟩ := undecided Widened.narrow Widened.wide onwards
  rw [List.cons_append, List.cons_append, List.nil_append, Widened.union_wide]
    at conditions operands
  exact ⟨Widened.reached_table, Widened.union_narrow, Widened.union_wide,
    combines (by decide) (by decide), Widened.judgeCondition_narrow,
    conditions _ Widened.retyped_operand Widened.judgeCondition_narrow, Widened.judgeNullish_narrow,
    operands _ Widened.retyped_operand Widened.judgeNullish_narrow⟩

end ConditionLint
