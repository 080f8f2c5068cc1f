import ConditionLint.Analysis.Comparison
import ConditionLint.Proofs.Table.Canonical
import ConditionLint.Proofs.Table.Embedding
import ConditionLint.Proofs.Values.Union

/-!
# Laws of comparisons

Neither the order of the operands nor a negation changes what is said about a comparison, and loose
equality is never less likely to hold than strict equality. If an operand is `null` or `undefined`
and the other one cannot be that, then no part of the other one can.
-/

set_option autoImplicit false

namespace ConditionLint

namespace BinaryOperator

/-- The operator that says the same of the operands in the other order. -/
def mirrored : BinaryOperator → BinaryOperator
  | lessThan => greaterThan
  | greaterThan => lessThan
  | lessEqual => greaterEqual
  | greaterEqual => lessEqual
  | operator => operator

/-- The operator that asks for the opposite of an equality. -/
def opposed : BinaryOperator → BinaryOperator
  | equal => notEqual
  | notEqual => equal
  | strictEqual => strictNotEqual
  | strictNotEqual => strictEqual
  | operator => operator

/-- The loose form of a strict equality. -/
def loosened : BinaryOperator → BinaryOperator
  | strictEqual => equal
  | strictNotEqual => notEqual
  | operator => operator

variable (operator : BinaryOperator)

@[simp] theorem isComparison_mirrored : operator.mirrored.isComparison = operator.isComparison := by
  cases operator <;> rfl

@[simp] theorem isComparison_opposed : operator.opposed.isComparison = operator.isComparison := by
  cases operator <;> rfl

@[simp] theorem isComparison_loosened : operator.loosened.isComparison = operator.isComparison := by
  cases operator <;> rfl

@[simp] theorem isLooseEquality_mirrored :
    operator.mirrored.isLooseEquality = operator.isLooseEquality := by
  cases operator <;> rfl

@[simp] theorem isLooseEquality_opposed :
    operator.opposed.isLooseEquality = operator.isLooseEquality := by
  cases operator <;> rfl

theorem isLooseEquality_loosened (loose : operator.isLooseEquality = true) :
    operator.loosened.isLooseEquality = true := by
  revert loose
  cases operator <;> decide

end BinaryOperator

namespace Table

variable {t u : Table} {l r s : TypeId} {xs : List TypeId} {loose : Bool}

theorem cannotOverlap_comm (t : Table) (loose : Bool) (left right : TypeId) :
    t.cannotOverlap loose right left = t.cannotOverlap loose left right :=
  Bool.or_comm _ _

/-!
## Loose equality
-/

/-- What may equal some kinds strictly may equal them loosely. -/
private theorem mayEqual_of_strict {kinds : List Kind} (may : t.mayEqual false r kinds = true)
    (loose : Bool) : t.mayEqual loose r kinds = true := by
  have split : ∀ more : List Kind, kinds ++ .any :: .unknown :: Kind.typeVariable ++ more =
      (kinds ++ .any :: .unknown :: Kind.typeVariable) ++ more := fun _ => rfl
  rw [mayEqual, split, hasKind_append, Bool.or_eq_true] at may ⊢
  exact .inl (may.resolve_right (by simp [hasKind]))

private theorem isNullishOutside_of_loose (outside : t.isNullishOutside loose l r = true) :
    t.isNullishOutside false l r = true := by
  have strict : ∀ kinds, t.mayEqual loose r kinds = false → t.mayEqual false r kinds = false := by
    intro kinds never
    rw [Bool.eq_false_iff] at never ⊢
    exact fun may => never (mayEqual_of_strict may loose)
  simp only [isNullishOutside, Bool.or_eq_true, Bool.and_eq_true, Bool.not_eq_true'] at outside ⊢
  exact outside.imp (And.imp_right (strict _)) (And.imp_right (strict _))

theorem cannotOverlap_of_loose (outside : t.cannotOverlap loose l r = true) :
    t.cannotOverlap false l r = true := by
  rw [cannotOverlap, Bool.or_eq_true] at outside ⊢
  exact outside.imp isNullishOutside_of_loose isNullishOutside_of_loose

/-!
## Wider operands
-/

/-- The kinds of types that may equal values of the given kinds. -/
def equalKinds (loose : Bool) (kinds : List Kind) : List Kind :=
  kinds ++ Kind.undecidable ++ if loose then .void :: Kind.nullable else []

theorem mayEqual_eq (t : Table) (loose : Bool) (id : TypeId) (kinds : List Kind) :
    t.mayEqual loose id kinds = t.hasKind id (equalKinds loose kinds) :=
  rfl

private theorem undecidable_subset_equalKinds (loose : Bool) (kinds : List Kind) :
    Kind.undecidable ⊆ equalKinds loose kinds := by
  intro kind undecidable
  exact List.mem_append_left _ (List.mem_append_right _ undecidable)

private theorem kindIn_equalKinds (undecidable : t.kindIn r Kind.undecidable = true) (loose : Bool)
    (kinds : List Kind) : t.kindIn r (equalKinds loose kinds) = true := by
  obtain ⟨kind, member, found⟩ := kindIn_iff.mp undecidable
  exact kindIn_iff.mpr ⟨kind, undecidable_subset_equalKinds loose kinds member, found⟩

private theorem kind_not_mem_equalKinds (value : LiteralValue) {kinds : List Kind}
    (nullish : kinds ⊆ [.undefined, .void, .null]) : value.kind ∉ equalKinds loose kinds := by
  have notListed : value.kind ∉ kinds := fun listed => by
    have := nullish listed
    cases value <;> simp [LiteralValue.kind] at this
  rw [equalKinds, List.mem_append, List.mem_append, not_or, not_or]
  refine ⟨⟨notListed, ?_⟩, ?_⟩
  · cases value <;> simp [LiteralValue.kind, Kind.undecidable, Kind.typeVariable]
  · cases value <;> cases loose <;> simp [LiteralValue.kind, Kind.nullable]

theorem isOfKind_eq_true_iff {kind : Kind} : t.isOfKind r kind = true ↔ t.kind? r = some kind :=
  beq_iff_eq

/-- What is outside another type is outside whatever may equal less. -/
private theorem isNullishOutside_of_narrower (narrower : ∀ kinds ⊆ [.undefined, .void, .null],
      t.mayEqual loose r kinds = true → t.mayEqual loose s kinds = true)
    (outside : t.isNullishOutside loose l s = true) : t.isNullishOutside loose l r = true := by
  have never : ∀ kinds ⊆ [.undefined, .void, .null], t.mayEqual loose s kinds = false →
      t.mayEqual loose r kinds = false := by
    intro kinds nullish
    rw [Bool.eq_false_iff, Bool.eq_false_iff]
    exact mt (narrower kinds nullish)
  simp only [isNullishOutside, Bool.or_eq_true, Bool.and_eq_true, Bool.not_eq_true'] at outside ⊢
  exact outside.imp (And.imp_right (never _ (by simp))) (And.imp_right (never _ (by simp)))

private theorem kindIn_nullable_of_isNullishOutside
    (outside : t.isNullishOutside loose l r = true) :
    t.kindIn l Kind.nullable = true := by
  simp only [isNullishOutside, Bool.or_eq_true, Bool.and_eq_true, isOfKind_eq_true_iff] at outside
  rcases outside with ⟨kind, _⟩ | ⟨kind, _⟩
  · exact kindIn_iff.mpr ⟨.undefined, by decide, kind⟩
  · exact kindIn_iff.mpr ⟨.null, by decide, kind⟩

/-- What can be anything overlaps with everything. -/
theorem IsOpen.cannotOverlap_eq_false (isOpen : t.IsOpen s) (loose : Bool) (l : TypeId) :
    t.cannotOverlap loose l s = false := by
  have undecidable := isOpen.kindIn_undecidable
  have equal : ∀ kinds, t.mayEqual loose s kinds = true := by
    intro kinds
    rw [mayEqual_eq, hasKind_of_not_union isOpen.get?_ne_union]
    exact kindIn_equalKinds undecidable loose kinds
  have notNullish : t.isNullishOutside loose s l = false := by
    rw [Bool.eq_false_iff]
    intro outside
    obtain ⟨kind, nullish, found⟩ := kindIn_iff.mp (kindIn_nullable_of_isNullishOutside outside)
    obtain ⟨same, opens, found'⟩ := kindIn_iff.mp undecidable
    cases Option.some.inj (found.symm.trans found')
    revert nullish opens
    cases kind <;> decide
  rw [cannotOverlap, notNullish]
  simp [isNullishOutside, equal]

section Wider

variable (wellFormed : t.WellFormed) (canonical : t.Canonical) (other : r ≠ .never)
  (joined : t.union (r :: xs) = (t, s)) (notOpen : s ≠ .any ∧ s ≠ .unknown)

include wellFormed canonical other joined notOpen

/-- A wider type that is exactly `undefined`, exactly `null` or generic is no wider. -/
private theorem eq_of_wider_of_kind {set : List Kind} (kind : t.kindIn s set = true)
    (known : ∀ kind ∈ set, kind ∈ Kind.nullable ++ Kind.typeVariable) : r = s := by
  have excluded : ∀ kind ∈ Kind.nullable ++ Kind.typeVariable,
      kind ∉ [.string, .number, .bigint, .union] := by decide
  have alone : t.union [r] = (t, r) := wellFormed.union_singleton canonical r
  have plain := not_mem_flatMap_of_ne joined notOpen.1 notOpen.2
  refine eq_of_wider_of_kindIn wellFormed ⟨r, List.mem_singleton.mpr rfl, other⟩ plain alone joined
    kind (fun kind member primitive => excluded kind (known kind member) ?_)
    (fun member => excluded .union (known _ member) (by decide))
  exact List.mem_append_left [.union] primitive

/-- What a type may equal once it is resolved, a wider one may equal. -/
theorem mayEqual_wider {kinds : List Kind} (nullish : kinds ⊆ [.undefined, .void, .null])
    (may : t.mayEqual loose (t.constrained r) kinds = true) :
    t.mayEqual loose (t.constrained s) kinds = true := by
  cases generic : t.kindIn s Kind.typeVariable with
  | true =>
      rwa [← eq_of_wider_of_kind wellFormed canonical other joined notOpen generic (by decide)]
  | false =>
      have widens : t.Widens (t.kindIn · (equalKinds loose kinds)) :=
        widens_of_kinds fun value => kind_not_mem_equalKinds value nullish
      have holds : ∃ part ∈ t.unionParts r, t.kindIn part (equalKinds loose kinds) = true := by
        cases unsettled : t.kindIn r Kind.typeVariable with
        | false =>
            rwa [constrained_of_not_variable unsettled, mayEqual_eq, hasKind_iff] at may
        | true =>
            have single : ∀ members, t.get? r ≠ some (.union members) := by
              intro members entry
              simp [kindIn_of_get? entry, Descriptor.kind, Kind.typeVariable] at unsettled
            obtain ⟨kind, member, found⟩ := kindIn_iff.mp unsettled
            have undecidable : t.kindIn r Kind.undecidable = true :=
              kindIn_iff.mpr ⟨kind, by simp [Kind.undecidable, member], found⟩
            exact ⟨r, (mem_unionParts_of_single single).mpr rfl,
              kindIn_equalKinds undecidable loose kinds⟩
      rw [constrained_of_not_variable generic, mayEqual_eq, hasKind_iff]
      exact exists_part_of_wider wellFormed ⟨r, List.mem_singleton.mpr rfl, other⟩
        (not_mem_flatMap_of_ne joined notOpen.1 notOpen.2)
        (wellFormed.union_singleton canonical r) joined widens holds

end Wider

theorem cannotOverlap_of_wider (wellFormed : t.WellFormed) (canonical : t.Canonical)
    (other : r ≠ .never) (joined : t.union (r :: xs) = (t, s))
    (outside : t.cannotOverlap loose l (t.constrained s) = true) :
    t.cannotOverlap loose l (t.constrained r) = true := by
  have closed : ¬ t.IsOpen s := by
    intro isOpen
    rw [isOpen.constrained_eq, isOpen.cannotOverlap_eq_false] at outside
    cases outside
  have notOpen : s ≠ .any ∧ s ≠ .unknown :=
    ⟨fun any => closed (any ▸ wellFormed.isOpen_any),
      fun unknown => closed (unknown ▸ wellFormed.isOpen_unknown)⟩
  rw [cannotOverlap, Bool.or_eq_true] at outside ⊢
  rcases outside with inside | outside
  · exact .inl (isNullishOutside_of_narrower
      (fun _ => mayEqual_wider wellFormed canonical other joined notOpen) inside)
  · have same : r = s := by
      cases generic : t.kindIn s Kind.typeVariable with
      | true =>
          exact eq_of_wider_of_kind wellFormed canonical other joined notOpen generic (by decide)
      | false =>
          have nullish := kindIn_nullable_of_isNullishOutside outside
          rw [constrained_of_not_variable generic] at nullish
          exact eq_of_wider_of_kind wellFormed canonical other joined notOpen nullish (by decide)
    exact .inr (same ▸ outside)

end Table

/-!
## Judgements
-/

namespace Program

variable {p q : Program} {node : Node} {operator : BinaryOperator} {left right : Expr}
  {l r s : TypeId} {xs : List TypeId}

structure Compares (p : Program) (left right : Expr) (l r : TypeId) : Prop where
  left : p.typeOf? left.id = some l
  right : p.typeOf? right.id = some r

def comparison? (p : Program) (node : Node) (operator : BinaryOperator) (left right : Expr) :
    Option Verdict :=
  (p.judgeComparison node operator left right).finding?.map Finding.verdict

theorem comparison?_eq (p : Program) (node : Node) (operator : BinaryOperator)
    (left right : Expr) :
    p.comparison? node operator left right =
      if operator.isComparison then
        (p.constrainedType? left).bind fun l =>
          (p.constrainedType? right).bind fun r => p.comparisonVerdict? operator l r
      else none := by
  unfold comparison? judgeComparison
  cases operator.isComparison with
  | false => rfl
  | true =>
      cases p.constrainedType? left with
      | none => rfl
      | some l =>
          cases p.constrainedType? right with
          | none => rfl
          | some r =>
              simp only [if_true, Option.bind_some]
              cases p.comparisonVerdict? operator l r <;> rfl

theorem Compares.comparison?_eq (compares : p.Compares left right l r) :
    p.comparison? node operator left right =
      if operator.isComparison then
        p.comparisonVerdict? operator (p.table.constrained l) (p.table.constrained r)
      else none := by
  simp [Program.comparison?_eq, constrainedType?, compares.left, compares.right]

theorem comparisonVerdict?_mirrored (p : Program) (operator : BinaryOperator) (l r : TypeId) :
    p.comparisonVerdict? operator.mirrored r l = p.comparisonVerdict? operator l r := by
  simp only [comparisonVerdict?, BinaryOperator.isLooseEquality_mirrored, Table.cannotOverlap_comm,
    Bool.and_comm (p.table.isBareLiteral r)]

theorem comparisonVerdict?_opposed (p : Program) (operator : BinaryOperator) (l r : TypeId) :
    p.comparisonVerdict? operator.opposed l r = p.comparisonVerdict? operator l r := by
  simp only [comparisonVerdict?, BinaryOperator.isLooseEquality_opposed]

theorem comparisonVerdict?_eq_noOverlap_iff :
    p.comparisonVerdict? operator l r = some .noOverlap ↔
      ¬ (p.table.isBareLiteral l = true ∧ p.table.isBareLiteral r = true) ∧
        p.strictNullChecks = true ∧
        p.table.cannotOverlap operator.isLooseEquality l r = true := by
  unfold comparisonVerdict?
  cases p.table.isBareLiteral l <;> cases p.table.isBareLiteral r <;>
    cases p.strictNullChecks <;> cases p.table.cannotOverlap operator.isLooseEquality l r <;> simp

theorem comparisonVerdict?_of_cannotOverlap (strict : p.strictNullChecks = true)
    (outside : p.table.cannotOverlap operator.isLooseEquality l r = true) :
    p.comparisonVerdict? operator l r = some .noOverlap ∨
      p.comparisonVerdict? operator l r = some .literalComparison := by
  by_cases literals : p.table.isBareLiteral l = true ∧ p.table.isBareLiteral r = true
  · exact .inr (by simp [comparisonVerdict?, literals])
  · exact .inl (comparisonVerdict?_eq_noOverlap_iff.mpr ⟨literals, strict, outside⟩)

theorem comparisonVerdict?_of_loosened
    (outside : p.comparisonVerdict? operator.loosened l r = some .noOverlap) :
    p.comparisonVerdict? operator l r = some .noOverlap := by
  rw [comparisonVerdict?_eq_noOverlap_iff] at outside ⊢
  refine outside.imp_right (And.imp_right fun loose => ?_)
  cases equality : operator.isLooseEquality with
  | false => exact Table.cannotOverlap_of_loose loose
  | true => rwa [BinaryOperator.isLooseEquality_loosened operator equality] at loose

theorem judgeComparison_mirrored (p : Program) (node : Node) (operator : BinaryOperator)
    (left right : Expr) :
    p.judgeComparison node operator.mirrored right left =
      p.judgeComparison node operator left right := by
  unfold judgeComparison
  rw [operator.isComparison_mirrored]
  cases p.constrainedType? left <;> cases p.constrainedType? right <;>
    simp [comparisonVerdict?_mirrored]

theorem judgeComparison_opposed (p : Program) (node : Node) (operator : BinaryOperator)
    (left right : Expr) :
    p.judgeComparison node operator.opposed left right =
      p.judgeComparison node operator left right := by
  simp only [judgeComparison, operator.isComparison_opposed, comparisonVerdict?_opposed]

theorem comparison?_of_loosened
    (outside : p.comparison? node operator.loosened left right = some .noOverlap) :
    p.comparison? node operator left right = some .noOverlap := by
  rw [comparison?_eq, operator.isComparison_loosened] at outside
  rw [comparison?_eq]
  cases compares : operator.isComparison with
  | false => simp [compares] at outside
  | true =>
      rw [compares, if_pos rfl, Option.bind_eq_some_iff] at outside
      obtain ⟨l, typedLeft, outside⟩ := outside
      obtain ⟨r, typedRight, outside⟩ := Option.bind_eq_some_iff.mp outside
      simp [typedLeft, typedRight, comparisonVerdict?_of_loosened outside]

/-- Resolved operands overlap in a table exactly if they do in one that continues it. -/
theorem cannotOverlap_of_grown {t u : Table} (wellFormed : t.WellFormed) (later : u.WellFormed)
    (grown : t.entries.toList <+: u.entries.toList) (leftContained : t.contains l = true)
    (rightContained : t.contains r = true) (loose : Bool) :
    u.cannotOverlap loose (u.constrained l) (u.constrained r) =
      t.cannotOverlap loose (t.constrained l) (t.constrained r) := by
  have embeds := wellFormed.embeds_of_grown later grown
  rw [embeds.constrained leftContained, embeds.constrained rightContained]
  exact embeds.cannotOverlap (wellFormed.contains_constrained leftContained)
    (wellFormed.contains_constrained rightContained) loose

end Program

/-- Swapping the operands of a comparison, with the operator turned round, or asking for the
opposite of an equality changes nothing about its judgement, and an equality whose loose form cannot
hold cannot hold itself. In tables that are built from the well-known types, if an operand has no
overlap with a union then it has none with any type that the union joins, or the comparison is one
of literals. -/
theorem comparisons_agree (p : Program) (node : Node) (operator : BinaryOperator)
    (left right : Expr) :
    p.judgeComparison node operator.mirrored right left =
        p.judgeComparison node operator left right ∧
      p.judgeComparison node operator.opposed left right =
        p.judgeComparison node operator left right ∧
      (p.comparison? node operator.loosened left right = some .noOverlap →
        p.comparison? node operator left right = some .noOverlap) ∧
      ∀ t l r xs, Table.initial.Grows t → t.Grows p.table → p.Compares left right l r →
        t.contains l = true → t.contains r = true → (∀ id ∈ xs, t.contains id = true) →
        r ≠ .never →
        ∀ (q : Program) (left' right' : Expr), (t.union (r :: xs)).1.Grows q.table →
          q.strictNullChecks = p.strictNullChecks →
          q.Compares left' right' l (t.union (r :: xs)).2 →
          q.comparison? node operator left' right' = some .noOverlap →
          p.comparison? node operator left right = some .noOverlap ∨
            p.comparison? node operator left right = some .literalComparison := by
  refine ⟨p.judgeComparison_mirrored node operator left right,
    p.judgeComparison_opposed node operator left right, Program.comparison?_of_loosened, ?_⟩
  intro t l r xs built growsP compares containedLeft containedRight containedMore other q left'
    right' growsQ sameChecks wider outside
  have contained : ∀ id ∈ r :: xs, t.contains id = true :=
    List.forall_mem_cons.mpr ⟨containedRight, containedMore⟩
  have before : t.entries.toList <+: q.table.entries.toList :=
    (Table.entries_prefix_run t (.union (r :: xs))).trans growsQ.grown
  have builtQ : Table.initial.Grows q.table :=
    (built.call (.union (r :: xs)) contained).trans growsQ
  have wellFormed := Table.wellFormed_of_grows built
  have wellFormedQ := Table.wellFormed_of_grows builtQ
  have wellFormedP := Table.wellFormed_of_grows (built.trans growsP)
  have joined : q.table.union (r :: xs) = (q.table, (t.union (r :: xs)).2) :=
    wellFormed.union_of_grown wellFormedQ.indexed contained rfl before growsQ.grown
  rw [wider.comparison?_eq] at outside
  rw [compares.comparison?_eq]
  cases compared : operator.isComparison with
  | false => simp [compared] at outside
  | true =>
      rw [compared, if_pos rfl, Program.comparisonVerdict?_eq_noOverlap_iff] at outside
      obtain ⟨_, strict, outside⟩ := outside
      have narrow := Table.cannotOverlap_of_wider wellFormedQ (Table.canonical_of_grows builtQ)
        other joined outside
      rw [Program.cannotOverlap_of_grown wellFormed wellFormedQ before containedLeft containedRight,
        ← Program.cannotOverlap_of_grown wellFormed wellFormedP growsP.grown containedLeft
          containedRight] at narrow
      exact Program.comparisonVerdict?_of_cannotOverlap (sameChecks ▸ strict) narrow

namespace Absorbed

/-!
The comparison of `undefined` with a value of the type `"a"`, and with one of the type that the
union of `"a"` and `string` comes to, which is `string`.
-/

def table : Table :=
  .ofList (wellKnown ++ [.literal (.string "a")])

def node : Node :=
  ⟨⟨2⟩, ⟨0, 15, 1, 1⟩⟩

def left : Expr :=
  .identifier ⟨⟨⟨0⟩, ⟨0, 9, 1, 1⟩⟩, "undefined"⟩

def right : Expr :=
  .identifier ⟨⟨⟨1⟩, ⟨14, 15, 1, 15⟩⟩, "x"⟩

def program (type : TypeId) : Program :=
  (Program.record ⟨table, ∅, true⟩ left.id .undefined).record right.id type

private theorem grows_table : Table.initial.Grows table := by
  have loads := Table.ofDescriptors?_eq_ok_iff.mp Table.ofDescriptors?_wellKnown
  have wellFormed := Table.wellFormed_of_ofDescriptors? Table.ofDescriptors?_wellKnown
  have added : (BuilderCall.run .initial (.literal (.string "a"))).1 = table := by
    have fresh : Descriptor.literal (.string "a") ∉ Table.initial.entries.toList := by
      rw [Table.entries_of_ofDescriptors? Table.ofDescriptors?_wellKnown]
      decide
    change (Table.initial.intern (.literal (.string "a"))).1 = table
    rw [wellFormed.indexed.intern_of_fresh fresh, loads.2.2]
    rfl
  exact added ▸ .call _ .refl (by simp [BuilderCall.ids])

private theorem union_absorbed : table.union [⟨14⟩, .string] = (table, .string) := by
  have form : table.unionForm [⟨14⟩, .string] = .known .string := by decide +kernel
  rw [Table.union_eq_enter, form]
  rfl

private theorem compares_program (type : TypeId) :
    (program type).Compares left right .undefined type := by
  constructor <;> simp [program, left, right, Expr.id, Expr.node]

private theorem comparison?_wide :
    (program .string).comparison? node .strictEqual left right = some .noOverlap := by
  rw [(compares_program .string).comparison?_eq]
  decide +kernel

end Absorbed

open Absorbed in
/-- `undefined` has no overlap with `string`, which takes `"a"` up, so the comparison with a value
of the type `"a"` is decided too, as one of literals. -/
theorem absorbed_literal_decided :
    Table.initial.Grows table ∧ table.union [⟨14⟩, .string] = (table, .string) ∧
      (program .string).Compares left right .undefined .string ∧
      (program ⟨14⟩).Compares left right .undefined ⟨14⟩ ∧
      (program .string).comparison? node .strictEqual left right = some .noOverlap ∧
      (program ⟨14⟩).comparison? node .strictEqual left right = some .literalComparison := by
  have decided := (comparisons_agree (program ⟨14⟩) node .strictEqual left right).2.2.2 table
    .undefined ⟨14⟩ [.string] grows_table .refl (compares_program ⟨14⟩) (by decide) (by decide)
    (by decide) (by decide) (program .string) left right
  rw [union_absorbed] at decided
  have either := decided .refl rfl (compares_program .string) comparison?_wide
  have literals : (program ⟨14⟩).comparison? node .strictEqual left right ≠ some .noOverlap := by
    rw [(compares_program ⟨14⟩).comparison?_eq]
    decide +kernel
  exact ⟨grows_table, union_absorbed, compares_program .string, compares_program ⟨14⟩,
    comparison?_wide, either.resolve_left literals⟩

end ConditionLint
