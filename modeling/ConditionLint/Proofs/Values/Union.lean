import ConditionLint.Proofs.Table.Joined
import ConditionLint.Proofs.Values.Constituents

/-!
# What a union can be

A union can be truthy, falsy, nullish or anything exactly if one of the joined types can. What
normalization drops changes nothing: a literal that is taken up passes no test that its primitive
fails.
-/

set_option autoImplicit false

namespace ConditionLint.Table

variable {t : Table} {id r s : TypeId} {xs ms more : List TypeId} {test : TypeId → Bool}

/-- Some member passes the test, once the members are resolved. -/
def anyPart (t : Table) (test : TypeId → Bool) (id : TypeId) : Bool :=
  (t.constrainedUnionParts id).any test

private theorem anyPart_iff : t.anyPart test id = true ↔
    ∃ part ∈ t.unionParts id, (t.unionParts (t.constrained part)).any test = true := by
  simp [anyPart, constrainedUnionParts]

/-!
## Tests that a literal does not pass without its primitive
-/

/-- If a literal passes the test, its primitive does. -/
def Widens (t : Table) (test : TypeId → Bool) : Prop :=
  ∀ id value primitive, t.get? id = some (.literal value) → value.primitive? = some primitive →
    test id = true → test primitive = true

theorem constrained_of_literal {value : LiteralValue} (entry : t.get? id = some (.literal value)) :
    t.constrained id = id := by
  apply constrained_of_not_variable
  rw [kindIn_of_get? entry]
  cases value <;> rfl

section Primitive

variable {value : LiteralValue} {primitive : TypeId}

theorem WellFormed.constrained_primitive (wellFormed : t.WellFormed)
    (widens : value.primitive? = some primitive) : t.constrained primitive = primitive := by
  obtain ⟨keyword, _, entry⟩ := wellFormed.get?_primitive widens
  apply constrained_of_not_variable
  rw [kindIn_of_get? entry]
  cases keyword <;> rfl

theorem WellFormed.constrainedIntersectionParts_primitive (wellFormed : t.WellFormed)
    (widens : value.primitive? = some primitive) :
    t.constrainedIntersectionParts primitive = [primitive] := by
  obtain ⟨keyword, _, entry⟩ := wellFormed.get?_primitive widens
  rw [constrainedIntersectionParts, intersectionParts_of_not_intersection (by simp [entry]),
    List.map_singleton, wellFormed.constrained_primitive widens]

theorem WellFormed.widens_truthy (wellFormed : t.WellFormed) :
    t.Widens fun part => (t.constrainedIntersectionParts part).all (!t.isFalsy ·) := by
  intro _ _ primitive _ widens _
  obtain ⟨keyword, kind, entry⟩ := wellFormed.get?_primitive widens
  have solid : t.isFalsy primitive = false := by
    rw [isFalsy, kindIn_of_get? entry, literal?, entry]
    revert kind
    cases keyword <;> decide
  simp [wellFormed.constrainedIntersectionParts_primitive widens, solid]

theorem WellFormed.widens_falsy (wellFormed : t.WellFormed) :
    t.Widens fun part => (t.constrainedIntersectionParts part).any fun constituent =>
      !t.isTruthyLiteral constituent && t.hasKind constituent Kind.possiblyFalsy := by
  intro _ _ primitive _ widens _
  obtain ⟨keyword, kind, entry⟩ := wellFormed.get?_primitive widens
  have falsy : t.hasKind primitive Kind.possiblyFalsy = true := by
    rw [hasKind_of_not_union (by simp [entry]), kindIn_of_get? entry]
    revert kind
    cases keyword <;> decide
  have noLiteral : t.isTruthyLiteral primitive = false := by
    simp [isTruthyLiteral, literal?, entry]
  simp [wellFormed.constrainedIntersectionParts_primitive widens, falsy, noLiteral]

theorem WellFormed.widens_present (wellFormed : t.WellFormed) :
    t.Widens fun part => !t.isNullish part := by
  intro _ _ primitive _ widens _
  obtain ⟨keyword, kind, entry⟩ := wellFormed.get?_primitive widens
  have present : t.isNullish primitive = false := by
    rw [isNullish, kindIn_of_get? entry]
    revert kind
    cases keyword <;> decide
  simp [present]

end Primitive

/-- A test of kinds that no literal has. -/
theorem widens_of_kinds {set : List Kind}
    (noLiteral : ∀ value : LiteralValue, value.kind ∉ set) : t.Widens (t.kindIn · set) := by
  intro id value _ entry _ holds
  have kind : t.kindIn id set = true := holds
  rw [kindIn_of_get? entry] at kind
  exact absurd (of_decide_eq_true kind) (noLiteral value)

/-- The same for what a member is resolved to. -/
theorem Widens.resolved (wellFormed : t.WellFormed) (widens : t.Widens test) :
    t.Widens fun part => (t.unionParts (t.constrained part)).any test := by
  intro id value primitive entry widened holds
  obtain ⟨keyword, _, primitiveEntry⟩ := wellFormed.get?_primitive widened
  have literal : t.unionParts (t.constrained id) = [id] := by
    rw [constrained_of_literal entry, unionParts_of_not_union (by simp [entry])]
  have whole : t.unionParts (t.constrained primitive) = [primitive] := by
    rw [wellFormed.constrained_primitive widened,
      unionParts_of_not_union (by simp [primitiveEntry])]
  simp only [literal, whole, List.any_cons, List.any_nil, Bool.or_false] at holds ⊢
  exact widens id value primitive entry widened holds

/-!
## Kept members
-/

theorem WellFormed.exists_mem_keptParts (wellFormed : t.WellFormed) (widens : t.Widens test) :
    (∃ part ∈ t.keptParts xs, test part = true) ↔
      ∃ part ∈ xs.flatMap t.unionParts, part ≠ .never ∧ test part = true := by
  constructor
  · intro ⟨part, kept, holds⟩
    obtain ⟨included, other, _⟩ := mem_keptParts.mp kept
    exact ⟨part, included, other, holds⟩
  · intro ⟨part, included, other, holds⟩
    cases absorbed : t.isAbsorbed (xs.flatMap t.unionParts) part with
    | false => exact ⟨part, mem_keptParts.mpr ⟨included, other, absorbed⟩, holds⟩
    | true =>
        obtain ⟨value, primitive, entry, widened, beside⟩ := isAbsorbed_iff.mp absorbed
        exact ⟨primitive, (wellFormed.primitive_mem_keptParts widened).mpr beside,
          widens part value primitive entry widened holds⟩

theorem Regular.ne_never_of_mem_unionParts (regular : t.Regular) (other : id ≠ .never)
    {part : TypeId} (included : part ∈ t.unionParts id) : part ≠ .never := by
  rcases union_or_single t id with ⟨members, entry⟩ | single
  · rw [unionParts_of_union entry] at included
    have fine := (irregularity?_eq_none_iff.mp (regular.members entry rfl)).2 part included
    rintro rfl
    unfold memberIrregularity? at fine
    split at fine <;> simp_all
  · rwa [(mem_unionParts_of_single single).mp included]

/-- What takes a union over is not among the joined members of any other union. -/
theorem not_mem_flatMap_of_ne (joined : t.union ms = (t, r)) (notAny : r ≠ .any)
    (notUnknown : r ≠ .unknown) :
    .any ∉ ms.flatMap t.unionParts ∧ .unknown ∉ ms.flatMap t.unionParts := by
  have noAny : .any ∉ ms.flatMap t.unionParts := by
    intro taken
    rw [union_of_any_mem taken] at joined
    exact notAny (congrArg Prod.snd joined).symm
  refine ⟨noAny, ?_⟩
  intro taken
  rw [union_of_unknown_mem noAny taken] at joined
  exact notUnknown (congrArg Prod.snd joined).symm

section Plain

variable (wellFormed : t.WellFormed) (inhabited : ∃ m ∈ ms, m ≠ .never)
  (plain : .any ∉ ms.flatMap t.unionParts ∧ .unknown ∉ ms.flatMap t.unionParts)

include wellFormed inhabited

private theorem keptParts_ne_nil : t.keptParts ms ≠ [] := by
  obtain ⟨m, member, other⟩ := inhabited
  obtain ⟨first, belongs⟩ := wellFormed.exists_mem_unionParts m
  have always : t.Widens fun _ => true := fun _ _ _ _ _ _ => rfl
  obtain ⟨kept, included, _⟩ := (wellFormed.exists_mem_keptParts always).mpr
    ⟨first, List.mem_flatMap.mpr ⟨m, member, belongs⟩,
      wellFormed.ne_never_of_mem_unionParts other belongs, rfl⟩
  exact List.ne_nil_of_mem included

include plain

theorem mem_unionParts_iff_mem_keptParts (joined : t.union ms = (t, r)) (part : TypeId) :
    part ∈ t.unionParts r ↔ part ∈ t.keptParts ms :=
  wellFormed.unionParts_union joined plain.1 plain.2 (keptParts_ne_nil wellFormed inhabited)

theorem isNever_union (joined : t.union ms = (t, r)) : t.isNever r = false := by
  rw [Bool.eq_false_iff]
  intro never
  have parts := mem_unionParts_iff_mem_keptParts wellFormed inhabited plain joined .never
  rw [wellFormed.eq_never_of_isNever never,
    wellFormed.unionParts_of_mem_collapsed (by decide)] at parts
  exact (mem_keptParts.mp (parts.mp List.mem_cons_self)).2.1 rfl

private theorem eq_of_keptParts (joined : t.union ms = (t, r))
    (only : ∀ part ∈ t.keptParts ms, part = s) :
    r = s := by
  have same : ∀ part, part ∈ t.keptParts ms ↔ part ∈ [s] := by
    intro part
    refine ⟨fun kept => List.mem_singleton.mpr (only part kept), fun included => ?_⟩
    obtain ⟨first, kept⟩ :=
      List.exists_mem_of_ne_nil _ (keptParts_ne_nil wellFormed inhabited)
    rwa [List.mem_singleton.mp included, ← only first kept]
  have single : t.unionForm ms = .known s := by
    rw [unionForm, if_neg plain.1, if_neg plain.2, joinedOf, ascending_congr same]
    rfl
  rw [union_eq_enter, single] at joined
  exact (congrArg Prod.snd joined).symm

end Plain

/-- A union passes a test of resolved members exactly if one of the joined types does. -/
theorem WellFormed.anyPart_union (wellFormed : t.WellFormed) (joined : t.union ms = (t, r))
    (notEmpty : ms ≠ []) (noNever : .never ∉ ms) (notAny : r ≠ .any) (notUnknown : r ≠ .unknown)
    (widens : t.Widens test) : t.anyPart test r = true ↔ ∃ m ∈ ms, t.anyPart test m = true := by
  have other : ∀ m ∈ ms, m ≠ .never := fun m member same => noNever (same ▸ member)
  obtain ⟨first, member⟩ := List.exists_mem_of_ne_nil ms notEmpty
  have parts := mem_unionParts_iff_mem_keptParts wellFormed ⟨first, member, other first member⟩
    (not_mem_flatMap_of_ne joined notAny notUnknown) joined
  simp only [anyPart_iff, parts, wellFormed.exists_mem_keptParts (widens.resolved wellFormed)]
  constructor
  · intro ⟨part, included, _, holds⟩
    obtain ⟨m, member, belongs⟩ := List.mem_flatMap.mp included
    exact ⟨m, member, part, belongs, holds⟩
  · intro ⟨m, member, part, belongs, holds⟩
    exact ⟨part, List.mem_flatMap.mpr ⟨m, member, belongs⟩,
      wellFormed.ne_never_of_mem_unionParts (other m member) belongs, holds⟩

/-- What a type can be is what one of the others can be, and it is always nullish if all are. -/
structure Combines (t : Table) (id : TypeId) (members : List TypeId) : Prop where
  isPossiblyTruthy : t.isPossiblyTruthy id = true ↔ ∃ m ∈ members, t.isPossiblyTruthy m = true
  isPossiblyFalsy : t.isPossiblyFalsy id = true ↔ ∃ m ∈ members, t.isPossiblyFalsy m = true
  isPossiblyNullish : t.isPossiblyNullish id = true ↔ ∃ m ∈ members, t.isPossiblyNullish m = true
  isIndeterminate : t.isIndeterminate id = true ↔ ∃ m ∈ members, t.isIndeterminate m = true
  isAlwaysNullish : t.isAlwaysNullish id = true ↔ ∀ m ∈ members, t.isAlwaysNullish m = true

theorem isAlwaysNullish_eq (t : Table) (id : TypeId) :
    t.isAlwaysNullish id = !t.anyPart (fun part => !t.isNullish part) id := by
  rw [isAlwaysNullish, List.all_eq_not_any_not, anyPart]

theorem widens_nullish (t : Table) : t.Widens t.isNullish :=
  widens_of_kinds fun value => by cases value <;> simp [LiteralValue.kind, Kind.nullable]

theorem widens_undecidable (t : Table) :
    t.Widens (t.kindIn · (.any :: .unknown :: Kind.typeVariable)) :=
  widens_of_kinds fun value => by cases value <;> simp [LiteralValue.kind, Kind.typeVariable]

theorem WellFormed.combines_union (wellFormed : t.WellFormed) (joined : t.union ms = (t, r))
    (notEmpty : ms ≠ []) (noNever : .never ∉ ms) (notAny : r ≠ .any) (notUnknown : r ≠ .unknown) :
    t.Combines r ms := by
  have law : ∀ {test}, t.Widens test →
      (t.anyPart test r = true ↔ ∃ m ∈ ms, t.anyPart test m = true) :=
    wellFormed.anyPart_union joined notEmpty noNever notAny notUnknown
  refine ⟨law wellFormed.widens_truthy, law wellFormed.widens_falsy, law t.widens_nullish,
    law t.widens_undecidable, ?_⟩
  have present := law wellFormed.widens_present
  simp only [isAlwaysNullish_eq, Bool.not_eq_true', ← Bool.not_eq_true, present, not_exists,
    not_and]

/-!
## Wider unions
-/

private theorem inhabited_append (inhabited : ∃ m ∈ ms, m ≠ .never) :
    ∃ m ∈ ms ++ more, m ≠ .never := by
  obtain ⟨m, member, other⟩ := inhabited
  exact ⟨m, List.mem_append_left _ member, other⟩

private theorem plain_of_append
    (plain : .any ∉ (ms ++ more).flatMap t.unionParts ∧
      .unknown ∉ (ms ++ more).flatMap t.unionParts) :
    .any ∉ ms.flatMap t.unionParts ∧ .unknown ∉ ms.flatMap t.unionParts := by
  rw [List.flatMap_append] at plain
  exact ⟨mt (List.mem_append_left _) plain.1, mt (List.mem_append_left _) plain.2⟩

section Wider

variable (wellFormed : t.WellFormed) (inhabited : ∃ m ∈ ms, m ≠ .never)
  (plain : .any ∉ (ms ++ more).flatMap t.unionParts ∧ .unknown ∉ (ms ++ more).flatMap t.unionParts)
  (left : t.union ms = (t, r)) (right : t.union (ms ++ more) = (t, s))

include wellFormed inhabited plain left right

theorem exists_part_of_wider (widens : t.Widens test)
    (holds : ∃ part ∈ t.unionParts r, test part = true) :
    ∃ part ∈ t.unionParts s, test part = true := by
  have narrowParts := mem_unionParts_iff_mem_keptParts wellFormed inhabited
    (plain_of_append plain) left
  have wideParts := mem_unionParts_iff_mem_keptParts wellFormed (inhabited_append inhabited) plain
    right
  simp only [narrowParts, wideParts, wellFormed.exists_mem_keptParts widens] at holds ⊢
  obtain ⟨part, included, rest⟩ := holds
  refine ⟨part, ?_, rest⟩
  rw [List.flatMap_append]
  exact List.mem_append_left _ included

omit inhabited plain left right in
/-- Being another type than one that takes up no literal is kept when a literal is taken up. -/
private theorem widens_ne {set : List Kind} (kind : t.kindIn s set = true)
    (noPrimitive : ∀ kind ∈ set, kind ∉ [.string, .number, .bigint]) :
    t.Widens fun part => decide (part ≠ s) := by
  intro _ _ primitive _ widened _
  obtain ⟨keyword, known, entry⟩ := wellFormed.get?_primitive widened
  apply decide_eq_true
  rintro rfl
  obtain ⟨found, member, kind⟩ := kindIn_iff.mp kind
  rw [kind?_of_get? entry] at kind
  cases Option.some.inj kind
  have excluded := noPrimitive _ member
  revert known excluded
  cases keyword <;> decide

/-- A wider union that is neither a union nor a type that takes up literals is no wider: nothing
else is joined. -/
theorem eq_of_wider_of_kindIn {set : List Kind} (kind : t.kindIn s set = true)
    (noPrimitive : ∀ kind ∈ set, kind ∉ [.string, .number, .bigint]) (noUnion : .union ∉ set) :
    r = s := by
  have narrow := plain_of_append plain
  have parts := mem_unionParts_iff_mem_keptParts wellFormed inhabited narrow left
  refine eq_of_keptParts wellFormed inhabited narrow left ?_
  intro part kept
  by_contra other
  have single : ∀ members, t.get? s ≠ some (.union members) := by
    intro members entry
    rw [kindIn_of_get? entry] at kind
    exact noUnion (of_decide_eq_true kind)
  obtain ⟨wider, included, differs⟩ := exists_part_of_wider wellFormed inhabited plain left right
    (widens_ne wellFormed kind noPrimitive) ⟨part, (parts part).mpr kept, decide_eq_true other⟩
  exact of_decide_eq_true differs ((mem_unionParts_of_single single).mp included)

theorem eq_of_wider_variable (generic : t.kindIn s Kind.typeVariable = true) : r = s :=
  eq_of_wider_of_kindIn wellFormed inhabited plain left right generic (by decide) (by decide)

/-- What the narrower union can be, once it is resolved, the wider one can be, or it can be
anything. -/
theorem anyPart_of_wider (widens : t.Widens test)
    (holds : t.anyPart test (t.constrained r) = true) :
    t.isIndeterminate s = true ∨ t.anyPart test s = true := by
  cases generic : t.kindIn r Kind.typeVariable with
  | false =>
      rw [constrained_of_not_variable generic] at holds
      right
      rw [anyPart_iff] at holds ⊢
      exact exists_part_of_wider wellFormed inhabited plain left right (widens.resolved wellFormed)
        holds
  | true =>
      have single : ∀ members, t.get? r ≠ some (.union members) := by
        intro members entry
        simp [kindIn_of_get? entry, Descriptor.kind, Kind.typeVariable] at generic
      -- no literal is a type variable, so nothing takes this member up
      have own : t.Widens fun part => decide (part = r) := by
        intro id value _ entry _ same
        rw [← of_decide_eq_true same, kindIn_of_get? entry] at generic
        cases value <;> cases generic
      obtain ⟨part, included, same⟩ := exists_part_of_wider wellFormed inhabited plain left right
        own ⟨r, (mem_unionParts_of_single single).mpr rfl, decide_eq_true rfl⟩
      rw [of_decide_eq_true same] at included
      by_cases nested : ∃ inner ∈ t.unionParts (t.constrained r),
          t.kindIn inner Kind.typeVariable = true
      · obtain ⟨inner, belongs, kind⟩ := nested
        obtain ⟨variableKind, known, found⟩ := kindIn_iff.mp kind
        have undecidable : t.kindIn inner (.any :: .unknown :: Kind.typeVariable) = true :=
          kindIn_iff.mpr ⟨variableKind, by simp [known], found⟩
        exact .inl
          (anyPart_iff.mpr ⟨r, included, List.any_eq_true.mpr ⟨inner, belongs, undecidable⟩⟩)
      · obtain ⟨inner, belongs, passes⟩ := List.any_eq_true.mp holds
        have fixed : ∀ inner ∈ t.unionParts (t.constrained r),
            t.kindIn inner Kind.typeVariable = false := by
          intro inner belongs
          exact Bool.eq_false_iff.mpr fun kind => nested ⟨inner, belongs, kind⟩
        have direct := (wellFormed.mem_constrainedUnionParts fixed).mp belongs
        exact .inr (anyPart_iff.mpr ⟨r, included, List.any_eq_true.mpr ⟨inner, direct, passes⟩⟩)

end Wider

/-- A wider union can be anything, is the narrower one, or passes every test that the narrower one
passes once it is resolved, unless it is left undecided. -/
theorem WellFormed.wider_cases (wellFormed : t.WellFormed) (inhabited : ∃ m ∈ ms, m ≠ .never)
    (left : t.union ms = (t, r)) (right : t.union (ms ++ more) = (t, s)) :
    t.IsOpen s ∨ r = s ∨
      (t.constrained s = s ∧ t.isNever s = false ∧
        ∀ {test}, t.Widens test → t.anyPart test (t.constrained r) = true →
          t.isIndeterminate s = true ∨ t.anyPart test s = true) := by
  by_cases any : s = .any
  · exact .inl (any ▸ wellFormed.isOpen_any)
  by_cases unknown : s = .unknown
  · exact .inl (unknown ▸ wellFormed.isOpen_unknown)
  have plain := not_mem_flatMap_of_ne right any unknown
  cases generic : t.kindIn s Kind.typeVariable with
  | true => exact .inr (.inl (eq_of_wider_variable wellFormed inhabited plain left right generic))
  | false =>
      exact .inr (.inr ⟨constrained_of_not_variable generic,
        isNever_union wellFormed (inhabited_append inhabited) plain right,
        anyPart_of_wider wellFormed inhabited plain left right⟩)

theorem conditionVerdict?_eq_none_iff :
    t.conditionVerdict? id = none ↔
      t.isIndeterminate (t.constrained id) = true ∨
        t.isNever (t.constrained id) = false ∧ t.isPossiblyTruthy (t.constrained id) = true ∧
          t.isPossiblyFalsy (t.constrained id) = true := by
  unfold conditionVerdict? truthVerdict?
  cases t.isIndeterminate (t.constrained id) <;> cases t.isNever (t.constrained id) <;>
    cases t.isPossiblyTruthy (t.constrained id) <;> cases t.isPossiblyFalsy (t.constrained id) <;>
      simp

theorem WellFormed.conditionVerdict?_wider (wellFormed : t.WellFormed)
    (inhabited : ∃ m ∈ ms, m ≠ .never) (left : t.union ms = (t, r))
    (right : t.union (ms ++ more) = (t, s)) (undecided : t.conditionVerdict? r = none) :
    t.conditionVerdict? s = none := by
  rcases wellFormed.wider_cases inhabited left right with isOpen | rfl | ⟨resolved, never, wider⟩
  · exact conditionVerdict?_of_isOpen wellFormed.toRegular isOpen
  · exact undecided
  · rw [conditionVerdict?_eq_none_iff] at undecided ⊢
    rw [resolved]
    rcases undecided with undecidable | ⟨_, truthy, falsy⟩
    · exact .inl (or_self_iff.mp (wider t.widens_undecidable undecidable))
    · rcases wider wellFormed.widens_truthy truthy with undecidable | truthy
      · exact .inl undecidable
      · rcases wider wellFormed.widens_falsy falsy with undecidable | falsy
        · exact .inl undecidable
        · exact .inr ⟨never, truthy, falsy⟩

end ConditionLint.Table
