import ConditionLint.Proofs.Table.Regular
import ConditionLint.Types.Predicates

/-!
# Kinds and members in well-formed tables

A well-formed table is regular and starts with the well-known types. The members of its types are
never unions themselves, `never` is the only type of its kind and no member of a union, and only
type variables have a base constraint.
-/

set_option autoImplicit false

namespace ConditionLint

/-- The kinds of types that can be anything or are not known yet. -/
def Kind.undecidable : List Kind :=
  any :: unknown :: typeVariable

namespace Table

/-- A regular table that starts with the well-known types. -/
structure WellFormed (t : Table) : Prop extends t.Regular where
  starts : wellKnown <+: t.entries.toList

/-- Every accepted list gives a well-formed table. -/
theorem wellFormed_of_ofDescriptors? {ds : List Descriptor} {t : Table}
    (accepted : ofDescriptors? ds = .ok t) : t.WellFormed := by
  obtain ⟨starts, follow, rfl⟩ := ofDescriptors?_eq_ok_iff.mp accepted
  refine ⟨follow.regular regular_empty, ?_⟩
  rw [ofList, entries_foldl_push]
  simpa [empty] using starts

instance (t : Table) (d : Descriptor) : Decidable (t.Follows d) :=
  decidable_of_iff
    ((∀ target ∈ d.references, target.index < t.size) ∧
      (∀ combined ∈ composite? d, t.irregularity? combined.1 combined.2 = none) ∧
      d ∉ t.entries.toList)
    ⟨fun ⟨references, members, fresh⟩ =>
      ⟨references, fun composite included combined => members (composite, included) combined,
        fresh⟩,
    fun follows => ⟨follows.references_lt,
      fun combined same => follows.members combined.1 combined.2 same, follows.fresh⟩⟩

instance decidableFollowAll (t : Table) : (ds : List Descriptor) → Decidable (t.FollowAll ds)
  | [] => .isTrue trivial
  | d :: rest =>
    have := decidableFollowAll (t.push d) rest
    inferInstanceAs (Decidable (t.Follows d ∧ (t.push d).FollowAll rest))

/-!
## Parts
-/

theorem unionParts_of_union {t : Table} {id : TypeId} {members : List TypeId}
    (found : t.get? id = some (.union members)) : t.unionParts id = members := by
  simp [unionParts, found]

theorem unionParts_of_not_union {t : Table} {id : TypeId}
    (single : ∀ members, t.get? id ≠ some (.union members)) : t.unionParts id = [id] := by
  unfold unionParts
  split
  · rename_i members found
    exact absurd found (single members)
  · rfl

theorem intersectionParts_of_intersection {t : Table} {id : TypeId} {members : List TypeId}
    (found : t.get? id = some (.intersection members)) : t.intersectionParts id = members := by
  simp [intersectionParts, found]

theorem intersectionParts_of_not_intersection {t : Table} {id : TypeId}
    (single : ∀ members, t.get? id ≠ some (.intersection members)) :
    t.intersectionParts id = [id] := by
  unfold intersectionParts
  split
  · rename_i members found
    exact absurd found (single members)
  · rfl

theorem union_or_single (t : Table) (id : TypeId) :
    (∃ members, t.get? id = some (.union members)) ∨
      ∀ members, t.get? id ≠ some (.union members) :=
  (Classical.em _).imp_right not_exists.mp

theorem intersection_or_single (t : Table) (id : TypeId) :
    (∃ members, t.get? id = some (.intersection members)) ∨
      ∀ members, t.get? id ≠ some (.intersection members) :=
  (Classical.em _).imp_right not_exists.mp

theorem mem_unionParts_of_single {t : Table} {id part : TypeId}
    (single : ∀ members, t.get? id ≠ some (.union members)) :
    part ∈ t.unionParts id ↔ part = id := by
  rw [unionParts_of_not_union single, List.mem_singleton]

theorem mem_intersectionParts_of_single {t : Table} {id part : TypeId}
    (single : ∀ members, t.get? id ≠ some (.intersection members)) :
    part ∈ t.intersectionParts id ↔ part = id := by
  rw [intersectionParts_of_not_intersection single, List.mem_singleton]

theorem kind?_of_get? {t : Table} {id : TypeId} {d : Descriptor} (found : t.get? id = some d) :
    t.kind? id = some d.kind := by
  simp [kind?, found]

theorem kindIn_of_get? {t : Table} {id : TypeId} {d : Descriptor} (found : t.get? id = some d)
    (set : List Kind) : t.kindIn id set = decide (d.kind ∈ set) := by
  simp [kindIn, kind?_of_get? found]

theorem kindIn_iff {t : Table} {id : TypeId} {set : List Kind} :
    t.kindIn id set = true ↔ ∃ kind ∈ set, t.kind? id = some kind := by
  cases kind : t.kind? id <;> simp [kindIn, kind]

theorem kindIn_eq_false_of_subset {t : Table} {id : TypeId} {set larger : List Kind}
    (subset : set ⊆ larger) (lacks : t.kindIn id larger = false) : t.kindIn id set = false := by
  rw [Bool.eq_false_iff, ne_eq, kindIn_iff] at lacks ⊢
  exact fun ⟨kind, member, found⟩ => lacks ⟨kind, subset member, found⟩

theorem hasKind_iff {t : Table} {id : TypeId} {set : List Kind} :
    t.hasKind id set = true ↔ ∃ part ∈ t.unionParts id, t.kindIn part set = true := by
  simp only [hasKind, kinds, List.any_eq_true, List.mem_filterMap, kindIn_iff, decide_eq_true_eq]
  constructor
  · rintro ⟨kind, ⟨part, included, found⟩, member⟩
    exact ⟨part, included, kind, member, found⟩
  · rintro ⟨part, included, kind, member, found⟩
    exact ⟨kind, ⟨part, included, found⟩, member⟩

theorem hasKind_append (t : Table) (id : TypeId) (first second : List Kind) :
    t.hasKind id (first ++ second) = (t.hasKind id first || t.hasKind id second) := by
  rw [Bool.eq_iff_iff]
  simp only [hasKind, List.mem_append, Bool.decide_or, List.any_eq_true, Bool.or_eq_true,
    and_or_left, exists_or]

theorem hasKind_of_not_union {t : Table} {id : TypeId}
    (single : ∀ members, t.get? id ≠ some (.union members)) (set : List Kind) :
    t.hasKind id set = t.kindIn id set := by
  rw [Bool.eq_iff_iff, hasKind_iff, unionParts_of_not_union single]
  simp

theorem kindIn_of_hasKind_eq_false {t : Table} {id part : TypeId} {set : List Kind}
    (lacks : t.hasKind id set = false) (included : part ∈ t.unionParts id) :
    t.kindIn part set = false := by
  rw [Bool.eq_false_iff] at lacks ⊢
  exact fun kind => lacks (hasKind_iff.mpr ⟨part, included, kind⟩)

/-!
## Constraints
-/

/-- The base constraint of an entry is read off its descriptor, with one level of answers less. -/
theorem baseConstraint?_eq (t : Table) (id : TypeId) :
    t.baseConstraint? id =
      t.baseConstraintStep id (t.get? id) (t.descend t.baseConstraintStep none t.size) := rfl

theorem kindIn_of_baseConstraint? {t : Table} {id constraint : TypeId}
    (found : t.baseConstraint? id = some constraint) :
    t.kindIn id Kind.typeVariable = true := by
  rw [baseConstraint?_eq] at found
  cases entry : t.get? id with
  | none => simp [entry, baseConstraintStep] at found
  | some d =>
      cases d with
      | typeParameter | indexedAccess =>
          simp [kindIn, kind?, entry, Descriptor.kind, Kind.typeVariable]
      | _ => simp [entry, baseConstraintStep] at found

theorem constrained_of_not_variable {t : Table} {id : TypeId}
    (fixed : t.kindIn id Kind.typeVariable = false) : t.constrained id = id := by
  unfold constrained
  cases found : t.baseConstraint? id with
  | none => rfl
  | some constraint =>
      rw [kindIn_of_baseConstraint? found] at fixed
      cases fixed

theorem constrained_of_baseConstraint? {t : Table} {id constraint : TypeId}
    (found : t.baseConstraint? id = some constraint) : t.constrained id = constraint := by
  simp [constrained, found]

theorem mem_constrainedIntersectionParts_iff {t : Table} {id part : TypeId}
    {members : List TypeId} (entry : t.get? id = some (.intersection members)) :
    part ∈ t.constrainedIntersectionParts id ↔ ∃ member ∈ members, t.constrained member = part := by
  rw [constrainedIntersectionParts, intersectionParts_of_intersection entry, List.mem_map]

/-!
## Predicates
-/

theorem isNever_eq_false_iff {t : Table} {id : TypeId} :
    t.isNever id = false ↔ ∀ part ∈ t.unionParts id, t.kindIn part [.never] = false := by
  rw [isNever, Bool.eq_false_iff, ne_eq, hasKind_iff]
  simp

theorem isPossiblyTruthy_iff {t : Table} {id : TypeId} :
    t.isPossiblyTruthy id = true ↔
      ∃ part ∈ t.constrainedUnionParts id,
        ∀ constituent ∈ t.constrainedIntersectionParts part, t.isFalsy constituent = false := by
  simp [isPossiblyTruthy]

/-- No value is truthy: every member has a constituent that is falsy. -/
theorem isPossiblyTruthy_eq_false_iff {t : Table} {id : TypeId} :
    t.isPossiblyTruthy id = false ↔
      ∀ part ∈ t.constrainedUnionParts id,
        ∃ constituent ∈ t.constrainedIntersectionParts part, t.isFalsy constituent = true := by
  simp [isPossiblyTruthy]

/-- No value is falsy: every constituent of every member is a truthy literal or has no falsy
kind. -/
theorem isPossiblyFalsy_eq_false_iff {t : Table} {id : TypeId} :
    t.isPossiblyFalsy id = false ↔
      ∀ part ∈ t.constrainedUnionParts id,
        ∀ constituent ∈ t.constrainedIntersectionParts part,
          t.isTruthyLiteral constituent = true ∨
            t.hasKind constituent Kind.possiblyFalsy = false := by
  simp [isPossiblyFalsy, Decidable.or_iff_not_imp_left]

theorem isIndeterminate_eq_false_iff {t : Table} {id : TypeId} :
    t.isIndeterminate id = false ↔
      ∀ part ∈ t.constrainedUnionParts id, t.kindIn part Kind.undecidable = false := by
  simp [isIndeterminate, Kind.undecidable]

/-!
## Well-formed tables
-/

theorem Regular.get?_injective {t : Table} (regular : t.Regular) {first second : TypeId}
    {d : Descriptor} (atFirst : t.get? first = some d) (atSecond : t.get? second = some d) :
    first = second := by
  rw [← regular.ids] at atFirst atSecond
  exact Option.some.inj (atFirst.symm.trans atSecond)

theorem Regular.get?_ne_union_of_mem_unionParts {t : Table} (regular : t.Regular)
    {id part : TypeId} (included : part ∈ t.unionParts id) (members : List TypeId) :
    t.get? part ≠ some (.union members) := by
  intro nested
  cases entry : t.get? id with
  | none => simp_all [unionParts]
  | some d =>
      cases d with
      | union parts =>
          rw [unionParts_of_union entry] at included
          have flat := regular.members entry rfl
          have fine := (irregularity?_eq_none_iff.mp flat).2 part included
          simp [memberIrregularity?, nested] at fine
      | _ => simp_all [unionParts]

theorem Regular.get?_ne_union_of_mem_constrainedUnionParts {t : Table} (regular : t.Regular)
    {id part : TypeId} (included : part ∈ t.constrainedUnionParts id) (members : List TypeId) :
    t.get? part ≠ some (.union members) := by
  obtain ⟨member, _, belongs⟩ := List.mem_flatMap.mp included
  exact regular.get?_ne_union_of_mem_unionParts belongs members

theorem WellFormed.get?_wellKnown {t : Table} (wellFormed : t.WellFormed) {index : Nat}
    {d : Descriptor} (known : wellKnown[index]? = some d) : t.get? ⟨index⟩ = some d := by
  obtain ⟨rest, entries⟩ := wellFormed.starts
  have bound : index < wellKnown.length := (List.getElem?_eq_some_iff.mp known).1
  rw [get?, ← Array.getElem?_toList, ← entries, List.getElem?_append_left bound]
  exact known

theorem WellFormed.not_union_wellKnown {t : Table} (wellFormed : t.WellFormed) (id : TypeId)
    {d : Descriptor} (known : wellKnown[id.index]? = some d)
    (single : ∀ parts, d ≠ .union parts) (parts : List TypeId) :
    t.get? id ≠ some (.union parts) := by
  rw [wellFormed.get?_wellKnown known]
  intro entry
  exact single parts (Option.some.inj entry)

theorem WellFormed.kindIn_wellKnown {t : Table} (wellFormed : t.WellFormed) (id : TypeId)
    {d : Descriptor} (known : wellKnown[id.index]? = some d) (set : List Kind) :
    t.kindIn id set = decide (d.kind ∈ set) :=
  kindIn_of_get? (wellFormed.get?_wellKnown known) set

theorem WellFormed.hasKind_wellKnown {t : Table} (wellFormed : t.WellFormed) (id : TypeId)
    {d : Descriptor} (known : wellKnown[id.index]? = some d)
    (single : ∀ parts, d ≠ .union parts) (set : List Kind) :
    t.hasKind id set = decide (d.kind ∈ set) :=
  (hasKind_of_not_union (wellFormed.not_union_wellKnown id known single) set).trans
    (wellFormed.kindIn_wellKnown id known set)

end Table

end ConditionLint
