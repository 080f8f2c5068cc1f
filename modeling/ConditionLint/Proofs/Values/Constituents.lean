import ConditionLint.Proofs.Table.Intersection
import ConditionLint.Proofs.Table.Resolution
import ConditionLint.Proofs.Values.Truthiness

/-!
# Verdicts on intersections

A condition whose type is an intersection is judged by what the constituents resolve to. It is
always falsy if one of them is falsy, and always truthy if each of them is a truthy literal or has
no member of a falsy kind. An intersection or a type variable that a constituent resolves to is not
looked into: it has no falsy kind.
-/

set_option autoImplicit false

namespace ConditionLint.Table

variable {t : Table} {id r : TypeId} {members : List TypeId}

/-- The type keeps an intersection from being possibly falsy, if all other constituents do. -/
def Solid (t : Table) (id : TypeId) : Prop :=
  t.isTruthyLiteral id = true ∨ t.hasKind id Kind.possiblyFalsy = false

instance (t : Table) (id : TypeId) : Decidable (t.Solid id) :=
  inferInstanceAs (Decidable (_ ∨ _))

def conditionVerdict? (t : Table) (type : TypeId) : Option Verdict :=
  if t.isIndeterminate (t.constrained type) then none
  else t.truthVerdict? (t.constrained type)

theorem conditionVerdict?_congr {other : TypeId} (same : t.constrained id = t.constrained other) :
    t.conditionVerdict? id = t.conditionVerdict? other := by
  rw [conditionVerdict?, conditionVerdict?, same]

theorem conditionVerdict?_eq_never_iff :
    t.conditionVerdict? id = some .never ↔
      t.isIndeterminate (t.constrained id) = false ∧ t.isNever (t.constrained id) = true := by
  unfold conditionVerdict? truthVerdict?
  cases t.isIndeterminate (t.constrained id) <;> cases t.isNever (t.constrained id) <;>
    cases t.isPossiblyTruthy (t.constrained id) <;> cases t.isPossiblyFalsy (t.constrained id) <;>
      simp

theorem conditionVerdict?_eq_alwaysFalsy_iff :
    t.conditionVerdict? id = some .alwaysFalsy ↔
      t.isIndeterminate (t.constrained id) = false ∧ t.isNever (t.constrained id) = false ∧
        t.isPossiblyTruthy (t.constrained id) = false := by
  unfold conditionVerdict? truthVerdict?
  cases t.isIndeterminate (t.constrained id) <;> cases t.isNever (t.constrained id) <;>
    cases t.isPossiblyTruthy (t.constrained id) <;> cases t.isPossiblyFalsy (t.constrained id) <;>
      simp

theorem conditionVerdict?_eq_alwaysTruthy_iff :
    t.conditionVerdict? id = some .alwaysTruthy ↔
      t.isIndeterminate (t.constrained id) = false ∧ t.isNever (t.constrained id) = false ∧
        t.isPossiblyTruthy (t.constrained id) = true ∧
          t.isPossiblyFalsy (t.constrained id) = false := by
  unfold conditionVerdict? truthVerdict?
  cases t.isIndeterminate (t.constrained id) <;> cases t.isNever (t.constrained id) <;>
    cases t.isPossiblyTruthy (t.constrained id) <;> cases t.isPossiblyFalsy (t.constrained id) <;>
      simp

/-!
## Falsy types
-/

private theorem get?_of_isFalsy (falsy : t.isFalsy id = true) :
    ∃ d, t.get? id = some d ∧ d.kind ∈ Kind.possiblyFalsy ∧
      ∀ value, d = .literal value → value.isTruthy = false := by
  cases entry : t.get? id with
  | none => simp [isFalsy, kindIn, kind?, literal?, entry] at falsy
  | some d =>
      simp only [isFalsy, kindIn_of_get? entry, literal?, entry, Bool.or_eq_true,
        decide_eq_true_eq] at falsy
      refine ⟨d, rfl, ?_⟩
      cases d with
      | intrinsic keyword =>
          cases keyword <;> simp_all [Descriptor.kind, Intrinsic.kind, Kind.possiblyFalsy]
      | literal value =>
          cases value <;> simp_all [Descriptor.kind, LiteralValue.kind, Kind.possiblyFalsy]
      | _ => simp [Descriptor.kind] at falsy

private theorem kindIn_of_isFalsy (falsy : t.isFalsy id = true) {set : List Kind}
    (noFalsy : ∀ kind ∈ Kind.possiblyFalsy, kind ∉ set) : t.kindIn id set = false := by
  obtain ⟨d, entry, kind, _⟩ := get?_of_isFalsy falsy
  rw [kindIn_of_get? entry]
  exact decide_eq_false (noFalsy _ kind)

private theorem not_union_of_isFalsy (falsy : t.isFalsy id = true) (members : List TypeId) :
    t.get? id ≠ some (.union members) := by
  intro entry
  have kind : t.kindIn id [.union] = false := kindIn_of_isFalsy falsy (by decide)
  simp [kindIn_of_get? entry, Descriptor.kind] at kind

theorem not_intersection_of_isFalsy (falsy : t.isFalsy id = true) (members : List TypeId) :
    t.get? id ≠ some (.intersection members) := by
  intro entry
  have kind : t.kindIn id [.intersection] = false := kindIn_of_isFalsy falsy (by decide)
  simp [kindIn_of_get? entry, Descriptor.kind] at kind

theorem Solid.isFalsy_eq_false (solid : t.Solid id) : t.isFalsy id = false := by
  rw [Bool.eq_false_iff]
  intro falsy
  obtain ⟨d, entry, kind, literal⟩ := get?_of_isFalsy falsy
  rcases solid with truthy | noFalsy
  · unfold isTruthyLiteral literal? at truthy
    rw [entry] at truthy
    cases d with
    | literal value => simp [literal value rfl] at truthy
    | _ => simp at truthy
  · rw [hasKind_of_not_union (not_union_of_isFalsy falsy), kindIn_of_get? entry] at noFalsy
    exact of_decide_eq_false noFalsy kind

theorem Solid.of_get? {d : Descriptor} (entry : t.get? id = some d)
    (noUnion : ∀ members, d ≠ .union members) (solid : d.kind ∉ Kind.possiblyFalsy) :
    t.Solid id := by
  right
  rw [hasKind_of_not_union fun members union => noUnion members (by simp_all),
    kindIn_of_get? entry]
  exact decide_eq_false solid

/-!
## Types that can be anything or nothing
-/

theorem conditionVerdict?_of_isOpen (regular : t.Regular) (isOpen : t.IsOpen id) :
    t.conditionVerdict? id = none := by
  have undecidable : t.isIndeterminate id = true := ResolvesTo.self.isIndeterminate regular isOpen
  rw [conditionVerdict?, isOpen.constrained_eq, if_pos undecidable]

theorem IsOpen.solid (isOpen : t.IsOpen id) : t.Solid id := by
  cases isOpen with
  | any entry | unknown entry | parameter entry | access entry =>
      exact .of_get? entry (by simp)
        (by simp [Descriptor.kind, Intrinsic.kind, Kind.possiblyFalsy])

/-- A type that can be anything hides what it can be. -/
theorem IsOpen.not_settled (isOpen : t.IsOpen id) :
    t.hasKind (t.constrained id) hidingKinds ≠ false := by
  intro settled
  rw [isOpen.constrained_eq, hasKind_of_not_union isOpen.get?_ne_union] at settled
  have decidable := kindIn_eq_false_of_subset (List.subset_cons_self _ _) settled
  rw [isOpen.kindIn_undecidable] at decidable
  cases decidable

/-!
## One member
-/

theorem constrainedUnionParts_of_single (noUnion : ∀ members, t.get? id ≠ some (.union members))
    (fixed : t.kindIn id Kind.typeVariable = false) : t.constrainedUnionParts id = [id] := by
  rw [constrainedUnionParts, unionParts_of_not_union noUnion, List.flatMap_singleton,
    constrained_of_not_variable fixed, unionParts_of_not_union noUnion]

theorem WellFormed.conditionVerdict?_never (wellFormed : t.WellFormed) :
    t.conditionVerdict? .never = some .never := by
  have noUnion := wellFormed.not_union_wellKnown .never rfl (by simp)
  have fixed : t.kindIn .never Kind.typeVariable = false := wellFormed.kindIn_wellKnown .never rfl _
  rw [conditionVerdict?_eq_never_iff, constrained_of_not_variable fixed,
    isIndeterminate_eq_false_iff, constrainedUnionParts_of_single noUnion fixed, isNever,
    hasKind_of_not_union noUnion]
  refine ⟨fun part same => ?_, wellFormed.kindIn_wellKnown .never rfl _⟩
  cases List.mem_singleton.mp same
  exact wellFormed.kindIn_wellKnown .never rfl _

private theorem conditionVerdict?_of_isFalsy (falsy : t.isFalsy (t.constrained id) = true) :
    t.conditionVerdict? id = some .alwaysFalsy := by
  have noUnion := not_union_of_isFalsy falsy
  have decidable : t.kindIn (t.constrained id) Kind.undecidable = false :=
    kindIn_of_isFalsy falsy (by decide)
  have parts := constrainedUnionParts_of_single noUnion (kindIn_of_isFalsy falsy (by decide))
  rw [conditionVerdict?_eq_alwaysFalsy_iff]
  refine ⟨?_, ?_, ?_⟩
  · simpa [isIndeterminate_eq_false_iff, parts] using decidable
  · rw [isNever, hasKind_of_not_union noUnion]
    exact kindIn_of_isFalsy falsy (by decide)
  · rw [isPossiblyTruthy_eq_false_iff, parts]
    intro part included
    cases List.mem_singleton.mp included
    rw [constrainedIntersectionParts_of_single (not_intersection_of_isFalsy falsy) decidable]
    exact ⟨_, List.mem_singleton.mpr rfl, falsy⟩

theorem Regular.exists_mem_unionParts (regular : t.Regular) (id : TypeId) :
    ∃ part, part ∈ t.unionParts id := by
  rcases union_or_single t id with ⟨members, entry⟩ | single
  · have several := (irregularity?_eq_none_iff.mp (regular.members entry rfl)).1
    rw [unionParts_of_union entry]
    exact List.exists_mem_of_length_pos (by omega)
  · exact ⟨id, (mem_unionParts_of_single single).mpr rfl⟩

theorem Solid.of_mem_unionParts (solid : t.Solid id) {part : TypeId}
    (included : part ∈ t.unionParts id) (noUnion : ∀ members, t.get? part ≠ some (.union members)) :
    t.Solid part := by
  rcases solid with truthy | noFalsy
  · have single : ∀ members, t.get? id ≠ some (.union members) := by
      intro members entry
      simp [isTruthyLiteral, literal?, entry] at truthy
    rw [(mem_unionParts_of_single single).mp included]
    exact .inl truthy
  · right
    rw [hasKind_of_not_union noUnion]
    exact kindIn_of_hasKind_eq_false noFalsy included

/-- Where no member is a type variable, the members are judged as they are. -/
theorem Regular.mem_constrainedUnionParts (regular : t.Regular)
    (fixed : ∀ part ∈ t.unionParts id, t.kindIn part Kind.typeVariable = false) {part : TypeId} :
    part ∈ t.constrainedUnionParts id ↔ part ∈ t.unionParts id := by
  have own : ∀ member ∈ t.unionParts id, t.unionParts (t.constrained member) = [member] := by
    intro member included
    rw [constrained_of_not_variable (fixed member included)]
    exact unionParts_of_not_union (regular.get?_ne_union_of_mem_unionParts included)
  rw [constrainedUnionParts, List.mem_flatMap]
  constructor
  · rintro ⟨member, included, belongs⟩
    rw [own member included] at belongs
    rwa [List.mem_singleton.mp belongs]
  · intro included
    refine ⟨part, included, ?_⟩
    rw [own part included]
    exact List.mem_singleton.mpr rfl

/-- A type that resolves to a solid one is always truthy or never, if nothing is hidden in that. -/
theorem conditionVerdict?_of_solid (regular : t.Regular) (solid : t.Solid (t.constrained id))
    (settled : t.hasKind (t.constrained id) hidingKinds = false) :
    t.conditionVerdict? id = some .alwaysTruthy ∨ t.conditionVerdict? id = some .never := by
  rw [conditionVerdict?_eq_alwaysTruthy_iff, conditionVerdict?_eq_never_iff]
  generalize t.constrained id = resolved at solid settled ⊢
  have shown : ∀ part ∈ t.unionParts resolved, t.kindIn part hidingKinds = false :=
    fun part included => kindIn_of_hasKind_eq_false settled included
  have decidable : ∀ part ∈ t.unionParts resolved, t.kindIn part Kind.undecidable = false :=
    fun part included => kindIn_eq_false_of_subset (List.subset_cons_self _ _) (shown part included)
  have parts : ∀ part, part ∈ t.constrainedUnionParts resolved ↔ part ∈ t.unionParts resolved :=
    fun _ => regular.mem_constrainedUnionParts fun part included =>
      kindIn_eq_false_of_subset (by simp [Kind.undecidable]) (decidable part included)
  have alone : ∀ part ∈ t.unionParts resolved, t.constrainedIntersectionParts part = [part] := by
    intro part included
    refine constrainedIntersectionParts_of_single (fun members entry => ?_)
      (decidable part included)
    have kind := shown part included
    simp [kindIn_of_get? entry, Descriptor.kind, hidingKinds] at kind
  have solidParts : ∀ part ∈ t.unionParts resolved, t.Solid part := fun part included =>
    solid.of_mem_unionParts included (regular.get?_ne_union_of_mem_unionParts included)
  have determinate : t.isIndeterminate resolved = false := by
    rw [isIndeterminate_eq_false_iff]
    exact fun part included => decidable part ((parts part).mp included)
  have notFalsy : t.isPossiblyFalsy resolved = false := by
    rw [isPossiblyFalsy_eq_false_iff]
    intro part included
    rw [alone part ((parts part).mp included)]
    intro constituent same
    cases List.mem_singleton.mp same
    exact solidParts part ((parts part).mp included)
  have truthy : t.isPossiblyTruthy resolved = true := by
    obtain ⟨part, included⟩ := regular.exists_mem_unionParts resolved
    refine isPossiblyTruthy_iff.mpr ⟨part, (parts part).mpr included, ?_⟩
    rw [alone part included]
    simpa using (solidParts part included).isFalsy_eq_false
  cases t.isNever resolved <;> simp [determinate, notFalsy, truthy]

/-!
## Intersections
-/

section Intersection

variable (entry : t.get? id = some (.intersection members))

include entry

theorem constrained_of_intersection : t.constrained id = id :=
  constrained_of_not_variable (by simp [kindIn_of_get? entry, Descriptor.kind, Kind.typeVariable])

theorem solid_of_intersection : t.Solid id :=
  .of_get? entry (by simp) (by simp [Descriptor.kind, Kind.possiblyFalsy])

theorem constrainedUnionParts_of_intersection : t.constrainedUnionParts id = [id] :=
  constrainedUnionParts_of_single (by simp [entry])
    (by simp [kindIn_of_get? entry, Descriptor.kind, Kind.typeVariable])

theorem isIndeterminate_of_intersection : t.isIndeterminate id = false := by
  simp [isIndeterminate, constrainedUnionParts_of_intersection entry, kindIn_of_get? entry,
    Descriptor.kind, Kind.typeVariable]

theorem isNever_of_intersection : t.isNever id = false := by
  rw [isNever, hasKind_of_not_union (by simp [entry]), kindIn_of_get? entry]
  rfl

theorem conditionVerdict?_intersection_ne_never : t.conditionVerdict? id ≠ some .never := by
  rw [ne_eq, conditionVerdict?_eq_never_iff, constrained_of_intersection entry,
    isNever_of_intersection entry]
  simp

/-- An intersection is always falsy exactly if a constituent resolves to a falsy type. -/
theorem conditionVerdict?_intersection_eq_alwaysFalsy_iff :
    t.conditionVerdict? id = some .alwaysFalsy ↔
      ∃ part ∈ t.intersectionParts id, t.isFalsy (t.constrained part) = true := by
  rw [conditionVerdict?_eq_alwaysFalsy_iff, constrained_of_intersection entry,
    isPossiblyTruthy_eq_false_iff, constrainedUnionParts_of_intersection entry,
    isIndeterminate_of_intersection entry, isNever_of_intersection entry]
  have resolved : (∃ constituent ∈ t.constrainedIntersectionParts id,
      t.isFalsy constituent = true) ↔
        ∃ part ∈ t.intersectionParts id, t.isFalsy (t.constrained part) = true := by
    simp only [← List.any_eq_true, constrainedIntersectionParts, List.any_map, Function.comp_def]
  simpa using resolved

/-- An intersection is always truthy exactly if every constituent resolves to a solid type. -/
theorem conditionVerdict?_intersection_eq_alwaysTruthy_iff :
    t.conditionVerdict? id = some .alwaysTruthy ↔
      ∀ part ∈ t.intersectionParts id, t.Solid (t.constrained part) := by
  have falsy : t.isPossiblyFalsy id = false ↔
      ∀ part ∈ t.intersectionParts id, t.Solid (t.constrained part) := by
    rw [isPossiblyFalsy_eq_false_iff, constrainedUnionParts_of_intersection entry]
    simp [constrainedIntersectionParts, Solid]
  rw [conditionVerdict?_eq_alwaysTruthy_iff, constrained_of_intersection entry, falsy,
    isIndeterminate_of_intersection entry, isNever_of_intersection entry]
  constructor
  · rintro ⟨_, _, _, solid⟩
    exact solid
  · intro solid
    refine ⟨rfl, rfl, ?_, solid⟩
    rw [isPossiblyTruthy_iff, constrainedUnionParts_of_intersection entry]
    refine ⟨id, List.mem_singleton.mpr rfl, fun constituent included => ?_⟩
    obtain ⟨part, belongs, rfl⟩ := List.mem_map.mp included
    exact (solid part belongs).isFalsy_eq_false

end Intersection

/-- A built intersection with a verdict other than `never` has the constituents that are kept. -/
theorem WellFormed.mem_intersectionParts_of_verdict (wellFormed : t.WellFormed)
    (joined : t.intersection members = (t, r)) {verdict : Verdict}
    (reported : t.conditionVerdict? r = some verdict) (inhabited : verdict ≠ .never)
    (part : TypeId) : part ∈ t.intersectionParts r ↔ part ∈ t.keptConstituents members := by
  rcases wellFormed.intersectionParts_intersection joined with ⟨rfl, _⟩ | ⟨rfl, _⟩ | ⟨rfl, _⟩ | kept
  · rw [wellFormed.conditionVerdict?_never] at reported
    exact absurd (Option.some.inj reported).symm inhabited
  · rw [conditionVerdict?_of_isOpen wellFormed.toRegular wellFormed.isOpen_any] at reported
    cases reported
  · rw [conditionVerdict?_of_isOpen wellFormed.toRegular wellFormed.isOpen_unknown] at reported
    cases reported
  · exact kept part

/-- A built intersection is always falsy or never if a constituent of what it joins resolves to a
falsy type, unless `any` takes it over. -/
theorem WellFormed.conditionVerdict?_of_falsy_constituent (wellFormed : t.WellFormed)
    (joined : t.intersection members = (t, r)) {part : TypeId}
    (included : part ∈ members.flatMap t.intersectionParts)
    (falsy : t.isFalsy (t.constrained part) = true) (notAny : r ≠ .any) :
    t.conditionVerdict? r = some .alwaysFalsy ∨ t.conditionVerdict? r = some .never := by
  have kept : part ∈ t.keptConstituents members := by
    refine mem_keptConstituents.mpr ⟨included, ?_⟩
    rintro rfl
    have isOpen := wellFormed.isOpen_unknown
    rw [isOpen.constrained_eq, ResolvesTo.self.isFalsy_eq_false isOpen] at falsy
    cases falsy
  rcases wellFormed.intersectionParts_intersection joined with
    ⟨rfl, _⟩ | ⟨same, _⟩ | ⟨_, nothing⟩ | parts
  · exact .inr wellFormed.conditionVerdict?_never
  · exact absurd same notAny
  · rw [nothing] at kept
    cases kept
  · left
    have belongs := (parts part).mpr kept
    rcases intersection_or_single t r with ⟨_, entry⟩ | single
    · exact (conditionVerdict?_intersection_eq_alwaysFalsy_iff entry).mpr ⟨part, belongs, falsy⟩
    · rw [(mem_intersectionParts_of_single single).mp belongs] at falsy
      exact conditionVerdict?_of_isFalsy falsy

end ConditionLint.Table
