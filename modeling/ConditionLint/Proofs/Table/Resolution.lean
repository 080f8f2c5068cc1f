import ConditionLint.Proofs.Table.Descent

/-!
# What a type resolves to

A type resolves to the members of a union, to the constraint of a type parameter and to the base
constraint of an indexed access, and on from there. Where it resolves to a type that can be
anything, resolving it once, or taking its members and resolving these, still leads there.
-/

set_option autoImplicit false

namespace ConditionLint.Table

variable {t : Table} {id target : TypeId}

/-- The second type is the first, or is reached from it through members of unions, constraints of
type parameters and base constraints of indexed accesses. -/
inductive ResolvesTo (t : Table) : TypeId → TypeId → Prop where
  | self {id : TypeId} : ResolvesTo t id id
  | member {id member target : TypeId} {members : List TypeId} :
      t.get? id = some (.union members) → member ∈ members →
      ResolvesTo t member target → ResolvesTo t id target
  | constraint {id constraint target : TypeId} {name : String} :
      t.get? id = some (.typeParameter name (some constraint)) →
      ResolvesTo t constraint target → ResolvesTo t id target
  | base {id object index base target : TypeId} :
      t.get? id = some (.indexedAccess object index) → t.baseConstraint? id = some base →
      ResolvesTo t base target → ResolvesTo t id target

/-- The type can be anything: it is `any` or `unknown`, a type parameter without a constraint, or
an indexed access without a base constraint. -/
inductive IsOpen (t : Table) (id : TypeId) : Prop where
  | any : t.get? id = some (.intrinsic .any) → IsOpen t id
  | unknown : t.get? id = some (.intrinsic .unknown) → IsOpen t id
  | parameter {name : String} : t.get? id = some (.typeParameter name none) → IsOpen t id
  | access {object index : TypeId} :
      t.get? id = some (.indexedAccess object index) → t.baseConstraint? id = none → IsOpen t id

theorem IsOpen.baseConstraint?_eq_none (isOpen : t.IsOpen id) : t.baseConstraint? id = none := by
  cases isOpen with
  | any entry | unknown entry | parameter entry => rw [baseConstraint?_eq, entry]; rfl
  | access _ unbounded => exact unbounded

theorem IsOpen.constrained_eq (isOpen : t.IsOpen id) : t.constrained id = id := by
  simp [constrained, isOpen.baseConstraint?_eq_none]

theorem IsOpen.kindIn_undecidable (isOpen : t.IsOpen id) :
    t.kindIn id Kind.undecidable = true := by
  cases isOpen with
  | any entry | unknown entry | parameter entry | access entry =>
      rw [kindIn_of_get? entry]
      rfl

theorem IsOpen.get?_ne_union (isOpen : t.IsOpen id) (members : List TypeId) :
    t.get? id ≠ some (.union members) := by
  intro union
  cases isOpen with
  | any entry | unknown entry | parameter entry | access entry =>
      rw [entry] at union
      cases union

theorem WellFormed.isOpen_any (wellFormed : t.WellFormed) : t.IsOpen .any :=
  .any (wellFormed.get?_wellKnown rfl)

theorem WellFormed.isOpen_unknown (wellFormed : t.WellFormed) : t.IsOpen .unknown :=
  .unknown (wellFormed.get?_wellKnown rfl)

namespace ResolvesTo

/-- Resolving a type to its base constraint skips constraints only, none of which can be
anything. -/
theorem constrained (resolves : t.ResolvesTo id target) (regular : t.Regular)
    (isOpen : t.IsOpen target) : t.ResolvesTo (t.constrained id) target := by
  induction resolves with
  | self =>
      rw [isOpen.constrained_eq]
      exact .self
  | member entry included rest =>
      have fixed : t.kindIn _ Kind.typeVariable = false := kindIn_of_get? entry _
      rw [constrained_of_not_variable fixed]
      exact .member entry included rest
  | constraint entry _ ih =>
      rw [regular.constrained_of_typeParameter entry]
      exact ih isOpen
  | base _ found rest =>
      rw [constrained_of_baseConstraint? found]
      exact rest

theorem exists_unionPart (resolves : t.ResolvesTo id target) (isOpen : t.IsOpen target) :
    ∃ part ∈ t.unionParts id, t.ResolvesTo part target := by
  cases resolves with
  | self => exact ⟨_, (mem_unionParts_of_single isOpen.get?_ne_union).mpr rfl, .self⟩
  | member entry included rest =>
      rw [unionParts_of_union entry]
      exact ⟨_, included, rest⟩
  | constraint entry rest =>
      exact ⟨_, (mem_unionParts_of_single (by simp [entry])).mpr rfl, .constraint entry rest⟩
  | base entry found rest =>
      exact ⟨_, (mem_unionParts_of_single (by simp [entry])).mpr rfl, .base entry found rest⟩

theorem exists_constrainedUnionPart (resolves : t.ResolvesTo id target) (regular : t.Regular)
    (isOpen : t.IsOpen target) : ∃ part ∈ t.constrainedUnionParts id, t.ResolvesTo part target := by
  obtain ⟨member, included, rest⟩ := resolves.exists_unionPart isOpen
  obtain ⟨part, belongs, rest⟩ := (rest.constrained regular isOpen).exists_unionPart isOpen
  exact ⟨part, List.mem_flatMap.mpr ⟨member, included, belongs⟩, rest⟩

/-- A type that is no union and leads to one that can be anything is that type or generic. -/
theorem kindIn_undecidable (resolves : t.ResolvesTo id target)
    (single : ∀ members, t.get? id ≠ some (.union members)) (isOpen : t.IsOpen target) :
    t.kindIn id Kind.undecidable = true := by
  cases resolves with
  | self => exact isOpen.kindIn_undecidable
  | member entry => exact absurd entry (single _)
  | constraint entry | base entry =>
      rw [kindIn_of_get? entry]
      rfl

/-- Members and their constraints are looked at once only, but where that stops short of a type
that can be anything it leaves a generic type. -/
theorem isIndeterminate (resolves : t.ResolvesTo id target) (regular : t.Regular)
    (isOpen : t.IsOpen target) : t.isIndeterminate id = true := by
  obtain ⟨part, included, rest⟩ := resolves.exists_constrainedUnionPart regular isOpen
  have single := regular.get?_ne_union_of_mem_constrainedUnionParts included
  rw [← Bool.not_eq_false, isIndeterminate_eq_false_iff]
  intro decidable
  have undecidable := rest.kindIn_undecidable single isOpen
  rw [decidable part included] at undecidable
  cases undecidable

theorem isFalsy_eq_false (resolves : t.ResolvesTo id target) (isOpen : t.IsOpen target) :
    t.isFalsy id = false := by
  cases resolves with
  | self =>
      cases isOpen with
      | any entry | unknown entry | parameter entry | access entry =>
          simp [isFalsy, kindIn_of_get? entry, literal?, entry, Descriptor.kind, Intrinsic.kind]
  | member entry | constraint entry | base entry =>
      simp [isFalsy, kindIn_of_get? entry, literal?, entry, Descriptor.kind]

/-- A type that leads to one that can be anything has a member that nothing keeps from being
truthy. -/
theorem isPossiblyTruthy (resolves : t.ResolvesTo id target) (regular : t.Regular)
    (isOpen : t.IsOpen target) : t.isPossiblyTruthy id = true := by
  obtain ⟨part, included, rest⟩ := resolves.exists_constrainedUnionPart regular isOpen
  have single := regular.get?_ne_union_of_mem_constrainedUnionParts included
  have undecidable := rest.kindIn_undecidable single isOpen
  have noIntersection : ∀ members, t.get? part ≠ some (.intersection members) := by
    intro members entry
    rw [kindIn_of_get? entry] at undecidable
    cases undecidable
  refine isPossiblyTruthy_iff.mpr ⟨part, included, ?_⟩
  rw [constrainedIntersectionParts, intersectionParts_of_not_intersection noIntersection]
  simpa using (rest.constrained regular isOpen).isFalsy_eq_false isOpen

end ResolvesTo

end ConditionLint.Table
