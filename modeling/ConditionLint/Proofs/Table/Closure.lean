import ConditionLint.Proofs.Table.Growth
import ConditionLint.Proofs.Table.Renaming

/-!
# Questions end and stay in the table

Every question about a type of a well-formed table is answered from the answers about types before
it, so it ends, and the ids in its answer are in the table again. The questions that the search for
a base constraint asks on the way are about types before it as well.
-/

set_option autoImplicit false

namespace ConditionLint

namespace Table

/-!
## What the steps ask
-/

theorem asksReferences_propertyStep (name : String) : AsksReferences (propertyStep name) := by
  intro type entry first second agree
  cases entry with
  | none => rfl
  | some d =>
      have asked : ∀ target ∈ d.references, first (id target) = (second target).map id := by
        simpa using agree d rfl
      have same : propertyStep name (id type) (some (d.rename id)) first =
          (propertyStep name type (some d) second).map id :=
        propertyStep_rename rfl name asked
      simpa using same

theorem asksReferences_indexKindsStep : AsksReferences indexKindsStep := by
  intro type entry first second agree
  cases entry with
  | none => rfl
  | some d =>
      have asked : ∀ target ∈ d.references, first (id target) = second target := agree d rfl
      have same : indexKindsStep (id type) (some (d.rename id)) first =
          indexKindsStep type (some d) second := indexKindsStep_rename asked
      simpa using same

theorem asksReferences_indexStep (kind : IndexKind) : AsksReferences (indexStep kind) := by
  intro type entry first second agree
  cases entry with
  | none => rfl
  | some d =>
      have asked : ∀ target ∈ d.references, first (id target) = (second target).map id := by
        simpa using agree d rfl
      have same : indexStep kind (id type) (some (d.rename id)) first =
          (indexStep kind type (some d) second).map id := indexStep_rename kind asked
      simpa using same

theorem asksReferences_callSignaturesStep : AsksReferences callSignaturesStep := by
  intro type entry first second agree
  cases entry with
  | none => rfl
  | some d =>
      have asked : ∀ target ∈ d.references,
          first (id target) = (second target).map (Signature.rename id) := by
        simpa using agree d rfl
      have same : callSignaturesStep (id type) (some (d.rename id)) first =
          (callSignaturesStep type (some d) second).map (Signature.rename id) :=
        callSignaturesStep_rename asked
      simpa using same

theorem keepsWellKnown_id (ids : List TypeId) : KeepsWellKnown id ids :=
  fun _ _ => ⟨rfl, fun _ _ same => same⟩

theorem asksReferences_displayStep : AsksReferences displayStep := by
  intro type entry first second agree
  cases entry with
  | none => rfl
  | some d =>
      have asked : ∀ target ∈ d.references, first (id target) = second target := agree d rfl
      have same : displayStep (id type) (some (d.rename id)) first =
          displayStep type (some d) second := displayStep_rename (keepsWellKnown_id _) asked
      simpa using same

/-!
## Answers about types before
-/

variable {t : Table} {id : TypeId} {d : Descriptor}

theorem exists_get?_of_contains (contained : t.contains id = true) : ∃ d, t.get? id = some d :=
  ⟨_, Array.getElem?_eq_getElem (contains_iff.mp contained)⟩

private theorem WellFormed.wellKnown_length_le (wellFormed : t.WellFormed)
    (entry : t.get? id = some d)
    (other : d ∉ wellKnown) : wellKnown.length ≤ id.index := by
  by_contra early
  have known := wellFormed.get?_wellKnown (List.getElem?_eq_getElem (Nat.lt_of_not_le early))
  rw [entry] at known
  exact other (Option.some.inj known ▸ List.getElem_mem _)

private theorem eq_number_of_lengthType? {name : String} {found : TypeId}
    (length : lengthType? name = some found) : found = .number := by
  unfold lengthType? at length
  split at length
  · exact (Option.some.inj length).symm
  · cases length

/-- What is declared of a property stands in the descriptor, comes from a reference, or is the
type of a length. -/
private theorem propertyStep_eq_some {name : String} {answer : TypeId → Option TypeId}
    {found : TypeId}
    (declared : propertyStep name id (some d) answer = some found) :
    found = .number ∨ found ∈ d.references ∨
      ∃ target ∈ d.references, answer target = some found := by
  cases d with
  | intrinsic keyword =>
      cases keyword with
      | string => exact .inl (eq_number_of_lengthType? declared)
      | _ => cases declared
  | literal value =>
      cases value with
      | string => exact .inl (eq_number_of_lengthType? declared)
      | _ => cases declared
  | object shape =>
      obtain ⟨property, named, rfl⟩ := Option.map_eq_some_iff.mp declared
      have member : property.type ∈ shape.properties.map Property.type :=
        List.mem_map_of_mem (List.mem_of_find?_eq_some named)
      exact .inr (.inl (List.mem_append_left _ (List.mem_append_left _ member)))
  | array element => exact .inl (eq_number_of_lengthType? declared)
  | tuple elements =>
      simp only [propertyStep, Option.orElse_eq_orElse, Option.orElse_eq_or, Option.or_eq_some_iff,
        Option.bind_eq_some_iff] at declared
      rcases declared with length | ⟨_, position, _, element⟩
      · exact .inl (eq_number_of_lengthType? length)
      · exact .inr (.inl (List.mem_of_getElem? element))
  | intersection members => exact .inr (.inr (List.exists_of_findSome?_eq_some declared))
  | typeParameter parameter constraint =>
      cases constraint with
      | none => cases declared
      | some constraint => exact .inr (.inr ⟨constraint, List.mem_singleton_self _, declared⟩)
  | _ => cases declared

private theorem indexStep_eq_some {kind : IndexKind} {answer : TypeId → Option TypeId}
    {found : TypeId}
    (declared : indexStep kind id (some d) answer = some found) :
    found ∈ d.references ∨ ∃ target ∈ d.references, answer target = some found := by
  cases d with
  | object shape =>
      obtain ⟨signature, selected, rfl⟩ := Option.map_eq_some_iff.mp declared
      have member : signature.type ∈ shape.indexSignatures.map IndexSignature.type :=
        List.mem_map_of_mem (List.mem_of_find?_eq_some selected)
      exact .inl (List.mem_append_left _ (List.mem_append_right _ member))
  | array element =>
      simp only [indexStep, Option.ite_none_right_eq_some, Option.some.injEq] at declared
      exact .inl (declared.2 ▸ List.mem_singleton_self _)
  | intersection members => exact .inr (List.exists_of_findSome?_eq_some declared)
  | _ => cases declared

private theorem mem_callSignaturesStep {answer : TypeId → List Signature} {signature : Signature}
    (included : signature ∈ callSignaturesStep id (some d) answer) :
    (∀ target ∈ signature.references, target ∈ d.references) ∨
      ∃ target ∈ d.references, signature ∈ answer target := by
  cases d with
  | object shape =>
      refine .inl fun target reference => List.mem_append_right _ ?_
      exact List.mem_flatMap.mpr ⟨signature, included, reference⟩
  | union members =>
      simp only [callSignaturesStep, allCallable] at included
      split at included
      · cases included
      · obtain ⟨signatures, one, belongs⟩ := List.mem_flatten.mp included
        obtain ⟨target, reference, rfl⟩ := List.mem_map.mp one
        exact .inr ⟨target, reference, belongs⟩
  | intersection members => exact .inr (List.mem_flatMap.mp included)
  | typeParameter parameter constraint =>
      cases constraint with
      | none => cases included
      | some constraint => exact .inr ⟨constraint, List.mem_singleton_self _, included⟩
  | _ => cases included

namespace Regular

/-- A property has the type `number` or one before the type that it is declared in. -/
theorem propertyType?_lt (regular : t.Regular) (contained : t.contains id = true) {name : String}
    {found : TypeId} (declared : t.propertyType? id name = some found) :
    found = .number ∨ found.index < id.index := by
  obtain ⟨d, entry⟩ := exists_get?_of_contains contained
  revert found
  refine regular.ask_induction (asksReferences_propertyStep name)
    (P := fun id answer => ∀ {found : TypeId}, answer = some found →
      found = .number ∨ found.index < id.index)
    (fun id d answer entry earlier found same => ?_) entry
  rcases propertyStep_eq_some same with length | here | ⟨target, reference, there⟩
  · exact .inl length
  · exact .inr (regular.references_lt entry here)
  · have before := regular.references_lt entry reference
    exact (earlier target reference there).imp_right (Nat.lt_trans · before)

theorem indexType?_lt (regular : t.Regular) (contained : t.contains id = true) {kind : IndexKind}
    {found : TypeId} (declared : t.indexType? id kind = some found) : found.index < id.index := by
  obtain ⟨d, entry⟩ := exists_get?_of_contains contained
  revert found
  refine regular.ask_induction (asksReferences_indexStep kind)
    (P := fun id answer => ∀ {found : TypeId}, answer = some found → found.index < id.index)
    (fun id d answer entry earlier found same => ?_) entry
  rcases indexStep_eq_some same with here | ⟨target, reference, there⟩
  · exact regular.references_lt entry here
  · exact Nat.lt_trans (earlier target reference there) (regular.references_lt entry reference)

theorem callSignatures_lt (regular : t.Regular) (contained : t.contains id = true)
    {signature : Signature} (included : signature ∈ t.callSignatures id) {target : TypeId}
    (reference : target ∈ signature.references) : target.index < id.index := by
  obtain ⟨d, entry⟩ := exists_get?_of_contains contained
  revert signature
  refine regular.ask_induction asksReferences_callSignaturesStep
    (P := fun id answer => ∀ {signature : Signature}, signature ∈ answer →
      target ∈ signature.references → target.index < id.index)
    (fun id d answer entry earlier signature included reference => ?_) entry
  rcases mem_callSignaturesStep included with here | ⟨other, before, there⟩
  · exact regular.references_lt entry (here target reference)
  · exact Nat.lt_trans (earlier other before there reference) (regular.references_lt entry before)

end Regular

namespace WellFormed

/-- Reading a key of an object gives a type before a type variable, if the object is before it. -/
theorem accessType?_lt (wellFormed : t.WellFormed) {object key : TypeId} {bound : Nat}
    (large : wellKnown.length ≤ bound) (contained : t.contains object = true)
    (before : object.index < bound) {found : TypeId}
    (read : t.accessType? object key = some found) : found.index < bound := by
  simp only [accessType?, Option.orElse_eq_orElse, Option.orElse_eq_or, Option.or_eq_some_iff,
    Option.bind_eq_some_iff] at read
  rcases read with ⟨name, _, declared⟩ | ⟨_, kind, _, declared⟩
  · rcases wellFormed.propertyType?_lt contained declared with rfl | earlier
    · exact Nat.lt_of_lt_of_le (by decide) large
    · exact Nat.lt_trans earlier before
  · exact Nat.lt_trans (wellFormed.indexType?_lt contained declared) before

theorem baseConstraint?_lt (wellFormed : t.WellFormed) (contained : t.contains id = true)
    {found : TypeId} (constraint : t.baseConstraint? id = some found) : found.index < id.index := by
  obtain ⟨d, entry⟩ := exists_get?_of_contains contained
  revert found
  refine wellFormed.ask_induction (asksReferences_baseConstraintStep t)
    (P := fun id answer => ∀ {found : TypeId}, answer = some found → found.index < id.index)
    (fun id d answer entry earlier found same => ?_) entry
  have resolved {target : TypeId} (reference : target ∈ d.references) :
      ((answer target).getD target).index < id.index := by
    have before := wellFormed.references_lt entry reference
    cases bounded : answer target with
    | none => exact before
    | some further => exact Nat.lt_trans (earlier target reference bounded) before
  cases d with
  | typeParameter name constraint =>
      cases constraint with
      | none => cases same
      | some constraint =>
          cases same
          exact resolved (List.mem_singleton_self _)
  | indexedAccess object index =>
      have late := wellFormed.wellKnown_length_le entry (by simp [wellKnown])
      have before := @resolved object (by simp [Descriptor.references])
      have inside : t.contains ((answer object).getD object) = true :=
        contains_iff.mpr (Nat.lt_trans before (lt_size_of_get? entry))
      exact wellFormed.accessType?_lt late inside before same
  | _ => cases same

theorem constrained_le (wellFormed : t.WellFormed) (contained : t.contains id = true) :
    (t.constrained id).index ≤ id.index := by
  unfold constrained
  cases bounded : t.baseConstraint? id with
  | none => exact Nat.le_refl _
  | some constraint => exact Nat.le_of_lt (wellFormed.baseConstraint?_lt contained bounded)

theorem contains_constrained (wellFormed : t.WellFormed) (contained : t.contains id = true) :
    t.contains (t.constrained id) = true :=
  contains_iff.mpr
    (Nat.lt_of_le_of_lt (wellFormed.constrained_le contained) (contains_iff.mp contained))

end WellFormed

/-!
## Questions end
-/

/-- The answer about a type is made from the answers about earlier types, and asking however deep
from the place of the type on gives no other. -/
structure EndsAt {α : Type} (t : Table) (step : TypeId → Option Descriptor → (TypeId → α) → α)
    (answer : TypeId → α) (id : TypeId) : Prop where
  equation : answer id = step id (t.get? id) answer
  earlier : ∀ first second : TypeId → α,
    (∀ target, target.index < id.index → first target = second target) →
      step id (t.get? id) first = step id (t.get? id) second
  unlimited : ∀ (stuck : α) (levels : Nat), id.index < levels →
    t.descend step stuck levels id = answer id

theorem Regular.endsAt {α : Type} {step : TypeId → Option Descriptor → (TypeId → α) → α} {stuck : α}
    (regular : t.Regular) (asks : AsksReferences step) (contained : t.contains id = true) :
    t.EndsAt step (t.ask step stuck) id where
  equation := regular.ask_eq asks id
  earlier first second agree :=
    asks id (t.get? id) first second fun _ entry target reference =>
      agree target (regular.references_lt entry reference)
  unlimited _ _ deep :=
    regular.descend_eq_descend asks deep (Nat.lt_succ_of_lt (contains_iff.mp contained))

/-- All questions about a type end, and those that the search for its base constraint asks on the
way are about earlier types. -/
structure QuestionsEnd (t : Table) (id : TypeId) : Prop where
  properties : ∀ name, t.EndsAt (propertyStep name) (t.propertyType? · name) id
  indexKinds : t.EndsAt indexKindsStep t.indexKinds id
  indices : ∀ kind, t.EndsAt (indexStep kind) (t.indexType? · kind) id
  callSignatures : t.EndsAt callSignaturesStep t.callSignatures id
  baseConstraint : t.EndsAt t.baseConstraintStep t.baseConstraint? id
  accesses : ∀ {object index}, t.get? id = some (.indexedAccess object index) →
    (t.constrained object).index < id.index ∧ (t.constrained index).index < id.index
  display : t.EndsAt displayStep (t.ask displayStep fun _ => "") id

theorem WellFormed.questionsEnd (wellFormed : t.WellFormed) (contained : t.contains id = true) :
    t.QuestionsEnd id where
  properties name := wellFormed.endsAt (asksReferences_propertyStep name) contained
  indexKinds := wellFormed.endsAt asksReferences_indexKindsStep contained
  indices kind := wellFormed.endsAt (asksReferences_indexStep kind) contained
  callSignatures := wellFormed.endsAt asksReferences_callSignaturesStep contained
  baseConstraint := wellFormed.endsAt (asksReferences_baseConstraintStep t) contained
  accesses := by
    intro object index entry
    have earlier {target : TypeId} (reference : target ∈ [object, index]) :
        (t.constrained target).index < id.index :=
      Nat.lt_of_le_of_lt
        (wellFormed.constrained_le (wellFormed.contains_of_mem_references entry reference))
        (wellFormed.references_lt entry reference)
    exact ⟨earlier (by simp), earlier (by simp)⟩
  display := wellFormed.endsAt asksReferences_displayStep contained

/-- The step of display with another text for ids that the table does not have. -/
def displayStepOr (unknown : TypeId → Bool → String) (id : TypeId) :
    Option Descriptor → (TypeId → Bool → String) → Bool → String
  | none, _ => unknown id
  | some d, answer => displayStep id (some d) answer

/-- The text of a type with another text for ids that the table does not have. -/
def displayOr (unknown : TypeId → Bool → String) (t : Table) (id : TypeId) : String :=
  t.ask (displayStepOr unknown) (fun _ => "") id false

theorem displayOr_text (t : Table) : t.displayOr (fun id _ => id.text) = t.display := by
  have same : displayStepOr (fun id _ => id.text) = displayStep := by
    funext id entry answer nested
    cases entry <;> rfl
  funext id
  rw [displayOr, same]
  rfl

/-- The text of a type of the table shows no id that is unknown. -/
theorem Regular.displayOr_eq (regular : t.Regular) (contained : t.contains id = true)
    (unknown : TypeId → Bool → String) : t.displayOr unknown id = t.display id := by
  obtain ⟨d, entry⟩ := exists_get?_of_contains contained
  have asks : AsksReferences (displayStepOr unknown) := by
    intro id entry first second agree
    cases entry with
    | none => rfl
    | some d => exact asksReferences_displayStep id (some d) first second agree
  refine congrFun (regular.ask_induction asks
    (P := fun id text => text = t.ask displayStep (fun _ => "") id)
    (fun id d answer entry earlier => ?_) entry) false
  rw [regular.ask_eq asksReferences_displayStep, entry]
  refine asksReferences_displayStep id (some d) _ _ ?_
  rintro _ ⟨⟩ target reference
  exact earlier target reference

/-!
## Answers stay in the table
-/

/-- All ids that a question about a type is answered with are in the table. -/
structure AnswersInside (t : Table) (id : TypeId) : Prop where
  unionParts : ∀ part ∈ t.unionParts id, t.contains part = true
  intersectionParts : ∀ part ∈ t.intersectionParts id, t.contains part = true
  properties : ∀ {name found}, t.propertyType? id name = some found → t.contains found = true
  indices : ∀ {kind found}, t.indexType? id kind = some found → t.contains found = true
  callSignatures : ∀ signature ∈ t.callSignatures id, ∀ target ∈ signature.references,
    t.contains target = true
  baseConstraint : ∀ {found}, t.baseConstraint? id = some found → t.contains found = true

private theorem contains_of_lt {found : TypeId} (contained : t.contains id = true)
    (earlier : found.index < id.index) : t.contains found = true :=
  contains_iff.mpr (Nat.lt_trans earlier (contains_iff.mp contained))

theorem WellFormed.contains_propertyType? (wellFormed : t.WellFormed)
    (contained : t.contains id = true) {name : String} {found : TypeId}
    (declared : t.propertyType? id name = some found) : t.contains found = true := by
  rcases wellFormed.propertyType?_lt contained declared with rfl | earlier
  · exact wellFormed.contains_wellKnown (by decide)
  · exact contains_of_lt contained earlier

theorem WellFormed.contains_returnType (wellFormed : t.WellFormed)
    (contained : t.contains id = true) {signature : Signature}
    (included : signature ∈ t.callSignatures id) : t.contains signature.returnType = true :=
  contains_of_lt contained (wellFormed.callSignatures_lt contained included
    (List.mem_append_right _ (List.mem_singleton_self _)))

theorem WellFormed.answersInside (wellFormed : t.WellFormed) (contained : t.contains id = true) :
    t.AnswersInside id where
  unionParts _ included := wellFormed.contains_of_mem_unionParts contained included
  intersectionParts _ included := wellFormed.contains_of_mem_intersectionParts contained included
  properties := wellFormed.contains_propertyType? contained
  indices declared := contains_of_lt contained (wellFormed.indexType?_lt contained declared)
  callSignatures _ included _ reference :=
    contains_of_lt contained (wellFormed.callSignatures_lt contained included reference)
  baseConstraint found := contains_of_lt contained (wellFormed.baseConstraint?_lt contained found)

end Table

end ConditionLint
