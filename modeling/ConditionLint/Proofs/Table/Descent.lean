import ConditionLint.Proofs.Table.Parts

/-!
# Questions that descend through a table

A question that asks about references only never meets the limit of its descent in a regular
table, since references come earlier. Its answers obey the equation of its step, without any limit.
-/

set_option autoImplicit false

namespace ConditionLint.Table

variable {α : Type} {t : Table} {id : TypeId}
  {step : TypeId → Option Descriptor → (TypeId → α) → α} {stuck : α}

/-- The answer about an entry uses the answers about its references only. -/
def AsksReferences (step : TypeId → Option Descriptor → (TypeId → α) → α) : Prop :=
  ∀ (id : TypeId) (entry : Option Descriptor) (first second : TypeId → α),
    (∀ d, entry = some d → ∀ target ∈ d.references, first target = second target) →
      step id entry first = step id entry second

/-- Two limits beyond the place of an entry give the same answer about it, whatever the answers
beyond the limits are. -/
theorem Regular.descend_eq_descend (regular : t.Regular) (asks : AsksReferences step)
    {other : α} {few many : Nat} (belowFew : id.index < few) (belowMany : id.index < many) :
    t.descend step stuck few id = t.descend step other many id := by
  induction few generalizing id many with
  | zero => exact absurd belowFew (Nat.not_lt_zero _)
  | succ few ih =>
      cases many with
      | zero => exact absurd belowMany (Nat.not_lt_zero _)
      | succ many =>
          refine asks id (t.get? id) _ _ fun d entry target reference => ?_
          have earlier := regular.references_lt entry reference
          exact ih (by omega) (by omega)

/-- The answer about a type is what the step makes of its descriptor and of the answers. -/
theorem Regular.ask_eq (regular : t.Regular) (asks : AsksReferences step) (id : TypeId) :
    t.ask step stuck id = step id (t.get? id) (t.ask step stuck) := by
  refine asks id (t.get? id) _ _ fun d entry target reference => ?_
  have earlier := regular.references_lt entry reference
  have inside := lt_size_of_get? entry
  exact regular.descend_eq_descend asks (by omega) (by omega)

/-- What holds of the answer about an entry whenever it holds of the answers about its references
holds of every answer. -/
theorem Regular.ask_induction (regular : t.Regular) (asks : AsksReferences step)
    {P : TypeId → α → Prop}
    (each : ∀ (id : TypeId) (d : Descriptor) (answer : TypeId → α), t.get? id = some d →
      (∀ target ∈ d.references, P target (answer target)) → P id (step id (some d) answer))
    {d : Descriptor} (entry : t.get? id = some d) : P id (t.ask step stuck id) := by
  induction place : id.index using Nat.strongRecOn generalizing id d with
  | ind index ih =>
      subst place
      rw [regular.ask_eq asks, entry]
      refine each id d _ entry fun target reference => ?_
      have earlier := regular.references_lt entry reference
      have inside := lt_size_of_get? entry
      obtain ⟨next, found⟩ : ∃ next, t.get? target = some next :=
        ⟨_, Array.getElem?_eq_getElem (Nat.lt_trans earlier inside)⟩
      exact ih target.index earlier found rfl

/-!
## Base constraints
-/

theorem asksReferences_baseConstraintStep (t : Table) : AsksReferences t.baseConstraintStep := by
  intro id entry first second agree
  cases entry with
  | none => rfl
  | some d =>
      cases d with
      | typeParameter name constraint =>
          cases constraint with
          | none => rfl
          | some constraint =>
              have same := agree _ rfl constraint (by simp [Descriptor.references])
              simp only [baseConstraintStep, same]
      | indexedAccess object index =>
          have sameObject := agree _ rfl object (by simp [Descriptor.references])
          have sameIndex := agree _ rfl index (by simp [Descriptor.references])
          simp only [baseConstraintStep, sameObject, sameIndex]
      | _ => rfl

theorem Regular.baseConstraint?_of_typeParameter (regular : t.Regular) {name : String}
    {constraint : TypeId} (entry : t.get? id = some (.typeParameter name (some constraint))) :
    t.baseConstraint? id = some (t.constrained constraint) := by
  rw [baseConstraint?, regular.ask_eq (asksReferences_baseConstraintStep t), entry]
  rfl

theorem Regular.constrained_of_typeParameter (regular : t.Regular) {name : String}
    {constraint : TypeId} (entry : t.get? id = some (.typeParameter name (some constraint))) :
    t.constrained id = t.constrained constraint :=
  constrained_of_baseConstraint? (regular.baseConstraint?_of_typeParameter entry)

end ConditionLint.Table
