import ConditionLint.Proofs.Table.Builders
import ConditionLint.Proofs.Values.Constituents

/-!
# Instances of generic intersections

An intersection with a type parameter is judged by the constraint of the parameter as one
constituent, which is not split, and without regard to a parameter that has no constraint. Its
instance, with the constraint or any other type in place of the parameter, is judged by all
constituents of that type. So a verdict on the intersection need not hold for the instance.
-/

set_option autoImplicit false

namespace ConditionLint.Table

variable {t : Table} {id r parameter type generic fixed : TypeId} {members others : List TypeId}

/-- The type can stand in place of the type parameter: it is the constraint, or any type but `any`
where there is none. -/
structure StandsFor (t : Table) (type parameter : TypeId) : Prop where
  contained : t.contains type = true
  ne_any : type ≠ .any
  entry : ∃ name constraint, t.get? parameter = some (.typeParameter name constraint) ∧
    ∀ bound, constraint = some bound → type = bound

theorem StandsFor.not_intersection (stands : t.StandsFor type parameter) (parts : List TypeId) :
    t.get? parameter ≠ some (.intersection parts) := by
  obtain ⟨name, constraint, entry, _⟩ := stands.entry
  simp [entry]

theorem StandsFor.parameter_ne_unknown (stands : t.StandsFor type parameter)
    (wellFormed : t.WellFormed) : parameter ≠ .unknown := by
  rintro rfl
  obtain ⟨name, constraint, entry, _⟩ := stands.entry
  have unknown : t.get? .unknown = some (.intrinsic .unknown) := wellFormed.get?_wellKnown rfl
  rw [unknown] at entry
  cases entry

/-- The parameter resolves to what the type resolves to, or nothing is known of it. -/
theorem StandsFor.constrained_eq (stands : t.StandsFor type parameter) (regular : t.Regular) :
    t.constrained parameter = t.constrained type ∨ t.IsOpen parameter := by
  obtain ⟨name, constraint, entry, bounded⟩ := stands.entry
  cases constraint with
  | none => exact .inr (.parameter entry)
  | some bound =>
      rw [bounded bound rfl]
      exact .inl (regular.constrained_of_typeParameter entry)

/-- The intersection of a type parameter with others, and the instance of it with a type in place
of the parameter. -/
structure Instance (t : Table) (parameter type : TypeId) (others : List TypeId)
    (generic fixed : TypeId) : Prop where
  wellFormed : t.WellFormed
  stands : t.StandsFor type parameter
  generic_eq : t.intersection (parameter :: others) = (t, generic)
  fixed_eq : t.intersection (type :: others) = (t, fixed)

namespace Instance

variable (same : t.Instance parameter type others generic fixed) {verdict : Verdict}
  {part : TypeId}

include same

/-- The intersection has the parameter and what is kept of the others as constituents. -/
theorem mem_generic (reported : t.conditionVerdict? generic = some verdict)
    (inhabited : verdict ≠ .never) :
    part ∈ t.intersectionParts generic ↔ part = parameter ∨ part ∈ t.keptConstituents others := by
  rw [same.wellFormed.mem_intersectionParts_of_verdict same.generic_eq reported inhabited,
    mem_keptConstituents_cons, mem_intersectionParts_of_single same.stands.not_intersection,
    and_iff_left_of_imp]
  rintro rfl
  exact same.stands.parameter_ne_unknown same.wellFormed

/-- What is no intersection of the parameter with others is the parameter alone. -/
theorem intersection_or_alone (reported : t.conditionVerdict? generic = some verdict)
    (inhabited : verdict ≠ .never) :
    (∃ parts, t.get? generic = some (.intersection parts)) ∨ generic = parameter := by
  refine (intersection_or_single t generic).imp_right fun single => ?_
  have included := (same.mem_generic reported inhabited).mpr (.inl rfl)
  exact ((mem_intersectionParts_of_single single).mp included).symm

/-- Where the parameter is alone, the others keep nothing but the parameter. -/
theorem eq_parameter_of_alone (reported : t.conditionVerdict? parameter = some verdict)
    (inhabited : verdict ≠ .never) (alone : generic = parameter)
    (kept : part ∈ t.keptConstituents others) : part = parameter := by
  have included := (same.mem_generic (alone ▸ reported) inhabited).mpr (.inr kept)
  rw [alone] at included
  exact (mem_intersectionParts_of_single same.stands.not_intersection).mp included

private theorem exists_kept {parts : List TypeId}
    (entry : t.get? generic = some (.intersection parts)) :
    ∃ part, part ∈ t.keptConstituents others := by
  refine List.exists_mem_of_ne_nil _ fun nothing => ?_
  have only : t.keptConstituents (parameter :: others) = [parameter] := by
    rw [keptConstituents_cons, nothing, keptConstituents, List.flatMap_singleton,
      intersectionParts_of_not_intersection same.stands.not_intersection]
    simp [same.stands.parameter_ne_unknown same.wellFormed]
  have several := (irregularity?_eq_none_iff.mp (same.wellFormed.members entry rfl)).1
  rw [same.wellFormed.eq_ascending_of_intersection same.generic_eq entry, only] at several
  simp [ascending, insertId] at several

theorem constrained_eq (reported : t.conditionVerdict? parameter = some verdict) :
    t.constrained parameter = t.constrained type := by
  refine (same.stands.constrained_eq same.wellFormed.toRegular).resolve_right fun isOpen => ?_
  rw [conditionVerdict?_of_isOpen same.wellFormed.toRegular isOpen] at reported
  cases reported

/-- A verdict on the parameter itself is the verdict on the type. -/
theorem conditionVerdict?_type (reported : t.conditionVerdict? parameter = some verdict) :
    t.conditionVerdict? type = some verdict := by
  rwa [← conditionVerdict?_congr (same.constrained_eq reported)]

/-- A parameter that resolves to a falsy type is under that type, which is no intersection. -/
theorem falsy_of_parameter (falsy : t.isFalsy (t.constrained parameter) = true) :
    type ∈ t.intersectionParts type ∧ t.isFalsy (t.constrained type) = true := by
  have resolved : t.constrained parameter = t.constrained type := by
    refine (same.stands.constrained_eq same.wellFormed.toRegular).resolve_right fun isOpen => ?_
    rw [isOpen.constrained_eq, ResolvesTo.self.isFalsy_eq_false isOpen] at falsy
    cases falsy
  rw [resolved] at falsy
  refine ⟨(mem_intersectionParts_of_single fun parts entry => ?_).mpr rfl, falsy⟩
  rw [constrained_of_intersection entry] at falsy
  exact not_intersection_of_isFalsy falsy parts entry

/-- Where the parameter is all that is left of the intersection and the type is no intersection,
all constituents of the instance resolve to the same type. -/
private theorem constrained_of_alone (reported : t.conditionVerdict? parameter = some verdict)
    (inhabited : verdict ≠ .never) (alone : generic = parameter)
    (single : ∀ parts, t.get? type ≠ some (.intersection parts)) (part : TypeId)
    (kept : part ∈ t.keptConstituents (type :: others)) :
    t.constrained part = t.constrained type := by
  rcases mem_keptConstituents_cons.mp kept with ⟨own, _⟩ | other
  · rw [(mem_intersectionParts_of_single single).mp own]
  · rw [same.eq_parameter_of_alone reported inhabited alone other, same.constrained_eq reported]

/-!
## The verdict on the instance
-/

/-- A verdict "always falsy" on the parameter alone needs a falsy constituent of the type to hold
for an instance with further constituents. -/
private theorem exists_falsy_of_alone (reported : t.conditionVerdict? parameter = some .alwaysFalsy)
    (alone : generic = parameter) (survives : t.conditionVerdict? fixed = some .alwaysFalsy ∨
      t.conditionVerdict? fixed = some .never) (grown : fixed ≠ type) :
    ∃ part ∈ t.intersectionParts type, t.isFalsy (t.constrained part) = true := by
  have regular := same.wellFormed.toRegular
  have typeReported := same.conditionVerdict?_type reported
  rcases intersection_or_single t type with ⟨_, entry⟩ | single
  · exact (conditionVerdict?_intersection_eq_alwaysFalsy_iff entry).mp typeReported
  · have resolved := same.constrained_of_alone reported (by decide) alone single
    have own : type ∈ t.intersectionParts type := (mem_intersectionParts_of_single single).mpr rfl
    rcases same.wellFormed.intersectionParts_intersection same.fixed_eq with
      ⟨rfl, taken⟩ | ⟨rfl, _⟩ | ⟨rfl, _⟩ | kept
    · have never := resolved .never (mem_keptConstituents.mpr ⟨taken, by decide⟩)
      rw [← conditionVerdict?_congr never, same.wellFormed.conditionVerdict?_never] at typeReported
      cases typeReported
    · simp [conditionVerdict?_of_isOpen regular same.wellFormed.isOpen_any] at survives
    · simp [conditionVerdict?_of_isOpen regular same.wellFormed.isOpen_unknown] at survives
    · rcases intersection_or_single t fixed with ⟨_, entry⟩ | whole
      · rw [or_iff_left (conditionVerdict?_intersection_ne_never entry),
          conditionVerdict?_intersection_eq_alwaysFalsy_iff entry] at survives
        obtain ⟨part, included, falsy⟩ := survives
        rw [resolved part ((kept part).mp included)] at falsy
        exact ⟨type, own, falsy⟩
      · have known : type ≠ .unknown := by
          rintro rfl
          rw [conditionVerdict?_of_isOpen regular same.wellFormed.isOpen_unknown] at typeReported
          cases typeReported
        have included := (kept type).mpr (mem_keptConstituents_cons.mpr (.inl ⟨own, known⟩))
        exact absurd ((mem_intersectionParts_of_single whole).mp included).symm grown

/-- A verdict "always falsy" holds for the instance, unless `any` takes that over or what is left
of the intersection is the parameter alone, whose constraint has no falsy constituent. -/
theorem alwaysFalsy_iff (reported : t.conditionVerdict? generic = some .alwaysFalsy) :
    (t.conditionVerdict? fixed = some .alwaysFalsy ∨ t.conditionVerdict? fixed = some .never) ↔
      fixed ≠ .any ∧ (generic = parameter → fixed = type ∨
        ∃ part ∈ t.intersectionParts type, t.isFalsy (t.constrained part) = true) := by
  have regular := same.wellFormed.toRegular
  constructor
  · intro survives
    refine ⟨?_, fun alone => Decidable.or_iff_not_imp_left.mpr ?_⟩
    · rintro rfl
      simp [conditionVerdict?_of_isOpen regular same.wellFormed.isOpen_any] at survives
    · exact same.exists_falsy_of_alone (alone ▸ reported) alone survives
  · rintro ⟨notAny, collapsed⟩
    have taken : ∀ part ∈ (type :: others).flatMap t.intersectionParts,
        t.isFalsy (t.constrained part) = true →
          t.conditionVerdict? fixed = some .alwaysFalsy ∨ t.conditionVerdict? fixed = some .never :=
      fun part included falsy =>
        same.wellFormed.conditionVerdict?_of_falsy_constituent same.fixed_eq included falsy notAny
    rcases same.intersection_or_alone reported (by decide) with ⟨_, entry⟩ | alone
    · obtain ⟨part, included, falsy⟩ :=
        (conditionVerdict?_intersection_eq_alwaysFalsy_iff entry).mp reported
      rcases (same.mem_generic reported (by decide)).mp included with rfl | kept
      · obtain ⟨own, falsy⟩ := same.falsy_of_parameter falsy
        exact taken type (List.mem_append_left _ own) falsy
      · exact taken part (List.mem_append_right _ (mem_keptConstituents.mp kept).1) falsy
    · rcases collapsed alone with rfl | ⟨part, included, falsy⟩
      · exact .inl (same.conditionVerdict?_type (alone ▸ reported))
      · exact taken part (List.mem_append_left _ included) falsy

/-- Where the constituents of the type are solid, so are those of the intersection. -/
theorem solid_of_mem_generic (reported : t.conditionVerdict? generic = some .alwaysTruthy)
    (solid : ∀ part ∈ t.intersectionParts type, t.Solid (t.constrained part))
    (included : part ∈ t.intersectionParts generic) : t.Solid (t.constrained part) := by
  rcases same.intersection_or_alone reported (by decide) with ⟨_, entry⟩ | alone
  · exact (conditionVerdict?_intersection_eq_alwaysTruthy_iff entry).mp reported part included
  · rw [alone] at included reported
    rw [(mem_intersectionParts_of_single same.stands.not_intersection).mp included,
      same.constrained_eq reported]
    rcases intersection_or_single t type with ⟨_, entry⟩ | single
    · rw [constrained_of_intersection entry]
      exact solid_of_intersection entry
    · exact solid type ((mem_intersectionParts_of_single single).mpr rfl)

/-- A verdict "always truthy" holds for an instance that is an intersection exactly if every
constituent of the type is solid. -/
theorem alwaysTruthy_iff (reported : t.conditionVerdict? generic = some .alwaysTruthy)
    {parts : List TypeId} (entry : t.get? fixed = some (.intersection parts)) :
    (t.conditionVerdict? fixed = some .alwaysTruthy ∨ t.conditionVerdict? fixed = some .never) ↔
      ∀ part ∈ t.intersectionParts type, t.Solid (t.constrained part) := by
  have kept := same.wellFormed.mem_intersectionParts_of_intersection same.fixed_eq entry
  rw [or_iff_left (conditionVerdict?_intersection_ne_never entry),
    conditionVerdict?_intersection_eq_alwaysTruthy_iff entry]
  constructor
  · intro solid part included
    by_cases unknown : part = .unknown
    · subst unknown
      rw [same.wellFormed.isOpen_unknown.constrained_eq]
      exact same.wellFormed.isOpen_unknown.solid
    · exact solid part ((kept part).mpr (mem_keptConstituents_cons.mpr (.inl ⟨included, unknown⟩)))
  · intro solid part included
    rcases mem_keptConstituents_cons.mp ((kept part).mp included) with ⟨own, _⟩ | other
    · exact solid part own
    · exact same.solid_of_mem_generic reported solid
        ((same.mem_generic reported (by decide)).mpr (.inr other))

/-- A verdict "always truthy" holds for an instance that is no intersection if nothing in it hides
what it can be. -/
theorem alwaysTruthy_of_single (reported : t.conditionVerdict? generic = some .alwaysTruthy)
    (single : ∀ parts, t.get? fixed ≠ some (.intersection parts))
    (shown : (generic = parameter ∧ fixed = type) ∨
      t.hasKind (t.constrained fixed) hidingKinds = false) :
    t.conditionVerdict? fixed = some .alwaysTruthy ∨ t.conditionVerdict? fixed = some .never := by
  have regular := same.wellFormed.toRegular
  rcases shown with ⟨rfl, rfl⟩ | shown
  · exact .inl (same.conditionVerdict?_type reported)
  · rcases same.wellFormed.intersectionParts_intersection same.fixed_eq with
      ⟨rfl, _⟩ | ⟨rfl, _⟩ | ⟨rfl, _⟩ | kept
    · exact .inr same.wellFormed.conditionVerdict?_never
    · exact absurd shown same.wellFormed.isOpen_any.not_settled
    · exact absurd shown same.wellFormed.isOpen_unknown.not_settled
    · rcases same.intersection_or_alone reported (by decide) with ⟨_, entry⟩ | alone
      · -- A constituent of the others is left, and it is all that the instance is.
        obtain ⟨other, belongs⟩ := same.exists_kept entry
        have included := (kept other).mpr (mem_keptConstituents_cons.mpr (.inr belongs))
        have solid := (conditionVerdict?_intersection_eq_alwaysTruthy_iff entry).mp reported other
          ((same.mem_generic reported (by decide)).mpr (.inr belongs))
        rw [(mem_intersectionParts_of_single single).mp included] at solid
        exact conditionVerdict?_of_solid regular solid shown
      · rw [alone] at reported
        have typeReported := same.conditionVerdict?_type reported
        have included := (kept fixed).mp ((mem_intersectionParts_of_single single).mpr rfl)
        rcases mem_keptConstituents_cons.mp included with ⟨own, _⟩ | other
        · rcases intersection_or_single t type with ⟨_, entry⟩ | whole
          · have solid := (conditionVerdict?_intersection_eq_alwaysTruthy_iff entry).mp typeReported
            exact conditionVerdict?_of_solid regular (solid fixed own) shown
          · rw [(mem_intersectionParts_of_single whole).mp own]
            exact .inl typeReported
        · rw [same.eq_parameter_of_alone reported (by decide) alone other]
          exact .inl reported

end Instance

/-!
## Instances in tables that are built
-/

theorem StandsFor.contains_parameter (stands : t.StandsFor type parameter) :
    t.contains parameter = true := by
  obtain ⟨name, constraint, entry, _⟩ := stands.entry
  exact contains_iff.mpr (lt_size_of_get? entry)

theorem StandsFor.of_grown {u : Table} (stands : t.StandsFor type parameter)
    (grown : t.entries.toList <+: u.entries.toList) : u.StandsFor type parameter := by
  obtain ⟨name, constraint, entry, bounded⟩ := stands.entry
  exact ⟨contains_of_grown grown stands.contained, stands.ne_any, name, constraint,
    get?_of_grown grown entry, bounded⟩

theorem Grows.of_intersection {u : Table} (contained : ∀ id ∈ members, t.contains id = true)
    (joined : t.intersection members = (u, r)) : t.Grows u := by
  have call : t.Grows (t.intersection members).1 :=
    .call (.intersection members) .refl contained
  rwa [joined] at call

/-- Two intersections that are built one after the other are found again in what the table grows
to. -/
theorem Reached.instance {first second u : Table} (reached : t.Reached)
    (stands : t.StandsFor type parameter)
    (contained : ∀ member ∈ others, t.contains member = true)
    (joined : t.intersection (parameter :: others) = (first, generic))
    (replaced : first.intersection (type :: others) = (second, fixed))
    (grows : second.Grows u) : u.Instance parameter type others generic fixed := by
  have containedGeneric : ∀ id ∈ parameter :: others, t.contains id = true :=
    List.forall_mem_cons.mpr ⟨stands.contains_parameter, contained⟩
  have built : t.Grows first := .of_intersection containedGeneric joined
  have containedFixed : ∀ id ∈ type :: others, first.contains id = true := by
    refine List.forall_mem_cons.mpr ⟨contains_of_grown built.grown stands.contained, ?_⟩
    exact fun member included => contains_of_grown built.grown (contained member included)
  have later : first.Grows u := (Grows.of_intersection containedFixed replaced).trans grows
  have wellFormed := ((reached.grows built).grows later).wellFormed
  exact {
    wellFormed := wellFormed
    stands := stands.of_grown (built.trans later).grown
    generic_eq := reached.wellFormed.indexed.intersection_of_grown wellFormed.indexed
      containedGeneric joined (built.trans later).grown later.grown
    fixed_eq := (reached.grows built).wellFormed.indexed.intersection_of_grown wellFormed.indexed
      containedFixed replaced later.grown grows.grown }

end ConditionLint.Table
