import ConditionLint.Proofs.Table.Union

/-!
# Constituents of normalized intersections

An intersection keeps the constituents of what it joins, but for `unknown`, unless `never` or `any`
takes it over. They are no intersections themselves.
-/

set_option autoImplicit false

namespace ConditionLint.Table

variable {t u : Table} {id r : TypeId} {members : List TypeId}

/-- The constituents of the joined types that the intersection keeps. -/
def keptConstituents (t : Table) (members : List TypeId) : List TypeId :=
  (members.flatMap t.intersectionParts).filter (· != .unknown)

theorem mem_keptConstituents {part : TypeId} :
    part ∈ t.keptConstituents members ↔
      part ∈ members.flatMap t.intersectionParts ∧ part ≠ .unknown := by
  simp [keptConstituents]

theorem keptConstituents_cons (t : Table) (id : TypeId) (members : List TypeId) :
    t.keptConstituents (id :: members) = t.keptConstituents [id] ++ t.keptConstituents members := by
  simp [keptConstituents]

theorem mem_keptConstituents_cons {part : TypeId} :
    part ∈ t.keptConstituents (id :: members) ↔
      (part ∈ t.intersectionParts id ∧ part ≠ .unknown) ∨ part ∈ t.keptConstituents members := by
  rw [keptConstituents_cons, List.mem_append, mem_keptConstituents, List.flatMap_singleton]

/-- An intersection is a type that is there already, or the constituents that are kept are
interned. -/
theorem intersection_cases (t : Table) (members : List TypeId) :
    (∃ id, (id ∈ collapsed ∨ id ∈ t.keptConstituents members) ∧
        t.intersection members = (t, id)) ∨
      (2 ≤ (ascending (t.keptConstituents members)).length ∧
        t.intersection members =
          t.intern (.intersection (ascending (t.keptConstituents members)))) := by
  unfold intersection
  simp only [List.contains_iff_mem]
  split
  · exact .inl ⟨.never, by simp [collapsed], rfl⟩
  · split
    · exact .inl ⟨.any, by simp [collapsed], rfl⟩
    · split
      · exact .inl ⟨.unknown, by simp [collapsed], rfl⟩
      · rename_i single kept
        have included : single ∈ ascending (t.keptConstituents members) := by
          rw [keptConstituents, kept]
          exact List.mem_singleton.mpr rfl
        exact .inl ⟨single, .inr (mem_ascending.mp included), rfl⟩
      · rename_i notEmpty notSingle
        exact .inr ⟨two_le_length notEmpty notSingle, rfl⟩

theorem Regular.get?_ne_intersection_of_mem_intersectionParts (regular : t.Regular) {part : TypeId}
    (included : part ∈ t.intersectionParts id) (members : List TypeId) :
    t.get? part ≠ some (.intersection members) := by
  rcases intersection_or_single t id with ⟨parts, entry⟩ | single
  · intro nested
    rw [intersectionParts_of_intersection entry] at included
    have flat := (irregularity?_eq_none_iff.mp (regular.members entry rfl)).2 part included
    simp [memberIrregularity?, nested] at flat
  · rw [(mem_intersectionParts_of_single single).mp included]
    exact single members

theorem WellFormed.get?_of_mem_collapsed (wellFormed : t.WellFormed) (taken : id ∈ collapsed) :
    ∃ keyword, t.get? id = some (.intrinsic keyword) := by
  simp only [collapsed, List.mem_cons, List.not_mem_nil, or_false] at taken
  rcases taken with rfl | rfl | rfl
  · exact ⟨.any, wellFormed.get?_wellKnown rfl⟩
  · exact ⟨.unknown, wellFormed.get?_wellKnown rfl⟩
  · exact ⟨.never, wellFormed.get?_wellKnown rfl⟩

/-!
## Intersections that need no new entry
-/

/-- The intersection is taken over by `never` or `any`, keeps nothing, or has the constituents that
are kept. -/
theorem Regular.intersectionParts_intersection (regular : t.Regular)
    (joined : t.intersection members = (t, r)) :
    (r = .never ∧ .never ∈ members.flatMap t.intersectionParts) ∨
      (r = .any ∧ .any ∈ members.flatMap t.intersectionParts ∧
        .never ∉ members.flatMap t.intersectionParts) ∨
      (r = .unknown ∧ t.keptConstituents members = []) ∨
      ∀ part, part ∈ t.intersectionParts r ↔ part ∈ t.keptConstituents members := by
  have same : ∀ {ids}, ascending (t.keptConstituents members) = ids →
      ∀ part, part ∈ ids ↔ part ∈ t.keptConstituents members := by
    rintro _ rfl part
    exact mem_ascending
  unfold intersection at joined
  simp only [List.contains_iff_mem] at joined
  split at joined
  · rename_i taken
    exact .inl ⟨(congrArg Prod.snd joined).symm, taken⟩
  · rename_i noNever
    split at joined
    · rename_i taken
      exact .inr (.inl ⟨(congrArg Prod.snd joined).symm, taken, noNever⟩)
    · split at joined
      · rename_i nothing
        refine .inr (.inr (.inl ⟨(congrArg Prod.snd joined).symm, ?_⟩))
        refine List.eq_nil_iff_forall_not_mem.mpr fun part kept => ?_
        cases (same nothing part).mpr kept
      · rename_i single found
        cases joined
        have kept := (same found r).mp (List.mem_singleton.mpr rfl)
        obtain ⟨member, _, belongs⟩ := List.mem_flatMap.mp (mem_keptConstituents.mp kept).1
        rw [intersectionParts_of_not_intersection
          (regular.get?_ne_intersection_of_mem_intersectionParts belongs)]
        exact .inr (.inr (.inr (same found)))
      · rw [intersectionParts_of_intersection (regular.get?_of_intern joined)]
        exact .inr (.inr (.inr (same rfl)))

/-- What is an intersection again has exactly the constituents that are kept, in their order. -/
theorem WellFormed.eq_ascending_of_intersection (wellFormed : t.WellFormed)
    (joined : t.intersection members = (t, r)) {parts : List TypeId}
    (entry : t.get? r = some (.intersection parts)) :
    parts = ascending (t.keptConstituents members) := by
  rcases intersection_cases t members with ⟨id, whole, taken⟩ | ⟨_, interned⟩
  · cases joined.symm.trans taken
    rcases whole with known | kept
    · obtain ⟨keyword, intrinsic⟩ := wellFormed.get?_of_mem_collapsed known
      rw [intrinsic] at entry
      cases entry
    · obtain ⟨member, _, belongs⟩ := List.mem_flatMap.mp (mem_keptConstituents.mp kept).1
      exact absurd entry (wellFormed.get?_ne_intersection_of_mem_intersectionParts belongs parts)
  · have found := wellFormed.get?_of_intern (interned.symm.trans joined)
    rw [entry] at found
    cases found
    rfl

theorem WellFormed.mem_intersectionParts_of_intersection (wellFormed : t.WellFormed)
    (joined : t.intersection members = (t, r)) {parts : List TypeId}
    (entry : t.get? r = some (.intersection parts)) (part : TypeId) :
    part ∈ t.intersectionParts r ↔ part ∈ t.keptConstituents members := by
  rw [intersectionParts_of_intersection entry,
    wellFormed.eq_ascending_of_intersection joined entry, mem_ascending]

theorem Regular.intersection_of_get? (regular : t.Regular)
    (noNever : .never ∉ members.flatMap t.intersectionParts)
    (noAny : .any ∉ members.flatMap t.intersectionParts) {parts : List TypeId}
    (ordered : ascending (t.keptConstituents members) = parts)
    (entry : t.get? r = some (.intersection parts)) : t.intersection members = (t, r) := by
  have several := (irregularity?_eq_none_iff.mp (regular.members entry rfl)).1
  rw [keptConstituents] at ordered
  unfold intersection
  simp only [List.contains_iff_mem, noNever, noAny, if_false, ordered]
  have found : t.intern (.intersection parts) = (t, r) := by
    simp [intern, regular.ids.mpr entry]
  rcases parts with _ | ⟨first, _ | ⟨second, rest⟩⟩
  · simp at several
  · simp at several
  · exact found

end ConditionLint.Table
