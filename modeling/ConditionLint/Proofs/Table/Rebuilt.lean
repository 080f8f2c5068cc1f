import ConditionLint.Proofs.Table.Intersected

/-!
# Building loaded unions and intersections again

The loader refuses a union or an intersection with less than two members or with one of its own
kind, and a union with `never`. The builders leave more shapes out: members out of order or
repeated, types that take the others over, and literals beside their primitive. So an entry of an
accepted list is what the builder answers for its members exactly if it is normalized.
-/

set_option autoImplicit false

namespace ConditionLint.Table

variable {t : Table} {id first second nothing : TypeId} {members flat kept : List TypeId}

private theorem known_of_joinedOf (known : joinedOf nothing kept = .known id) :
    id = nothing ∨ id ∈ kept := by
  unfold joinedOf at known
  split at known
  · cases known
    exact .inl rfl
  · rename_i single alone
    cases known
    refine .inr (mem_ascending.mp ?_)
    rw [alone]
    exact List.mem_singleton.mpr rfl
  · cases known

private theorem known_of_formOf (known : formOf first second nothing flat kept = .known id) :
    id ∈ [first, second, nothing] ∨ id ∈ kept := by
  unfold formOf at known
  split at known
  · cases known
    exact .inl (by simp)
  · split at known
    · cases known
      exact .inl (by simp)
    · rcases known_of_joinedOf known with rfl | included
      · exact .inl (by simp)
      · exact .inr included

/-- An entry that is answered was known already or has just been made. -/
theorem Indexed.of_enter (indexed : t.Indexed) {form : List TypeId → Descriptor} {joined : Joined}
    {d : Descriptor} (entry : t.get? id = some d) (answered : (t.enter form joined).2 = id) :
    joined = .known id ∨ ∃ parts, joined = .entry parts ∧ form parts = d := by
  cases joined with
  | known single =>
      cases answered
      exact .inl rfl
  | entry parts =>
      refine .inr ⟨parts, rfl, ?_⟩
      have made := indexed.get?_intern (form parts)
      have stays := get?_of_grown (entries_prefix_intern t (form parts)) entry
      rw [← answered, enter, made] at stays
      exact Option.some.inj stays

/-!
## Unions
-/

theorem WellFormed.canonicalMembers_of_rebuilt (wellFormed : t.WellFormed)
    (entry : t.get? id = some (.union members)) (answered : (t.union members).2 = id) :
    t.CanonicalMembers members := by
  rw [union_eq_enter] at answered
  rcases wellFormed.indexed.of_enter entry answered with known | ⟨parts, made, same⟩
  · rw [unionForm_eq_formOf] at known
    rcases known_of_formOf known with taken | included
    · obtain ⟨keyword, intrinsic⟩ := wellFormed.get?_of_mem_collapsed taken
      rw [intrinsic] at entry
      cases entry
    · obtain ⟨_, _, belongs⟩ := List.mem_flatMap.mp (mem_keptParts.mp included).1
      exact absurd entry (wellFormed.get?_ne_union_of_mem_unionParts belongs members)
  · cases same
    exact wellFormed.canonicalMembers_of_unionForm made

theorem CanonicalMembers.flatMap_unionParts (canonical : t.CanonicalMembers members) :
    members.flatMap t.unionParts = members := by
  have single : ∀ member ∈ members, t.unionParts member = [member] :=
    fun member included => unionParts_of_not_union (canonical.flat member included)
  rw [List.flatMap_congr single, List.flatMap_singleton']

/-!
## Intersections
-/

theorem WellFormed.canonicalConstituents_of_rebuilt (wellFormed : t.WellFormed)
    (entry : t.get? id = some (.intersection members))
    (answered : (t.intersection members).2 = id) : t.CanonicalConstituents members := by
  rw [intersection_eq_enter] at answered
  rcases wellFormed.indexed.of_enter entry answered with known | ⟨parts, made, same⟩
  · rcases known_of_formOf known with taken | included
    · have subset : [TypeId.never, .any, .unknown] ⊆ collapsed := by decide
      obtain ⟨keyword, intrinsic⟩ := wellFormed.get?_of_mem_collapsed (subset taken)
      rw [intrinsic] at entry
      cases entry
    · obtain ⟨_, _, belongs⟩ := List.mem_flatMap.mp (mem_keptConstituents.mp included).1
      exact absurd entry
        (wellFormed.get?_ne_intersection_of_mem_intersectionParts belongs members)
  · cases same
    exact wellFormed.canonicalConstituents_of_intersectionForm made

theorem CanonicalConstituents.flatMap_intersectionParts
    (canonical : t.CanonicalConstituents members) :
    members.flatMap t.intersectionParts = members := by
  have single : ∀ member ∈ members, t.intersectionParts member = [member] :=
    fun member included => intersectionParts_of_not_intersection (canonical.flat member included)
  rw [List.flatMap_congr single, List.flatMap_singleton']

/-!
## Accepted lists
-/

/-- Building the members of a loaded union or intersection again answers with its entry exactly if
they are normalized, and then it adds nothing to the table. -/
theorem loaded_rebuilt_iff {ds : List Descriptor} (accepted : ofDescriptors? ds = .ok t)
    (id : TypeId) (members : List TypeId) :
    (t.get? id = some (.union members) →
      ((t.union members).2 = id ↔ t.CanonicalMembers members) ∧
        (t.union members = (t, id) ↔ t.CanonicalMembers members)) ∧
      (t.get? id = some (.intersection members) →
        ((t.intersection members).2 = id ↔ t.CanonicalConstituents members) ∧
          (t.intersection members = (t, id) ↔ t.CanonicalConstituents members)) := by
  have wellFormed := wellFormed_of_ofDescriptors? accepted
  refine ⟨fun entry => ?_, fun entry => ?_⟩
  · have normal := wellFormed.canonicalMembers_of_rebuilt entry
    have rebuilt (canonical : t.CanonicalMembers members) : t.union members = (t, id) :=
      wellFormed.union_of_canonicalMembers canonical canonical.flatMap_unionParts entry
    exact ⟨⟨normal, fun canonical => congrArg Prod.snd (rebuilt canonical)⟩,
      ⟨fun same => normal (congrArg Prod.snd same), rebuilt⟩⟩
  · have normal := wellFormed.canonicalConstituents_of_rebuilt entry
    have rebuilt (canonical : t.CanonicalConstituents members) :
        t.intersection members = (t, id) :=
      wellFormed.intersection_of_canonicalConstituents canonical
        canonical.flatMap_intersectionParts entry
    exact ⟨⟨normal, fun canonical => congrArg Prod.snd (rebuilt canonical)⟩,
      ⟨fun same => normal (congrArg Prod.snd same), rebuilt⟩⟩

namespace Unordered

/-!
The union of `string` and `null` with its members out of order, and `string` under a brand.
-/

def descriptors : List Descriptor :=
  wellKnown ++ [.union [.string, .null], .intersection [.string, .object]]

def table : Table :=
  .ofList descriptors

private theorem accepted : ofDescriptors? descriptors = .ok table :=
  ofDescriptors?_eq_ok_iff.mpr ⟨⟨_, rfl⟩, by decide, rfl⟩

private theorem get?_nullable : table.get? ⟨14⟩ = some (.union [.string, .null]) := by
  decide

private theorem get?_branded : table.get? ⟨15⟩ = some (.intersection [.string, .object]) := by
  decide

private theorem not_canonical_nullable : ¬ table.CanonicalMembers [.string, .null] :=
  fun canonical => absurd canonical.increasing (by decide)

private theorem canonical_branded : table.CanonicalConstituents [.string, .object] where
  several := by decide
  increasing := by decide
  flat := by
    have entries : ∀ member ∈ [TypeId.string, .object],
        (table.get? member).map Descriptor.kind ≠ some .intersection := by decide
    intro member included inner nested
    exact entries member included (congrArg (Option.map Descriptor.kind) nested)
  plain := by decide

end Unordered

theorem unordered_rebuilt_as_other :
    ofDescriptors? Unordered.descriptors = .ok Unordered.table ∧
      (Unordered.table.union [.string, .null]).2 ≠ ⟨14⟩ ∧
      Unordered.table.intersection [.string, .object] = (Unordered.table, ⟨15⟩) := by
  have again := loaded_rebuilt_iff Unordered.accepted
  refine ⟨Unordered.accepted, ?_, ?_⟩
  · rw [ne_eq, ((again _ _).1 Unordered.get?_nullable).1]
    exact Unordered.not_canonical_nullable
  · exact ((again _ _).2 Unordered.get?_branded).2.mpr Unordered.canonical_branded

/-- A union out of order is loaded, and building it again makes another one. -/
theorem not_forall_loaded_rebuilt :
    ¬ ∀ (ds : List Descriptor) (t : Table) (id : TypeId) (members : List TypeId),
      ofDescriptors? ds = .ok t →
      (t.get? id = some (.union members) → t.union members = (t, id)) ∧
        (t.get? id = some (.intersection members) → t.intersection members = (t, id)) := by
  intro rebuilt
  have same := (rebuilt _ _ _ _ Unordered.accepted).1 Unordered.get?_nullable
  have wellFormed := wellFormed_of_ofDescriptors? Unordered.accepted
  exact Unordered.not_canonical_nullable
    (wellFormed.canonicalMembers_of_rebuilt Unordered.get?_nullable (congrArg Prod.snd same))

end ConditionLint.Table
