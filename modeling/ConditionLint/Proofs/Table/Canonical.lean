import ConditionLint.Proofs.Table.Builders
import ConditionLint.Proofs.Table.Joined

/-!
# Canonical unions

The unions in the tables that are built from the well-known types are in a normal form: a union of
such types that is joined once more stays what it is. An accepted list may have other unions, such
as one with `any` or one out of order, so this is about built tables only.
-/

set_option autoImplicit false

namespace ConditionLint.Table

variable {t u : Table} {id r : TypeId} {xs ys members : List TypeId}

/-- The members of a normalized union: at least two, in increasing order, none of them a union or a
type that takes a union over or adds nothing to it, and no literal beside its primitive. -/
structure CanonicalMembers (t : Table) (members : List TypeId) : Prop where
  several : 2 ≤ members.length
  increasing : members.Pairwise (·.index < ·.index)
  flat : ∀ member ∈ members, ∀ inner, t.get? member ≠ some (.union inner)
  plain : ∀ member ∈ members, member ≠ .any ∧ member ≠ .unknown ∧ member ≠ .never
  widened : ∀ member ∈ members, ∀ value primitive, t.get? member = some (.literal value) →
    value.primitive? = some primitive → primitive ∉ members

/-- Every union of the table is normalized. -/
def Canonical (t : Table) : Prop :=
  ∀ id members, t.get? id = some (.union members) → t.CanonicalMembers members

/-!
## Built tables
-/

theorem CanonicalMembers.of_grown (canonical : t.CanonicalMembers members)
    (grown : t.entries.toList <+: u.entries.toList)
    (contained : ∀ member ∈ members, t.contains member = true) : u.CanonicalMembers members where
  several := canonical.several
  increasing := canonical.increasing
  flat member included := by
    rw [get?_eq_of_grown grown (contained member included)]
    exact canonical.flat member included
  plain := canonical.plain
  widened member included := by
    rw [get?_eq_of_grown grown (contained member included)]
    exact canonical.widened member included

private theorem entry_of_joinedOf {nothing : TypeId} {kept : List TypeId}
    (entry : joinedOf nothing kept = .entry members) :
    members = ascending kept ∧ 2 ≤ members.length := by
  unfold joinedOf at entry
  split at entry
  · cases entry
  · cases entry
  · rename_i notEmpty notSingle
    cases entry
    exact ⟨rfl, two_le_length notEmpty notSingle⟩

theorem entry_of_formOf {first second nothing : TypeId} {flat kept : List TypeId}
    (entry : formOf first second nothing flat kept = .entry members) :
    (first ∉ flat ∧ second ∉ flat) ∧ members = ascending kept ∧ 2 ≤ members.length := by
  unfold formOf at entry
  split at entry
  · cases entry
  · rename_i noFirst
    split at entry
    · cases entry
    · rename_i noSecond
      exact ⟨⟨noFirst, noSecond⟩, entry_of_joinedOf entry⟩

private theorem entry_of_unionForm (entry : t.unionForm xs = .entry members) :
    (.any ∉ xs.flatMap t.unionParts ∧ .unknown ∉ xs.flatMap t.unionParts) ∧
      members = ascending (t.keptParts xs) ∧ 2 ≤ members.length := by
  rw [unionForm_eq_formOf] at entry
  exact entry_of_formOf entry

/-- A union that has to be interned is normalized, whatever unions it joins. -/
theorem WellFormed.canonicalMembers_of_unionForm (wellFormed : t.WellFormed)
    (entry : t.unionForm xs = .entry members) : t.CanonicalMembers members := by
  obtain ⟨⟨noAny, noUnknown⟩, rfl, several⟩ := entry_of_unionForm entry
  have kept : ∀ member ∈ ascending (t.keptParts xs), member ∈ t.keptParts xs :=
    fun member => mem_ascending.mp
  refine ⟨several, pairwise_ascending _, ?_, ?_, ?_⟩
  · intro member included
    obtain ⟨joined, _, belongs⟩ :=
      List.mem_flatMap.mp (mem_keptParts.mp (kept member included)).1
    exact wellFormed.get?_ne_union_of_mem_unionParts belongs
  · intro member included
    obtain ⟨joined, notNever, _⟩ := mem_keptParts.mp (kept member included)
    exact ⟨fun any => noAny (any ▸ joined), fun unknown => noUnknown (unknown ▸ joined), notNever⟩
  · intro member included value primitive literal widens beside
    obtain ⟨_, _, stays⟩ := mem_keptParts.mp (kept member included)
    have absorbed := isAbsorbed_iff.mpr ⟨value, primitive, literal, widens,
      (mem_keptParts.mp (kept primitive beside)).1⟩
    rw [absorbed] at stays
    cases stays

theorem get?_intern_cases {d e : Descriptor} (found : (t.intern d).1.get? id = some e) :
    t.get? id = some e ∨ e = d := by
  unfold intern at found
  split at found
  · exact .inl found
  · rcases get?_push_eq_some_iff.mp found with ⟨_, same⟩ | old
    · exact .inr same
    · exact .inl old

/-- A union of the table after a call was there before, or it is what the call has joined. -/
private theorem union_of_run {call : BuilderCall}
    (found : (call.run t).1.get? id = some (.union members)) :
    t.get? id = some (.union members) ∨
      ∃ xs, call = .union xs ∧ t.unionForm xs = .entry members := by
  cases call with
  | union xs =>
      rw [BuilderCall.run, union_eq_enter] at found
      cases joined : t.unionForm xs with
      | known single => exact .inl (by simpa [joined, enter] using found)
      | entry parts =>
          rw [joined] at found
          refine (get?_intern_cases found).imp_right fun same => ⟨xs, rfl, ?_⟩
          rw [joined, Descriptor.union.inj same]
  | intersection parts =>
      refine .inl ?_
      rcases intersection_cases t parts with ⟨single, _, same⟩ | ⟨_, interned⟩
      · rwa [BuilderCall.run, same] at found
      · rw [BuilderCall.run, interned] at found
        exact (get?_intern_cases found).resolve_right (by simp)
  | _ => exact .inl ((get?_intern_cases found).resolve_right (by simp))

theorem canonical_initial : initial.Canonical := by
  intro id members entry
  have wellFormed := wellFormed_of_ofDescriptors? ofDescriptors?_wellKnown
  have entries := entries_of_ofDescriptors? ofDescriptors?_wellKnown
  rw [get?, ← Array.getElem?_toList, entries] at entry
  have only : ∀ d ∈ wellKnown, d.kind = .union → d = .union [.true, .false] := by decide
  cases only _ (List.mem_of_getElem? entry) rfl
  have literal : ∀ member ∈ [TypeId.true, .false], ∃ value,
      initial.get? member = some (.literal (.boolean value)) := by
    simp only [List.forall_mem_cons]
    exact ⟨⟨true, wellFormed.get?_wellKnown rfl⟩, ⟨false, wellFormed.get?_wellKnown rfl⟩, by simp⟩
  refine ⟨by decide, by decide, ?_, by decide, ?_⟩
  · intro member included inner
    obtain ⟨value, found⟩ := literal member included
    simp [found]
  · intro member included value primitive found widens
    obtain ⟨boolean, entry⟩ := literal member included
    cases found.symm.trans entry
    cases widens

theorem wellFormed_of_grows (grows : initial.Grows t) : t.WellFormed :=
  Reached.wellFormed ⟨initial, .inl rfl, grows⟩

/-- Every union of a table that is built from the well-known types is normalized. -/
theorem canonical_of_grows (grows : initial.Grows t) : t.Canonical := by
  induction grows with
  | refl => exact canonical_initial
  | @call t call before contained ih =>
      intro id members entry
      have wellFormed := wellFormed_of_grows before
      have grown := entries_prefix_run t call
      rcases union_of_run entry with old | ⟨xs, rfl, joined⟩
      · exact (ih id members old).of_grown grown fun member =>
          wellFormed.contains_of_mem_references old
      · refine (wellFormed.canonicalMembers_of_unionForm joined).of_grown grown
          fun member included => ?_
        obtain ⟨_, rfl, _⟩ := entry_of_unionForm joined
        exact wellFormed.contains_of_mem_keptParts contained (mem_ascending.mp included)

/-!
## Normalized unions are fixed
-/

/-- In a normalized union of its own every member is kept. -/
theorem CanonicalMembers.keptParts_eq (canonical : t.CanonicalMembers members)
    (flat : xs.flatMap t.unionParts = members) : t.keptParts xs = members := by
  unfold keptParts
  rw [flat]
  refine List.filter_eq_self.mpr fun member included => ?_
  have stays : t.isAbsorbed members member = false := by
    rw [Bool.eq_false_iff, ne_eq, isAbsorbed_iff]
    rintro ⟨value, primitive, literal, widens, beside⟩
    exact canonical.widened member included value primitive literal widens beside
  simp [stays, (canonical.plain member included).2.2]

/-- What has exactly the members of a normalized union is that union. -/
theorem WellFormed.union_of_canonicalMembers (wellFormed : t.WellFormed)
    (canonical : t.CanonicalMembers members) (flat : xs.flatMap t.unionParts = members)
    (entry : t.get? id = some (.union members)) : t.union xs = (t, id) := by
  refine wellFormed.union_of_get? ?_ ?_ ?_ entry
  · rw [flat]
    exact fun any => (canonical.plain _ any).1 rfl
  · rw [flat]
    exact fun unknown => (canonical.plain _ unknown).2.1 rfl
  · rw [canonical.keptParts_eq flat, ascending_of_increasing canonical.increasing]

/-- The union of one type is that type. -/
theorem WellFormed.union_singleton (wellFormed : t.WellFormed) (canonical : t.Canonical)
    (id : TypeId) : t.union [id] = (t, id) := by
  have flat : [id].flatMap t.unionParts = t.unionParts id := by simp
  rcases union_or_single t id with ⟨members, entry⟩ | single
  · exact wellFormed.union_of_canonicalMembers (canonical id members entry)
      (flat.trans (unionParts_of_union entry)) entry
  · rw [unionParts_of_not_union single] at flat
    have itself : t.isAbsorbed [id] id = false := by
      rw [Bool.eq_false_iff, ne_eq, isAbsorbed_iff]
      rintro ⟨value, primitive, literal, widens, same⟩
      obtain ⟨keyword, _, entry⟩ := wellFormed.get?_primitive widens
      rw [List.mem_singleton.mp same, literal] at entry
      cases entry
    rw [union_eq_enter]
    unfold unionForm keptParts
    rw [flat]
    by_cases any : id = .any
    · subst any
      rfl
    by_cases unknown : id = .unknown
    · subst unknown
      rfl
    by_cases never : id = .never
    · subst never
      rfl
    have noAny : TypeId.any ∉ [id] := by simpa using Ne.symm any
    have noUnknown : TypeId.unknown ∉ [id] := by simpa using Ne.symm unknown
    have kept : [id].filter (fun part => part != .never && !t.isAbsorbed [id] part) = [id] := by
      simp [itself, never]
    rw [if_neg noAny, if_neg noUnknown, kept]
    rfl

/-!
## Laws of unions in built tables
-/

/-- In a table that is built from the well-known types every union is normalized. The union of one
type is that type, and the union of a list depends on what is in it only, `never` aside, and is
`any` if `any` is in it. However the table grows, the same call answers with the same type, and
joining two unions that were made on the way is joining everything that they join. -/
theorem unions_canonical (built : initial.Grows t) :
    t.Canonical ∧
      (∀ id, t.contains id = true → t.union [id] = (t, id)) ∧
      ∀ xs, (∀ id ∈ xs, t.contains id = true) →
        (∀ ys, (∀ id, id ∈ ys ↔ id ∈ xs) → t.union ys = t.union xs) ∧
        t.union (.never :: xs) = t.union xs ∧
        (.any ∈ xs → t.union xs = (t, .any)) ∧
        ∀ later, (t.union xs).1.Grows later →
          later.union xs = (later, (t.union xs).2) ∧
          ∀ ys, (∀ id ∈ ys, later.contains id = true) →
            ∀ last, (later.union ys).1.Grows last →
              last.union [(t.union xs).2, (later.union ys).2] = last.union (xs ++ ys) := by
  have wellFormed := wellFormed_of_grows built
  have canonical := canonical_of_grows built
  refine ⟨canonical, fun id _ => wellFormed.union_singleton canonical id, fun xs contained =>
    ⟨fun ys same => union_congr same, wellFormed.union_never_cons xs, fun any => ?_,
      fun later grows => ?_⟩⟩
  · have single : t.unionParts .any = [.any] :=
      wellFormed.unionParts_of_mem_collapsed (by decide)
    exact union_of_any_mem (List.mem_flatMap.mpr ⟨.any, any, by simp [single]⟩)
  have toLater : initial.Grows later := (built.call (.union xs) contained).trans grows
  have before : t.entries.toList <+: later.entries.toList :=
    (entries_prefix_run t (.union xs)).trans grows.grown
  refine ⟨wellFormed.union_of_grown (wellFormed_of_grows toLater).indexed contained rfl before
    grows.grown, fun ys containedLater last growsOn => ?_⟩
  have toLast : initial.Grows last := (toLater.call (.union ys) containedLater).trans growsOn
  have onwards : later.entries.toList <+: last.entries.toList :=
    (entries_prefix_run later (.union ys)).trans growsOn.grown
  have wellFormedLast := wellFormed_of_grows toLast
  have left := wellFormed.union_of_grown wellFormedLast.indexed contained rfl
    (before.trans onwards) (grows.grown.trans onwards)
  have right := (wellFormed_of_grows toLater).union_of_grown wellFormedLast.indexed containedLater
    rfl onwards growsOn.grown
  exact wellFormedLast.union_pair left right

theorem BrandedName.grows_parameter : initial.Grows parameter.1 := by
  have first : initial.Grows name.1 :=
    .call (.literal (.string "a")) .refl (by simp [BuilderCall.ids])
  exact first.call (.typeParameter "T" (some name.2))
    (by simpa [BuilderCall.ids] using contains_name)

open BrandedName in
/-- The union of `T`, `null` and `"a"` is found again, and joining it with the union of `null` and
`string`, which takes `"a"` up, is joining all of them. -/
theorem joined_canonical :
    initial.Grows parameter.1 ∧ parameter.1.Canonical ∧
      (∀ id ∈ [parameter.2, .null, .never, name.2], parameter.1.contains id = true) ∧
      joined.1.union [parameter.2, .null, .never, name.2] = (joined.1, joined.2) ∧
      (joined.1.union [.null, .string]).1.union [joined.2, (joined.1.union [.null, .string]).2] =
        (joined.1.union [.null, .string]).1.union
          [parameter.2, .null, .never, name.2, .null, .string] := by
  obtain ⟨canonical, _, unions⟩ := unions_canonical grows_parameter
  obtain ⟨_, _, _, further⟩ := unions _ contains_members
  obtain ⟨again, pairs⟩ := further joined.1 .refl
  have wellFormed := reached_joined.wellFormed
  have contained : ∀ id ∈ [TypeId.null, .string], joined.1.contains id = true := by
    simp only [List.forall_mem_cons]
    exact ⟨wellFormed.contains_wellKnown (by decide), wellFormed.contains_wellKnown (by decide),
      by simp⟩
  exact ⟨grows_parameter, canonical, contains_members, again, pairs _ contained _ .refl⟩

end ConditionLint.Table
