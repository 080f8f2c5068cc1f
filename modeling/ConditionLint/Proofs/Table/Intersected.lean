import ConditionLint.Proofs.Table.Canonical

/-!
# Laws of intersections

An intersection comes to what is among the constituents of the types it is given: `never` if that is
there, else `any` if that is there, else all of them but `unknown`. Order, repetitions and grouping
make no difference to the table and the type that are left, and the intersections in tables that are
built from the well-known types are in a normal form which a further intersection does not change.
-/

set_option autoImplicit false

namespace ConditionLint.Table

variable {t u : Table} {id r : TypeId} {xs ys members : List TypeId}

/-!
## What intersections come to
-/

/-- What the intersection of types comes to. -/
def intersectionForm (t : Table) (members : List TypeId) : Joined :=
  formOf .never .any .unknown (members.flatMap t.intersectionParts) (t.keptConstituents members)

theorem intersection_eq_enter (t : Table) (members : List TypeId) :
    t.intersection members = t.enter .intersection (t.intersectionForm members) := by
  unfold intersection intersectionForm formOf
  simp only [List.contains_iff_mem]
  split
  · rfl
  · split
    · rfl
    · exact (enter_joinedOf t .intersection .unknown (t.keptConstituents members)).symm

/-- Only the constituents matter, and of these `unknown` does not. -/
theorem intersectionForm_congr (same : ∀ id, id ≠ .unknown →
      (id ∈ xs.flatMap t.intersectionParts ↔ id ∈ ys.flatMap t.intersectionParts)) :
    t.intersectionForm xs = t.intersectionForm ys := by
  refine formOf_congr (same _ (by decide)) (same _ (by decide)) fun _ _ id => ?_
  rw [mem_keptConstituents, mem_keptConstituents]
  exact and_congr_left (same id)

/-!
## Laws
-/

theorem WellFormed.intersectionParts_of_mem_collapsed (wellFormed : t.WellFormed)
    (taken : id ∈ collapsed) : t.intersectionParts id = [id] := by
  obtain ⟨keyword, entry⟩ := wellFormed.get?_of_mem_collapsed taken
  exact intersectionParts_of_not_intersection (by simp [entry])

theorem intersection_congr (same : ∀ id, id ∈ xs ↔ id ∈ ys) :
    t.intersection xs = t.intersection ys := by
  have flat : ∀ id, id ≠ .unknown →
      (id ∈ xs.flatMap t.intersectionParts ↔ id ∈ ys.flatMap t.intersectionParts) := by
    intro id _
    simp only [List.mem_flatMap, same]
  rw [intersection_eq_enter, intersection_eq_enter, intersectionForm_congr flat]

theorem WellFormed.intersection_unknown_cons (wellFormed : t.WellFormed) (xs : List TypeId) :
    t.intersection (.unknown :: xs) = t.intersection xs := by
  have single : t.intersectionParts .unknown = [.unknown] :=
    wellFormed.intersectionParts_of_mem_collapsed (by decide)
  have flat : ∀ id, id ≠ .unknown → (id ∈ (TypeId.unknown :: xs).flatMap t.intersectionParts ↔
      id ∈ xs.flatMap t.intersectionParts) := by
    intro id other
    simp [single, other]
  rw [intersection_eq_enter, intersection_eq_enter, intersectionForm_congr flat]

theorem intersection_of_never_mem (taken : .never ∈ xs.flatMap t.intersectionParts) :
    t.intersection xs = (t, .never) := by
  rw [intersection_eq_enter, intersectionForm, formOf, if_pos taken]
  rfl

theorem intersection_of_any_mem (noNever : .never ∉ xs.flatMap t.intersectionParts)
    (taken : .any ∈ xs.flatMap t.intersectionParts) : t.intersection xs = (t, .any) := by
  rw [intersection_eq_enter, intersectionForm, formOf, if_neg noNever, if_pos taken]
  rfl

/-- An intersection in the place of the types that it is made of makes no difference. -/
theorem WellFormed.intersection_cons_intersection (wellFormed : t.WellFormed)
    (met : t.intersection xs = (t, r)) (ys : List TypeId) :
    t.intersection (r :: ys) = t.intersection (xs ++ ys) := by
  have alone : r ∈ collapsed → t.intersectionParts r = [r] :=
    wellFormed.intersectionParts_of_mem_collapsed
  -- Unless `never` or `any` takes `xs` over, its constituents other than `unknown` are left.
  have spliced (own : ∀ id, id ≠ .unknown →
      (id ∈ t.intersectionParts r ↔ id ∈ xs.flatMap t.intersectionParts)) :
      t.intersectionForm (r :: ys) = t.intersectionForm (xs ++ ys) := by
    refine intersectionForm_congr fun id other => ?_
    rw [List.flatMap_cons, List.flatMap_append, List.mem_append, List.mem_append, own id other]
  rw [intersection_eq_enter, intersection_eq_enter]
  refine congrArg _ ?_
  rcases wellFormed.intersectionParts_intersection met with
    ⟨rfl, never⟩ | ⟨rfl, any, noNever⟩ | ⟨rfl, nothing⟩ | kept
  · rw [intersectionForm, intersectionForm, formOf, formOf, if_pos, if_pos]
    · rw [List.flatMap_append]
      exact List.mem_append_left _ never
    · rw [List.flatMap_cons, alone (by decide)]
      exact List.mem_cons_self
  · refine formOf_congr ?_ ?_ fun _ noAny => absurd ?_ noAny
    · rw [List.flatMap_cons, List.flatMap_append, List.mem_append, List.mem_append,
        alone (by decide), or_congr_left (iff_of_false (by decide) noNever)]
    · rw [List.flatMap_cons, List.flatMap_append, List.mem_append, List.mem_append,
        alone (by decide), or_congr_left (iff_of_true (by decide) any)]
    · rw [List.flatMap_cons, alone (by decide)]
      exact List.mem_cons_self
  · refine spliced fun id other => iff_of_false ?_ fun included => ?_
    · rwa [alone (by decide), List.mem_singleton]
    · have kept := mem_keptConstituents.mpr ⟨included, other⟩
      rw [nothing] at kept
      cases kept
  · refine spliced fun id other => ?_
    rw [kept, mem_keptConstituents, and_iff_left other]

/-- An intersection of intersections is the intersection of everything that they are made of. -/
theorem WellFormed.intersection_pair (wellFormed : t.WellFormed) {first second : TypeId}
    (left : t.intersection xs = (t, first)) (right : t.intersection ys = (t, second)) :
    t.intersection [first, second] = t.intersection (xs ++ ys) :=
  calc t.intersection [first, second]
      = t.intersection (xs ++ [second]) := wellFormed.intersection_cons_intersection left [second]
    _ = t.intersection (second :: xs) := intersection_congr (by simp [or_comm])
    _ = t.intersection (ys ++ xs) := wellFormed.intersection_cons_intersection right xs
    _ = t.intersection (xs ++ ys) := intersection_congr (by simp [or_comm])

/-!
## Built tables
-/

/-- The constituents of a normalized intersection: at least two, in increasing order, none of them
an intersection or a type that takes an intersection over or adds nothing to it. -/
structure CanonicalConstituents (t : Table) (members : List TypeId) : Prop where
  several : 2 ≤ members.length
  increasing : members.Pairwise (·.index < ·.index)
  flat : ∀ member ∈ members, ∀ inner, t.get? member ≠ some (.intersection inner)
  plain : ∀ member ∈ members, member ≠ .never ∧ member ≠ .any ∧ member ≠ .unknown

theorem CanonicalConstituents.of_grown (canonical : t.CanonicalConstituents members)
    (grown : t.entries.toList <+: u.entries.toList)
    (contained : ∀ member ∈ members, t.contains member = true) :
    u.CanonicalConstituents members where
  several := canonical.several
  increasing := canonical.increasing
  flat member included := by
    rw [get?_eq_of_grown grown (contained member included)]
    exact canonical.flat member included
  plain := canonical.plain

/-- An intersection that has to be interned is normalized, whatever intersections it is made of. -/
theorem Regular.canonicalConstituents_of_intersectionForm (regular : t.Regular)
    (entry : t.intersectionForm xs = .entry members) : t.CanonicalConstituents members := by
  obtain ⟨⟨noNever, noAny⟩, rfl, several⟩ := entry_of_formOf entry
  have kept : ∀ member ∈ ascending (t.keptConstituents xs),
      member ∈ xs.flatMap t.intersectionParts ∧ member ≠ .unknown :=
    fun member included => mem_keptConstituents.mp (mem_ascending.mp included)
  refine ⟨several, pairwise_ascending _, ?_, ?_⟩
  · intro member included
    obtain ⟨_, _, belongs⟩ := List.mem_flatMap.mp (kept member included).1
    exact regular.get?_ne_intersection_of_mem_intersectionParts belongs
  · intro member included
    obtain ⟨constituent, known⟩ := kept member included
    exact ⟨fun never => noNever (never ▸ constituent), fun any => noAny (any ▸ constituent), known⟩

/-- An intersection of the table after a call was there before, or it is what the call has made. -/
private theorem intersection_of_run {call : BuilderCall}
    (found : (call.run t).1.get? id = some (.intersection members)) :
    t.get? id = some (.intersection members) ∨
      ∃ xs, call = .intersection xs ∧ t.intersectionForm xs = .entry members := by
  cases call with
  | intersection xs =>
      rw [BuilderCall.run, intersection_eq_enter] at found
      cases met : t.intersectionForm xs with
      | known single => exact .inl (by simpa [met, enter] using found)
      | entry parts =>
          rw [met] at found
          refine (get?_intern_cases found).imp_right fun same => ⟨xs, rfl, ?_⟩
          rw [met, Descriptor.intersection.inj same]
  | union parts =>
      refine .inl ?_
      rcases union_cases t parts with ⟨single, _, same⟩ | ⟨_, interned⟩
      · rwa [BuilderCall.run, same] at found
      · rw [BuilderCall.run, interned] at found
        exact (get?_intern_cases found).resolve_right (by simp)
  | _ => exact .inl ((get?_intern_cases found).resolve_right (by simp))

private theorem get?_initial_ne_intersection : initial.get? id ≠ some (.intersection members) := by
  intro entry
  have entries := entries_of_ofDescriptors? ofDescriptors?_wellKnown
  rw [get?, ← Array.getElem?_toList, entries] at entry
  have noIntersection : ∀ d ∈ wellKnown, d.kind ≠ .intersection := by decide
  exact noIntersection _ (List.mem_of_getElem? entry) rfl

/-- Every intersection of a table that is built from the well-known types is normalized. -/
theorem canonicalConstituents_of_grows (grows : initial.Grows t)
    (entry : t.get? id = some (.intersection members)) : t.CanonicalConstituents members := by
  induction grows generalizing id members with
  | refl => exact absurd entry get?_initial_ne_intersection
  | @call t call before contained ih =>
      have regular := (wellFormed_of_grows before).toRegular
      have grown := entries_prefix_run t call
      rcases intersection_of_run entry with old | ⟨xs, rfl, met⟩
      · exact (ih old).of_grown grown fun member => regular.contains_of_mem_references old
      · refine (regular.canonicalConstituents_of_intersectionForm met).of_grown grown
          fun member included => ?_
        obtain ⟨_, rfl, _⟩ := entry_of_formOf met
        exact regular.contains_of_mem_keptConstituents contained (mem_ascending.mp included)

/-!
## Laws of intersections in built tables
-/

/-- In a normalized intersection of its own every constituent is kept. -/
theorem CanonicalConstituents.keptConstituents_eq (canonical : t.CanonicalConstituents members)
    (flat : xs.flatMap t.intersectionParts = members) : t.keptConstituents xs = members := by
  rw [keptConstituents, flat]
  refine List.filter_eq_self.mpr fun member included => ?_
  simp [(canonical.plain member included).2.2]

/-- What has exactly the constituents of a normalized intersection is that intersection. -/
theorem WellFormed.intersection_of_canonicalConstituents (wellFormed : t.WellFormed)
    (canonical : t.CanonicalConstituents members)
    (flat : xs.flatMap t.intersectionParts = members)
    (entry : t.get? id = some (.intersection members)) : t.intersection xs = (t, id) := by
  refine wellFormed.intersection_of_get? ?_ ?_ ?_ entry
  · rw [flat]
    exact fun never => (canonical.plain _ never).1 rfl
  · rw [flat]
    exact fun any => (canonical.plain _ any).2.1 rfl
  · rw [canonical.keptConstituents_eq flat, ascending_of_increasing canonical.increasing]

theorem intersection_singleton (built : initial.Grows t) (id : TypeId) :
    t.intersection [id] = (t, id) := by
  have wellFormed := wellFormed_of_grows built
  have flat : [id].flatMap t.intersectionParts = t.intersectionParts id := by simp
  rcases intersection_or_single t id with ⟨members, entry⟩ | single
  · exact wellFormed.intersection_of_canonicalConstituents
      (canonicalConstituents_of_grows built entry)
      (flat.trans (intersectionParts_of_intersection entry)) entry
  · rw [intersectionParts_of_not_intersection single] at flat
    rw [intersection_eq_enter]
    unfold intersectionForm formOf keptConstituents
    rw [flat]
    by_cases never : id = .never
    · subst never
      rfl
    by_cases any : id = .any
    · subst any
      rfl
    by_cases unknown : id = .unknown
    · subst unknown
      rfl
    have noNever : TypeId.never ∉ [id] := by simpa using Ne.symm never
    have noAny : TypeId.any ∉ [id] := by simpa using Ne.symm any
    have kept : [id].filter (· != .unknown) = [id] := by simp [unknown]
    rw [if_neg noNever, if_neg noAny, kept]
    rfl

/-- In a built table `never` is a constituent of listed types only if it is listed itself. -/
private theorem never_mem_flatMap_iff (built : initial.Grows t) :
    .never ∈ xs.flatMap t.intersectionParts ↔ .never ∈ xs := by
  have wellFormed := wellFormed_of_grows built
  constructor
  · intro constituent
    obtain ⟨member, listed, belongs⟩ := List.mem_flatMap.mp constituent
    rcases intersection_or_single t member with ⟨parts, entry⟩ | single
    · rw [intersectionParts_of_intersection entry] at belongs
      exact absurd rfl ((canonicalConstituents_of_grows built entry).plain _ belongs).1
    · rwa [(mem_intersectionParts_of_single single).mp belongs]
  · intro listed
    refine List.mem_flatMap.mpr ⟨.never, listed, ?_⟩
    rw [wellFormed.intersectionParts_of_mem_collapsed (by decide)]
    exact List.mem_singleton.mpr rfl

/-- In a table that is built from the well-known types every intersection is normalized. The
intersection of one type is that type, and the intersection of a list depends on what is in it only,
`unknown` aside; it is `never` if `never` is in it, and otherwise `any` if `any` is in it. However
the table grows, the same call answers with the same type, and intersecting two intersections that
were made on the way is intersecting everything that they are made of. -/
theorem intersections_canonical (built : initial.Grows t) :
    (∀ id members, t.get? id = some (.intersection members) → t.CanonicalConstituents members) ∧
      (∀ id, t.contains id = true → t.intersection [id] = (t, id)) ∧
      ∀ xs, (∀ id ∈ xs, t.contains id = true) →
        (∀ ys, (∀ id, id ∈ ys ↔ id ∈ xs) → t.intersection ys = t.intersection xs) ∧
        t.intersection (.unknown :: xs) = t.intersection xs ∧
        (.never ∈ xs → t.intersection xs = (t, .never)) ∧
        (.never ∉ xs → .any ∈ xs → t.intersection xs = (t, .any)) ∧
        ∀ later, (t.intersection xs).1.Grows later →
          later.intersection xs = (later, (t.intersection xs).2) ∧
          ∀ ys, (∀ id ∈ ys, later.contains id = true) →
            ∀ last, (later.intersection ys).1.Grows last →
              last.intersection [(t.intersection xs).2, (later.intersection ys).2] =
                last.intersection (xs ++ ys) := by
  have wellFormed := wellFormed_of_grows built
  refine ⟨fun _ _ => canonicalConstituents_of_grows built,
    fun id _ => intersection_singleton built id, fun xs contained =>
    ⟨fun ys same => intersection_congr same, wellFormed.intersection_unknown_cons xs,
      fun never => ?_, fun noNever any => ?_, fun later grows => ?_⟩⟩
  · exact intersection_of_never_mem ((never_mem_flatMap_iff built).mpr never)
  · have single : t.intersectionParts .any = [.any] :=
      wellFormed.intersectionParts_of_mem_collapsed (by decide)
    exact intersection_of_any_mem (mt (never_mem_flatMap_iff built).mp noNever)
      (List.mem_flatMap.mpr ⟨.any, any, by simp [single]⟩)
  have toLater : initial.Grows later := (built.call (.intersection xs) contained).trans grows
  have before : t.entries.toList <+: later.entries.toList :=
    (entries_prefix_run t (.intersection xs)).trans grows.grown
  refine ⟨wellFormed.indexed.intersection_of_grown (wellFormed_of_grows toLater).indexed contained
    rfl before grows.grown, fun ys containedLater last growsOn => ?_⟩
  have toLast : initial.Grows last :=
    (toLater.call (.intersection ys) containedLater).trans growsOn
  have onwards : later.entries.toList <+: last.entries.toList :=
    (entries_prefix_run later (.intersection ys)).trans growsOn.grown
  have wellFormedLast := wellFormed_of_grows toLast
  have left := wellFormed.indexed.intersection_of_grown wellFormedLast.indexed contained rfl
    (before.trans onwards) (grows.grown.trans onwards)
  have right := (wellFormed_of_grows toLater).indexed.intersection_of_grown wellFormedLast.indexed
    containedLater rfl onwards growsOn.grown
  exact wellFormedLast.intersection_pair left right

namespace BrandedName

private theorem grows_joined : initial.Grows joined.1 :=
  grows_parameter.call (.union [parameter.2, .null, .never, name.2]) contains_members

end BrandedName

open BrandedName in
/-- The union of `T`, `null` and `"a"` under a brand is found again, with `unknown` or without, and
intersecting it with `string` under the brand is intersecting all three. What is intersected with
`any` comes to `any`, and with `never` to `never`. -/
theorem branded_canonical :
    initial.Grows joined.1 ∧ (∀ id ∈ [joined.2, .object], joined.1.contains id = true) ∧
      branded.1.intersection [joined.2, .object] = (branded.1, branded.2) ∧
      joined.1.intersection [.unknown, joined.2, .object] = (branded.1, branded.2) ∧
      (branded.1.intersection [.string, .object]).1.intersection
          [branded.2, (branded.1.intersection [.string, .object]).2] =
        (branded.1.intersection [.string, .object]).1.intersection
          [joined.2, .object, .string, .object] ∧
      joined.1.intersection [.any, .string] = (joined.1, .any) ∧
      joined.1.intersection [.any, .string, .never] = (joined.1, .never) := by
  obtain ⟨_, _, intersections⟩ := intersections_canonical grows_joined
  obtain ⟨_, unknown, _, _, further⟩ := intersections _ contains_brand
  obtain ⟨again, pairs⟩ := further branded.1 .refl
  have contained : ∀ id ∈ [TypeId.any, .string, .never], joined.1.contains id = true := by
    simp only [List.forall_mem_cons]
    have wellFormed := reached_joined.wellFormed
    exact ⟨wellFormed.contains_wellKnown (by decide), wellFormed.contains_wellKnown (by decide),
      wellFormed.contains_wellKnown (by decide), by simp⟩
  have containedLater : ∀ id ∈ [TypeId.string, .object], branded.1.contains id = true := by
    simp only [List.forall_mem_cons]
    have wellFormed := reached_branded.wellFormed
    exact ⟨wellFormed.contains_wellKnown (by decide), wellFormed.contains_wellKnown (by decide),
      by simp⟩
  obtain ⟨_, _, _, any, _⟩ := intersections [.any, .string] fun id included =>
    contained id ((List.prefix_append [TypeId.any, .string] [.never]).mem included)
  obtain ⟨_, _, never, _⟩ := intersections _ contained
  exact ⟨grows_joined, contains_brand, again, unknown, pairs _ containedLater _ .refl,
    any (by decide) (by decide), never (by decide)⟩

end ConditionLint.Table
