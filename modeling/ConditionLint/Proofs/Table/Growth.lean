import ConditionLint.Proofs.Table.Intersection

/-!
# Tables that the builders make

A builder answers with a type that the table has, or interns one descriptor. What it interns can
follow the entries before it, if it was given ids of the table. So every table that builder calls
make is valid and loads back as it is, entries stay where they are, and two descriptors have the
same id exactly if they are equal.
-/

set_option autoImplicit false

namespace ConditionLint

namespace Table

variable {t u start : Table} {d : Descriptor} {id : TypeId}

theorem contains_iff : t.contains id = true ↔ id.index < t.size := by
  simp [contains]

/-!
## Interning
-/

theorem Indexed.intern_of_get? (indexed : t.Indexed) (found : t.get? id = some d) :
    t.intern d = (t, id) := by
  simp [intern, indexed.mpr found]

theorem Indexed.intern_of_fresh (indexed : t.Indexed) (fresh : d ∉ t.entries.toList) :
    t.intern d = (t.push d, ⟨t.size⟩) := by
  simp [intern, indexed.ids_eq_none_iff.mpr fresh]

theorem Indexed.intern_cases (indexed : t.Indexed) (d : Descriptor) :
    (∃ id, t.get? id = some d ∧ t.intern d = (t, id)) ∨
      (d ∉ t.entries.toList ∧ t.intern d = (t.push d, ⟨t.size⟩)) := by
  cases found : t.ids[d]? with
  | none =>
      have fresh := indexed.ids_eq_none_iff.mp found
      exact .inr ⟨fresh, indexed.intern_of_fresh fresh⟩
  | some id =>
      have entry := indexed.mp found
      exact .inl ⟨id, entry, indexed.intern_of_get? entry⟩

theorem Indexed.intern (indexed : t.Indexed) (d : Descriptor) : (t.intern d).1.Indexed := by
  rcases indexed.intern_cases d with ⟨id, _, interned⟩ | ⟨fresh, interned⟩
  · rw [interned]
    exact indexed
  · rw [interned]
    exact indexed.push fresh

theorem Indexed.get?_intern (indexed : t.Indexed) (d : Descriptor) :
    (t.intern d).1.get? (t.intern d).2 = some d := by
  rcases indexed.intern_cases d with ⟨id, entry, interned⟩ | ⟨_, interned⟩
  · rw [interned]
    exact entry
  · rw [interned]
    exact get?_push_size t d

theorem entries_prefix_intern (t : Table) (d : Descriptor) :
    t.entries.toList <+: (t.intern d).1.entries.toList := by
  unfold intern
  split
  · exact List.prefix_refl _
  · rw [entries_push]
    exact List.prefix_append _ _

theorem get?_of_grown (grown : t.entries.toList <+: u.entries.toList)
    (found : t.get? id = some d) : u.get? id = some d := by
  rw [get?, ← Array.getElem?_toList] at found ⊢
  obtain ⟨rest, continued⟩ := grown
  rw [← continued, List.getElem?_append_left (List.getElem?_eq_some_iff.mp found).1]
  exact found

private theorem size_le_of_grown (grown : t.entries.toList <+: u.entries.toList) :
    t.size ≤ u.size := by
  simpa [size] using grown.length_le

theorem contains_of_grown (grown : t.entries.toList <+: u.entries.toList)
    (inside : t.contains id = true) : u.contains id = true :=
  contains_iff.mpr (Nat.lt_of_lt_of_le (contains_iff.mp inside) (size_le_of_grown grown))

/-- Two descriptors that are interned one after the other, with the table growing in between, get
the same id exactly if they are equal. -/
theorem Indexed.intern_eq_iff (indexed : t.Indexed) (later : u.Indexed)
    (grown : (t.intern d).1.entries.toList <+: u.entries.toList) {other : Descriptor} :
    (u.intern other).2 = (t.intern d).2 ↔ other = d := by
  have stays : u.get? (t.intern d).2 = some d := get?_of_grown grown (indexed.get?_intern d)
  constructor
  · intro same
    have first := get?_of_grown (entries_prefix_intern u other) stays
    have second := later.get?_intern other
    rw [same, first] at second
    exact (Option.some.inj second).symm
  · rintro rfl
    rw [later.intern_of_get? stays]

/-!
## Descriptors that can be interned
-/

/-- A descriptor refers to entries of the table only, and is flat if it is a union or an
intersection. -/
structure Admits (t : Table) (d : Descriptor) : Prop where
  references_lt : ∀ target ∈ d.references, target.index < t.size
  members : ∀ composite members, composite? d = some (composite, members) →
    t.irregularity? composite members = none

theorem Admits.follows (admits : t.Admits d) (fresh : d ∉ t.entries.toList) : t.Follows d :=
  ⟨admits.references_lt, admits.members, fresh⟩

private theorem followAll_append {ds rest : List Descriptor} :
    t.FollowAll (ds ++ rest) ↔ t.FollowAll ds ∧ (ds.foldl push t).FollowAll rest := by
  induction ds generalizing t with
  | nil => simp [FollowAll]
  | cons d ds ih => simp [FollowAll, ih, and_assoc]

private theorem ofDescriptors?_push (loads : ofDescriptors? t.entries.toList = .ok t)
    (follows : t.Follows d) :
    ofDescriptors? (t.push d).entries.toList = .ok (t.push d) := by
  obtain ⟨starts, follow, same⟩ := ofDescriptors?_eq_ok_iff.mp loads
  have built : t.entries.toList.foldl push empty = t := same.symm
  rw [ofDescriptors?_eq_ok_iff, entries_push]
  refine ⟨starts.trans (List.prefix_append _ _), ?_, ?_⟩
  · rw [followAll_append, built]
    exact ⟨follow, follows, trivial⟩
  · rw [ofList, List.foldl_append, built]
    rfl

theorem ofDescriptors?_intern (loads : ofDescriptors? t.entries.toList = .ok t)
    (admits : t.Admits d) :
    ofDescriptors? (t.intern d).1.entries.toList = .ok (t.intern d).1 := by
  have indexed := (wellFormed_of_ofDescriptors? loads).indexed
  rcases indexed.intern_cases d with ⟨id, _, interned⟩ | ⟨fresh, interned⟩
  · rw [interned]
    exact loads
  · rw [interned]
    exact ofDescriptors?_push loads (admits.follows fresh)

theorem entries_of_ofDescriptors? {ds : List Descriptor} (accepted : ofDescriptors? ds = .ok t) :
    t.entries.toList = ds := by
  obtain ⟨_, _, rfl⟩ := ofDescriptors?_eq_ok_iff.mp accepted
  simp [ofList, entries_foldl_push, empty]

theorem FollowAll.foldl_intern {ds : List Descriptor} (follow : t.FollowAll ds)
    (indexed : t.Indexed) : ds.foldl (fun t d => (t.intern d).1) t = ds.foldl push t := by
  induction ds generalizing t with
  | nil => rfl
  | cons d rest ih =>
      rw [List.foldl_cons, List.foldl_cons, indexed.intern_of_fresh follow.1.fresh]
      exact ih follow.2 (indexed.push follow.1.fresh)

theorem ofDescriptors?_wellKnown : ofDescriptors? wellKnown = .ok initial := by
  have follow : empty.FollowAll wellKnown := by decide
  have built : initial = ofList wellKnown := follow.foldl_intern regular_empty.indexed
  exact ofDescriptors?_eq_ok_iff.mpr ⟨List.prefix_refl _, follow, built⟩

/-!
## Parts of the table's types
-/

theorem WellFormed.contains_wellKnown (wellFormed : t.WellFormed)
    (known : id.index < wellKnown.length) : t.contains id = true := by
  have entry := wellFormed.get?_wellKnown (List.getElem?_eq_getElem known)
  exact contains_iff.mpr (lt_size_of_get? entry)

theorem Regular.contains_of_mem_references (regular : t.Regular) (found : t.get? id = some d)
    {target : TypeId} (reference : target ∈ d.references) : t.contains target = true :=
  contains_iff.mpr
    (Nat.lt_trans (regular.references_lt found reference) (lt_size_of_get? found))

theorem Regular.contains_of_mem_unionParts (regular : t.Regular) (contained : t.contains id = true)
    {part : TypeId} (included : part ∈ t.unionParts id) : t.contains part = true := by
  rcases union_or_single t id with ⟨members, entry⟩ | single
  · rw [unionParts_of_union entry] at included
    exact regular.contains_of_mem_references entry included
  · rwa [(mem_unionParts_of_single single).mp included]

theorem Regular.contains_of_mem_intersectionParts (regular : t.Regular)
    (contained : t.contains id = true) {part : TypeId}
    (included : part ∈ t.intersectionParts id) : t.contains part = true := by
  rcases intersection_or_single t id with ⟨members, entry⟩ | single
  · rw [intersectionParts_of_intersection entry] at included
    exact regular.contains_of_mem_references entry included
  · rwa [(mem_intersectionParts_of_single single).mp included]

theorem Regular.contains_of_mem_keptParts (regular : t.Regular) {members : List TypeId}
    (contained : ∀ member ∈ members, t.contains member = true) {part : TypeId}
    (kept : part ∈ t.keptParts members) : t.contains part = true := by
  obtain ⟨member, joined, included⟩ := List.mem_flatMap.mp (mem_keptParts.mp kept).1
  exact regular.contains_of_mem_unionParts (contained member joined) included

theorem Regular.contains_of_mem_keptConstituents (regular : t.Regular) {members : List TypeId}
    (contained : ∀ member ∈ members, t.contains member = true) {part : TypeId}
    (kept : part ∈ t.keptConstituents members) : t.contains part = true := by
  obtain ⟨member, joined, included⟩ := List.mem_flatMap.mp (mem_keptConstituents.mp kept).1
  exact regular.contains_of_mem_intersectionParts (contained member joined) included

theorem Regular.admits_union (regular : t.Regular) {members : List TypeId}
    (contained : ∀ member ∈ members, t.contains member = true)
    (several : 2 ≤ (ascending (t.keptParts members)).length) :
    t.Admits (.union (ascending (t.keptParts members))) where
  references_lt target reference :=
    contains_iff.mp (regular.contains_of_mem_keptParts contained (mem_ascending.mp reference))
  members composite parts combined := by
    cases combined
    refine irregularity?_eq_none_iff.mpr ⟨several, fun part included => ?_⟩
    obtain ⟨joined, notNever, _⟩ := mem_keptParts.mp (mem_ascending.mp included)
    obtain ⟨member, _, belongs⟩ := List.mem_flatMap.mp joined
    have single := regular.get?_ne_union_of_mem_unionParts belongs
    unfold memberIrregularity?
    split <;> simp_all

theorem Regular.admits_intersection (regular : t.Regular) {members : List TypeId}
    (contained : ∀ member ∈ members, t.contains member = true)
    (several : 2 ≤ (ascending (t.keptConstituents members)).length) :
    t.Admits (.intersection (ascending (t.keptConstituents members))) where
  references_lt target reference :=
    contains_iff.mp
      (regular.contains_of_mem_keptConstituents contained (mem_ascending.mp reference))
  members composite parts combined := by
    cases combined
    refine irregularity?_eq_none_iff.mpr ⟨several, fun part included => ?_⟩
    obtain ⟨joined, _⟩ := mem_keptConstituents.mp (mem_ascending.mp included)
    obtain ⟨member, _, belongs⟩ := List.mem_flatMap.mp joined
    have single := regular.get?_ne_intersection_of_mem_intersectionParts belongs
    unfold memberIrregularity?
    split <;> simp_all

/-!
## Intersections in a grown table
-/

theorem get?_eq_of_grown (grown : t.entries.toList <+: u.entries.toList)
    (contained : t.contains id = true) : u.get? id = t.get? id := by
  have bound : id.index < t.entries.size := contains_iff.mp contained
  have entry : t.get? id = some t.entries[id.index] := Array.getElem?_eq_getElem bound
  rw [entry, get?_of_grown grown entry]

/-- Entering a type again in a table that has grown finds the one that was entered. -/
theorem Indexed.intern_of_grown (indexed : t.Indexed) {built later : Table}
    (laterIndexed : later.Indexed) {d : Descriptor} {r : TypeId}
    (interned : t.intern d = (built, r)) (after : built.entries.toList <+: later.entries.toList) :
    later.intern d = (later, r) := by
  have entry := indexed.get?_intern d
  rw [interned] at entry
  exact laterIndexed.intern_of_get? (get?_of_grown after entry)

/-- Building an intersection again in a table that has grown finds the type that was built. -/
theorem Indexed.intersection_of_grown {built : Table} {members : List TypeId} {r : TypeId}
    (indexed : t.Indexed) (later : u.Indexed)
    (contained : ∀ member ∈ members, t.contains member = true)
    (joined : t.intersection members = (built, r))
    (before : t.entries.toList <+: u.entries.toList)
    (after : built.entries.toList <+: u.entries.toList) : u.intersection members = (u, r) := by
  have sameParts :
      members.flatMap u.intersectionParts = members.flatMap t.intersectionParts := by
    rw [List.flatMap_def, List.flatMap_def]
    refine congrArg List.flatten (List.map_congr_left fun member included => ?_)
    rw [intersectionParts, intersectionParts, get?_eq_of_grown before (contained member included)]
  unfold intersection at joined ⊢
  simp only [sameParts, List.contains_iff_mem] at joined ⊢
  split
  · rename_i taken
    rw [if_pos taken] at joined
    exact congrArg (u, ·.2) joined
  · rename_i notNever
    rw [if_neg notNever] at joined
    split
    · rename_i taken
      rw [if_pos taken] at joined
      exact congrArg (u, ·.2) joined
    · rename_i notAny
      rw [if_neg notAny] at joined
      generalize ascending
        ((members.flatMap t.intersectionParts).filter (· != .unknown)) = kept at joined ⊢
      rcases kept with _ | ⟨first, _ | ⟨second, rest⟩⟩
      · exact congrArg (u, ·.2) joined
      · exact congrArg (u, ·.2) joined
      · exact indexed.intern_of_grown later joined after

end Table

end ConditionLint
