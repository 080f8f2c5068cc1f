import ConditionLint.Types.Query

/-!
# Regular tables

Every entry of a regular table refers to earlier entries only, its unions and intersections are
flat, and looking a descriptor up finds the entry that holds it. Pushing a descriptor without a
fault keeps a table regular, so every list that is accepted gives a regular table; and a list is
accepted exactly if each of its entries can follow those before it.
-/

set_option autoImplicit false

namespace ConditionLint.Table

/-!
## Entries after a push
-/

@[simp] theorem size_empty : empty.size = 0 := rfl

@[simp] theorem size_push (t : Table) (d : Descriptor) : (t.push d).size = t.size + 1 := by
  simp [push, size]

@[simp] theorem entries_push (t : Table) (d : Descriptor) :
    (t.push d).entries.toList = t.entries.toList ++ [d] := by
  simp [push]

theorem lt_size_of_get? {t : Table} {id : TypeId} {d : Descriptor} (found : t.get? id = some d) :
    id.index < t.size := by
  obtain ⟨bound, _⟩ := Array.getElem?_eq_some_iff.mp found
  exact bound

theorem get?_push_of_lt {t : Table} {id : TypeId} (old : id.index < t.size) (d : Descriptor) :
    (t.push d).get? id = t.get? id := by
  have old : id.index < t.entries.size := old
  simp [get?, push, Array.getElem?_push, Nat.ne_of_lt old]

@[simp] theorem get?_push_size (t : Table) (d : Descriptor) :
    (t.push d).get? ⟨t.size⟩ = some d := by
  simp [get?, push, size]

theorem get?_push_eq_some_iff {t : Table} {d found : Descriptor} {id : TypeId} :
    (t.push d).get? id = some found ↔
      (id = ⟨t.size⟩ ∧ found = d) ∨ t.get? id = some found := by
  constructor
  · intro entry
    have bound := lt_size_of_get? entry
    rw [size_push] at bound
    by_cases old : id.index < t.size
    · exact .inr (get?_push_of_lt old d ▸ entry)
    · have last : id = ⟨t.size⟩ := by
        cases id
        simp only [TypeId.mk.injEq] at *
        omega
      subst last
      rw [get?_push_size] at entry
      exact .inl ⟨rfl, (Option.some.inj entry).symm⟩
  · rintro (⟨rfl, rfl⟩ | entry)
    · exact get?_push_size t found
    · rw [get?_push_of_lt (lt_size_of_get? entry) d]
      exact entry

/-!
## Members of unions and intersections
-/

theorem irregularity?_eq_none_iff {t : Table} {composite : Composite} {members : List TypeId} :
    t.irregularity? composite members = none ↔
      2 ≤ members.length ∧
        ∀ member ∈ members, t.memberIrregularity? composite member = none := by
  by_cases few : members.length < 2
  · have tooFew : ¬ 2 ≤ members.length := Nat.not_le.mpr few
    simp [irregularity?, few, tooFew]
  · have enough : 2 ≤ members.length := Nat.le_of_not_lt few
    simp [irregularity?, few, enough, List.findSome?_eq_none_iff]

theorem memberIrregularity?_push {t : Table} {member : TypeId} (old : member.index < t.size)
    (composite : Composite) (d : Descriptor) :
    (t.push d).memberIrregularity? composite member = t.memberIrregularity? composite member := by
  simp only [memberIrregularity?, get?_push_of_lt old d]

theorem mem_references_of_composite? {d : Descriptor} {composite : Composite}
    {members : List TypeId} (combined : composite? d = some (composite, members)) :
    d.references = members := by
  cases d with
  | union | intersection =>
      simp only [composite?, Option.some.injEq, Prod.mk.injEq] at combined
      exact combined.2
  | _ => simp [composite?] at combined

/-!
## Regularity
-/

/-- A descriptor can be the next entry of a table. -/
structure Follows (t : Table) (d : Descriptor) : Prop where
  references_lt : ∀ target ∈ d.references, target.index < t.size
  members : ∀ composite members, composite? d = some (composite, members) →
    t.irregularity? composite members = none
  fresh : d ∉ t.entries.toList

/-- Every entry refers to earlier ones, unions and intersections are flat and have two members at
least, and every descriptor is found at its one place. -/
structure Regular (t : Table) : Prop where
  references_lt : ∀ {id d target}, t.get? id = some d → target ∈ d.references →
    target.index < id.index
  members : ∀ {id d composite members}, t.get? id = some d →
    composite? d = some (composite, members) → t.irregularity? composite members = none
  ids : ∀ {d id}, t.ids[d]? = some id ↔ t.get? id = some d

theorem regular_empty : empty.Regular where
  references_lt found := by simp [get?, empty] at found
  members found := by simp [get?, empty] at found
  ids := by simp [get?, empty]

/-!
## Looking descriptors up
-/

/-- Looking a descriptor up finds the place that it has, and nothing if it has none. -/
def Indexed (t : Table) : Prop :=
  ∀ ⦃d : Descriptor⦄ ⦃id : TypeId⦄, t.ids[d]? = some id ↔ t.get? id = some d

namespace Indexed

variable {t : Table}

theorem ids_eq_none_iff (indexed : t.Indexed) {d : Descriptor} :
    t.ids[d]? = none ↔ d ∉ t.entries.toList := by
  rw [Option.eq_none_iff_forall_ne_some]
  constructor
  · intro absent member
    obtain ⟨index, bound, entry⟩ := List.mem_iff_getElem.mp member
    apply absent ⟨index⟩
    rw [indexed]
    exact Array.getElem?_eq_some_iff.mpr ⟨bound, entry⟩
  · intro absent id found
    obtain ⟨bound, entry⟩ := Array.getElem?_eq_some_iff.mp (indexed.mp found)
    exact absent (entry ▸ Array.getElem_mem_toList bound)

/-- Pushing a descriptor that is not in the table keeps the look-up the inverse of the entries. -/
theorem push (indexed : t.Indexed) {d : Descriptor} (fresh : d ∉ t.entries.toList) :
    (t.push d).Indexed := by
  intro found id
  rw [get?_push_eq_some_iff]
  by_cases same : d = found
  · subst same
    have absent : t.get? id ≠ some d := by
      intro entry
      have member := Array.getElem?_eq_some_iff.mp entry
      exact fresh (member.2 ▸ Array.getElem_mem_toList member.1)
    simp [Table.push, absent, eq_comm]
  · have different : ¬ found = d := fun equal => same equal.symm
    have old := @indexed found id
    simp [Table.push, Std.HashMap.getElem?_insert, same, different, old]

end Indexed

namespace Regular

variable {t : Table}

theorem indexed (regular : t.Regular) : t.Indexed := fun _ _ => regular.ids

theorem ids_eq_none_iff (regular : t.Regular) {d : Descriptor} :
    t.ids[d]? = none ↔ d ∉ t.entries.toList :=
  regular.indexed.ids_eq_none_iff

/-- The check that refuses an entry decides whether the descriptor can follow. -/
theorem entryFault?_eq_none_iff (regular : t.Regular) {d : Descriptor} :
    t.entryFault? d = none ↔ t.Follows d := by
  constructor
  · intro accepted
    unfold entryFault? at accepted
    cases dangling : d.references.find? fun target => t.size ≤ target.index with
    | some target => simp [dangling] at accepted
    | none =>
        cases combined : composite? d with
        | none =>
            simp only [dangling, combined, Option.bind_none, Option.map_eq_none_iff] at accepted
            refine ⟨?_, by simp [combined], regular.ids_eq_none_iff.mp accepted⟩
            simpa using dangling
        | some pair =>
            obtain ⟨composite, members⟩ := pair
            cases fault : t.irregularity? composite members with
            | some reason => simp [dangling, combined, fault] at accepted
            | none =>
                simp only [dangling, combined, Option.bind_some, fault, Option.map_none,
                  Option.map_eq_none_iff] at accepted
                refine ⟨by simpa using dangling, ?_, regular.ids_eq_none_iff.mp accepted⟩
                intro other otherMembers same
                rw [combined] at same
                cases same
                exact fault
  · intro follows
    have dangling : d.references.find? (fun target => t.size ≤ target.index) = none := by
      simpa using follows.references_lt
    have fresh : t.ids[d]? = none := regular.ids_eq_none_iff.mpr follows.fresh
    unfold entryFault?
    cases combined : composite? d with
    | none => simp [dangling, fresh]
    | some pair =>
        obtain ⟨composite, members⟩ := pair
        simp [dangling, fresh, follows.members composite members combined]

/-- A descriptor that can follow leaves the table regular. -/
theorem push (regular : t.Regular) {d : Descriptor} (follows : t.Follows d) :
    (t.push d).Regular where
  references_lt := by
    intro id found target entry reference
    rcases get?_push_eq_some_iff.mp entry with ⟨rfl, rfl⟩ | entry
    · exact follows.references_lt target reference
    · exact regular.references_lt entry reference
  members := by
    intro id found composite members entry combined
    have stillFlat : ∀ {limit : Nat}, limit ≤ t.size →
        (∀ target ∈ found.references, target.index < limit) →
        t.irregularity? composite members = none →
        (t.push d).irregularity? composite members = none := by
      intro limit bound references flat
      rw [mem_references_of_composite? combined] at references
      rw [irregularity?_eq_none_iff] at flat ⊢
      refine ⟨flat.1, fun member included => ?_⟩
      rw [memberIrregularity?_push (Nat.lt_of_lt_of_le (references member included) bound)]
      exact flat.2 member included
    rcases get?_push_eq_some_iff.mp entry with ⟨rfl, rfl⟩ | entry
    · exact stillFlat (Nat.le_refl _) follows.references_lt
        (follows.members composite members combined)
    · exact stillFlat (Nat.le_of_lt (lt_size_of_get? entry))
        (fun target reference => regular.references_lt entry reference)
        (regular.members entry combined)
  ids := fun {found id} => @Indexed.push t regular.indexed d follows.fresh found id

end Regular

/-!
## Accepted lists
-/

/-- The table of a list of descriptors, pushed one after the other. -/
def ofList (ds : List Descriptor) : Table :=
  ds.foldl push empty

/-- The descriptors can follow one after the other. -/
def FollowAll (t : Table) : List Descriptor → Prop
  | [] => True
  | d :: rest => t.Follows d ∧ (t.push d).FollowAll rest

theorem FollowAll.regular {t : Table} {ds : List Descriptor} (follow : t.FollowAll ds)
    (regular : t.Regular) : (ds.foldl push t).Regular := by
  induction ds generalizing t with
  | nil => exact regular
  | cons d rest ih => exact ih follow.2 (regular.push follow.1)

theorem entries_foldl_push (t : Table) (ds : List Descriptor) :
    (ds.foldl push t).entries.toList = t.entries.toList ++ ds := by
  induction ds generalizing t with
  | nil => simp
  | cons d rest ih => simp [ih]

theorem extend?_eq_ok_iff {t result : Table} {ds : List Descriptor} (regular : t.Regular) :
    t.extend? ds = .ok result ↔ t.FollowAll ds ∧ result = ds.foldl push t := by
  induction ds generalizing t with
  | nil => simp [extend?, FollowAll, eq_comm]
  | cons d rest ih =>
      cases fault : t.entryFault? d with
      | some reason =>
          have rejected : ¬ t.Follows d := by
            rw [← regular.entryFault?_eq_none_iff, fault]
            simp
          simp [extend?, fault, FollowAll, rejected]
      | none =>
          have follows := regular.entryFault?_eq_none_iff.mp fault
          simp [extend?, fault, FollowAll, follows, ih (regular.push follows)]

theorem mismatch?_eq_none_iff {expected found : List Descriptor} {index : Nat}
    (enough : expected.length ≤ found.length) :
    mismatch? index expected found = none ↔ expected <+: found := by
  induction expected generalizing found index with
  | nil => simp [mismatch?]
  | cons first rest ih =>
      cases found with
      | nil => simp at enough
      | cons other others =>
          by_cases same : other = first
          · subst same
            simp [mismatch?, ih (Nat.le_of_succ_le_succ enough)]
          · have different : ¬ first = other := fun equal => same equal.symm
            simp [mismatch?, same, different, List.cons_prefix_cons]

/-- A list is a table exactly if it starts with the well-known types and each entry can follow
those before it. -/
theorem ofDescriptors?_eq_ok_iff {ds : List Descriptor} {t : Table} :
    ofDescriptors? ds = .ok t ↔ wellKnown <+: ds ∧ empty.FollowAll ds ∧ t = ofList ds := by
  unfold ofDescriptors?
  by_cases short : ds.length < wellKnown.length
  · have noPrefix : ¬ wellKnown <+: ds := fun starts => by
      have := starts.length_le
      omega
    simp [short, noPrefix]
  · have enough : wellKnown.length ≤ ds.length := Nat.le_of_not_lt short
    cases start : mismatch? 0 wellKnown ds with
    | some fault =>
        have noPrefix : ¬ wellKnown <+: ds := by
          rw [← @mismatch?_eq_none_iff _ _ 0 enough, start]
          simp
        simp [short, noPrefix]
    | none =>
        have starts := (mismatch?_eq_none_iff enough).mp start
        simp [short, starts, extend?_eq_ok_iff regular_empty, ofList]

end ConditionLint.Table
