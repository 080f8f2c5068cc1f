import ConditionLint.Proofs.Table.Growth

/-!
# Sequences of builder calls

The tables that are reached from the well-known types or from an accepted list by builder calls on
ids that the table has at the time. Each of them is valid and loads back as it is.
-/

set_option autoImplicit false

namespace ConditionLint

/-- A builder and what it is given. -/
inductive BuilderCall where
  | literal (value : LiteralValue)
  | union (members : List TypeId)
  | intersection (members : List TypeId)
  | array (element : TypeId)
  | tuple (elements : List TypeId)
  | object (properties : List Property)
  | record (key : IndexKind) (value : TypeId)
  | function (params : List TypeId) (returnType : TypeId)
  | typeParameter (name : String) (constraint : Option TypeId)
  | indexedAccess (object index : TypeId)

namespace BuilderCall

def ids : BuilderCall → List TypeId
  | literal _ => []
  | union members | intersection members => members
  | array element => [element]
  | tuple elements => elements
  | object properties => properties.map Property.type
  | record _ value => [value]
  | function params returnType => params ++ [returnType]
  | typeParameter _ constraint => constraint.toList
  | indexedAccess target index => [target, index]

/-- The table and the id after a call. -/
def run (t : Table) : BuilderCall → Table × TypeId
  | literal value => t.literal value
  | union members => t.union members
  | intersection members => t.intersection members
  | array element => t.array element
  | tuple elements => t.tuple elements
  | object properties => t.object properties
  | record key value => t.record key value
  | function params returnType => t.function params returnType
  | typeParameter name constraint => t.typeParameter name constraint
  | indexedAccess target index => t.indexedAccess target index

end BuilderCall

namespace Table

variable {t u start : Table} {d : Descriptor} {id : TypeId}

private theorem Admits.of_single (composite : composite? d = none)
    (contained : ∀ target ∈ d.references, t.contains target = true) : t.Admits d where
  references_lt target reference := contains_iff.mp (contained target reference)
  members := by simp [composite]

private theorem WellFormed.contains_of_mem_collapsed (wellFormed : t.WellFormed)
    (taken : id ∈ collapsed) :
    t.contains id = true := by
  obtain ⟨keyword, entry⟩ := wellFormed.get?_of_mem_collapsed taken
  exact contains_iff.mpr (lt_size_of_get? entry)

/-- A call answers with a type of the table, or interns a descriptor that can be. -/
theorem WellFormed.run_cases (wellFormed : t.WellFormed) {call : BuilderCall}
    (contained : ∀ id ∈ call.ids, t.contains id = true) :
    (∃ id, t.contains id = true ∧ call.run t = (t, id)) ∨
      ∃ d, t.Admits d ∧ call.run t = t.intern d := by
  cases call with
  | union members =>
      rcases union_cases t members with ⟨id, known | kept, same⟩ | ⟨several, interned⟩
      · exact .inl ⟨id, wellFormed.contains_of_mem_collapsed known, same⟩
      · exact .inl ⟨id, wellFormed.contains_of_mem_keptParts contained kept, same⟩
      · exact .inr ⟨_, wellFormed.admits_union contained several, interned⟩
  | intersection members =>
      rcases intersection_cases t members with ⟨id, known | kept, same⟩ | ⟨several, interned⟩
      · exact .inl ⟨id, wellFormed.contains_of_mem_collapsed known, same⟩
      · exact .inl ⟨id, wellFormed.contains_of_mem_keptConstituents contained kept, same⟩
      · exact .inr ⟨_, wellFormed.admits_intersection contained several, interned⟩
  | literal | array | tuple | typeParameter | indexedAccess =>
      refine .inr ⟨_, .of_single rfl ?_, rfl⟩
      exact contained
  | object | record | function =>
      refine .inr ⟨_, .of_single rfl ?_, rfl⟩
      simpa [BuilderCall.ids, Descriptor.references, ObjectShape.references] using contained

/-- Whatever it is given, a call interns at most one descriptor. -/
private theorem run_eq (t : Table) (call : BuilderCall) :
    (call.run t).1 = t ∨ ∃ d, (call.run t).1 = (t.intern d).1 := by
  cases call with
  | union members =>
      rcases union_cases t members with ⟨id, _, same⟩ | ⟨_, interned⟩
      · exact .inl (congrArg Prod.fst same)
      · exact .inr ⟨_, congrArg Prod.fst interned⟩
  | intersection members =>
      rcases intersection_cases t members with ⟨id, _, same⟩ | ⟨_, interned⟩
      · exact .inl (congrArg Prod.fst same)
      · exact .inr ⟨_, congrArg Prod.fst interned⟩
  | _ => exact .inr ⟨_, rfl⟩

theorem entries_prefix_run (t : Table) (call : BuilderCall) :
    t.entries.toList <+: (call.run t).1.entries.toList := by
  rcases run_eq t call with same | ⟨d, interned⟩
  · simp [same]
  · rw [interned]
    exact entries_prefix_intern t d

theorem Indexed.run (indexed : t.Indexed) (call : BuilderCall) : (call.run t).1.Indexed := by
  rcases run_eq t call with same | ⟨d, interned⟩
  · rwa [same]
  · rw [interned]
    exact indexed.intern d

/-- The type that a call answers with is in the table. -/
theorem WellFormed.contains_run (wellFormed : t.WellFormed) {call : BuilderCall}
    (contained : ∀ id ∈ call.ids, t.contains id = true) :
    (call.run t).1.contains (call.run t).2 = true := by
  rcases wellFormed.run_cases contained with ⟨id, inside, same⟩ | ⟨d, _, interned⟩
  · rwa [same]
  · rw [interned]
    exact contains_iff.mpr (lt_size_of_get? (wellFormed.indexed.get?_intern d))

/-!
## Sequences of calls
-/

/-- The table is made from the first one by calls on ids that the table has at the time. -/
inductive Grows (start : Table) : Table → Prop where
  | refl : Grows start start
  | call {t : Table} (call : BuilderCall) :
      Grows start t → (∀ id ∈ call.ids, t.contains id = true) → Grows start (call.run t).1

/-- The table is made from the well-known types or from an accepted list. -/
def Reached (t : Table) : Prop :=
  ∃ start : Table, (start = initial ∨ ∃ ds, ofDescriptors? ds = .ok start) ∧ start.Grows t

theorem Grows.grown (grows : start.Grows t) :
    start.entries.toList <+: t.entries.toList := by
  induction grows with
  | refl => exact List.prefix_refl _
  | call call _ _ ih => exact ih.trans (entries_prefix_run _ call)

theorem Grows.indexed (grows : start.Grows t) (indexed : start.Indexed) : t.Indexed := by
  induction grows with
  | refl => exact indexed
  | call call _ _ ih => exact ih.run call

/-- Every reached table loads back as it is: a call leaves it or appends an entry that the loader
takes. -/
theorem Reached.loads (reached : t.Reached) : ofDescriptors? t.entries.toList = .ok t := by
  obtain ⟨start, origin, grows⟩ := reached
  induction grows with
  | refl =>
      rcases origin with rfl | ⟨ds, accepted⟩
      · rw [entries_of_ofDescriptors? ofDescriptors?_wellKnown]
        exact ofDescriptors?_wellKnown
      · rw [entries_of_ofDescriptors? accepted]
        exact accepted
  | call call _ contained ih =>
      rcases (wellFormed_of_ofDescriptors? ih).run_cases contained with
        ⟨id, _, same⟩ | ⟨d, admits, interned⟩
      · rwa [same]
      · rw [interned]
        exact ofDescriptors?_intern ih admits

theorem Reached.wellFormed (reached : t.Reached) : t.WellFormed :=
  wellFormed_of_ofDescriptors? reached.loads

theorem Reached.run (reached : t.Reached) {call : BuilderCall}
    (contained : ∀ id ∈ call.ids, t.contains id = true) : (call.run t).1.Reached := by
  obtain ⟨start, origin, grows⟩ := reached
  exact ⟨start, origin, .call call grows contained⟩

theorem Grows.trans (first : start.Grows t) (second : t.Grows u) : start.Grows u := by
  induction second with
  | refl => exact first
  | call call _ contained ih => exact .call call ih contained

theorem Reached.grows (reached : t.Reached) (grows : t.Grows u) : u.Reached := by
  obtain ⟨start, origin, first⟩ := reached
  exact ⟨start, origin, first.trans grows⟩

/-!
## Validity
-/

/-- The table starts with the well-known types, every entry refers to earlier ones, no two are
equal, a descriptor is looked up at the place that it has, and unions and intersections have two
members at least, none of their own kind and no `never` in a union. -/
structure Valid (t : Table) : Prop where
  starts : wellKnown <+: t.entries.toList
  references_lt : ∀ {id d target}, t.get? id = some d → target ∈ d.references →
    target.index < id.index
  distinct : t.entries.toList.Nodup
  lookup : t.Indexed
  unions : ∀ {id members}, t.get? id = some (.union members) →
    2 ≤ members.length ∧
      ∀ member ∈ members, member ≠ .never ∧ ∀ inner, t.get? member ≠ some (.union inner)
  intersections : ∀ {id members}, t.get? id = some (.intersection members) →
    2 ≤ members.length ∧
      ∀ member ∈ members, ∀ inner, t.get? member ≠ some (.intersection inner)

theorem Regular.nodup_entries (regular : t.Regular) : t.entries.toList.Nodup := by
  refine List.pairwise_iff_getElem.mpr fun first second firstBound secondBound before equal => ?_
  have atPlace : ∀ {index : Nat} (bound : index < t.entries.toList.length),
      t.get? ⟨index⟩ = some t.entries.toList[index] := by
    intro index bound
    rw [get?, ← Array.getElem?_toList]
    exact List.getElem?_eq_getElem bound
  have same := regular.get?_injective (atPlace firstBound)
    ((atPlace secondBound).trans (congrArg some equal.symm))
  exact Nat.ne_of_lt before (congrArg TypeId.index same)

theorem WellFormed.valid (wellFormed : t.WellFormed) : t.Valid where
  starts := wellFormed.starts
  references_lt := wellFormed.references_lt
  distinct := wellFormed.nodup_entries
  lookup := wellFormed.indexed
  unions := by
    intro id members entry
    obtain ⟨several, flat⟩ := irregularity?_eq_none_iff.mp (wellFormed.members entry rfl)
    refine ⟨several, fun member included => ?_⟩
    have fine := flat member included
    unfold memberIrregularity? at fine
    split at fine <;> simp_all
  intersections := by
    intro id members entry
    obtain ⟨several, flat⟩ := irregularity?_eq_none_iff.mp (wellFormed.members entry rfl)
    refine ⟨several, fun member included inner nested => ?_⟩
    have fine := flat member included
    simp [memberIrregularity?, nested] at fine

/-- A reached table is valid and loads back as it is, with the same entries and the same look-up.
A further call only appends, and two descriptors get the same id, whatever calls stand between
them, exactly if they are equal. -/
theorem reached_reloads (reached : t.Reached) :
    t.Valid ∧ ofDescriptors? t.entries.toList = .ok t ∧
      (∀ call : BuilderCall, t.entries.toList <+: (call.run t).1.entries.toList) ∧
      ∀ (d other : Descriptor) (later : Table), (t.intern d).1.Grows later →
        ((later.intern other).2 = (t.intern d).2 ↔ other = d) := by
  have wellFormed := reached.wellFormed
  refine ⟨wellFormed.valid, reached.loads, entries_prefix_run t, fun d other later grows => ?_⟩
  have indexed := wellFormed.indexed
  exact indexed.intern_eq_iff (grows.indexed (indexed.intern d)) grows.grown

namespace BrandedName

/-!
The type parameter `T` under `"a"`, the union of `T`, `null` and `"a"`, and this union under a
brand.
-/

def name : Table × TypeId :=
  BuilderCall.run initial (.literal (.string "a"))

def parameter : Table × TypeId :=
  BuilderCall.run name.1 (.typeParameter "T" (some name.2))

def joined : Table × TypeId :=
  BuilderCall.run parameter.1 (.union [parameter.2, .null, .never, name.2])

def branded : Table × TypeId :=
  BuilderCall.run joined.1 (.intersection [joined.2, .object])

private theorem reached_initial : initial.Reached :=
  ⟨initial, .inl rfl, .refl⟩

private theorem reached_name : name.1.Reached :=
  reached_initial.run (by simp [BuilderCall.ids])

theorem contains_name : name.1.contains name.2 = true :=
  reached_initial.wellFormed.contains_run (by simp [BuilderCall.ids])

private theorem reached_parameter : parameter.1.Reached :=
  reached_name.run (by simpa [BuilderCall.ids] using contains_name)

private theorem contains_parameter : parameter.1.contains parameter.2 = true :=
  reached_name.wellFormed.contains_run (by simpa [BuilderCall.ids] using contains_name)

theorem contains_members : ∀ id ∈ [parameter.2, .null, .never, name.2],
    parameter.1.contains id = true := by
  have wellFormed := reached_parameter.wellFormed
  simp only [List.forall_mem_cons]
  exact ⟨contains_parameter, wellFormed.contains_wellKnown (by decide),
    wellFormed.contains_wellKnown (by decide),
    contains_of_grown (entries_prefix_run _ _) contains_name, by simp⟩

theorem reached_joined : joined.1.Reached :=
  reached_parameter.run contains_members

theorem contains_joined : joined.1.contains joined.2 = true :=
  reached_parameter.wellFormed.contains_run contains_members

theorem contains_brand : ∀ id ∈ [joined.2, .object], joined.1.contains id = true := by
  simp only [List.forall_mem_cons]
  exact ⟨contains_joined, reached_joined.wellFormed.contains_wellKnown (by decide), by simp⟩

theorem reached_branded : branded.1.Reached :=
  reached_joined.run contains_brand

end BrandedName

theorem branded_reloads :
    BrandedName.branded.1.Reached ∧ BrandedName.branded.1.Valid ∧
      ofDescriptors? BrandedName.branded.1.entries.toList = .ok BrandedName.branded.1 ∧
      ((BrandedName.branded.1.intern (.array .string)).1.intern (.array .null)).2 ≠
        (BrandedName.branded.1.intern (.array .string)).2 := by
  obtain ⟨valid, loads, _, distinguishes⟩ := reached_reloads BrandedName.reached_branded
  refine ⟨BrandedName.reached_branded, valid, loads, ?_⟩
  rw [ne_eq, distinguishes _ _ _ .refl]
  decide

end Table

end ConditionLint
