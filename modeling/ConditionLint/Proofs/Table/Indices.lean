import ConditionLint.Proofs.Table.Closure
import ConditionLint.Proofs.Table.Intersection

/-!
# Index signatures

Which kinds of keys a type takes and what it gives for one kind of key are two questions, each with
a descent of its own. They agree but for tuples: a tuple takes numbers without giving one type for
them, and so does an intersection with a tuple among its members.
-/

set_option autoImplicit false

namespace ConditionLint.Table

variable {t : Table} {id : TypeId} {d : Descriptor} {members : List TypeId} {kind : IndexKind}

/-!
## Kinds collected once
-/

private theorem mem_foldl_distinct {kinds found : List IndexKind} :
    kind ∈ kinds.foldl
        (fun found next => if found.contains next then found else found ++ [next]) found ↔
      kind ∈ found ∨ kind ∈ kinds := by
  induction kinds generalizing found with
  | nil => simp
  | cons next rest ih =>
      rw [List.foldl_cons, ih, List.mem_cons, ← or_assoc]
      apply or_congr_left
      by_cases known : next ∈ found
      · have old : kind = next → kind ∈ found := fun same => same ▸ known
        simpa [known] using old
      · simp [known]

theorem mem_distinct {kinds : List IndexKind} : kind ∈ distinct kinds ↔ kind ∈ kinds :=
  mem_foldl_distinct.trans (by simp)

/-!
## Tuples
-/

/-- The type is a tuple, or an intersection with such a type among its members. -/
inductive TakesTuple (t : Table) : TypeId → Prop where
  | tuple {id : TypeId} {elements : List TypeId} :
      t.get? id = some (.tuple elements) → TakesTuple t id
  | member {id member : TypeId} {members : List TypeId} :
      t.get? id = some (.intersection members) → member ∈ members → TakesTuple t member →
      TakesTuple t id

theorem takesTuple_intersection_iff (entry : t.get? id = some (.intersection members)) :
    t.TakesTuple id ↔ ∃ member ∈ members, t.TakesTuple member := by
  constructor
  · intro takes
    cases takes with
    | tuple other =>
        rw [entry] at other
        cases other
    | member other included takes =>
        rw [entry] at other
        cases other
        exact ⟨_, included, takes⟩
  · intro ⟨_, included, takes⟩
    exact .member entry included takes

private theorem not_takesTuple (entry : t.get? id = some d)
    (noTuple : ∀ elements, d ≠ .tuple elements)
    (noIntersection : ∀ members, d ≠ .intersection members) : ¬ t.TakesTuple id := by
  intro takes
  cases takes with
  | tuple other => exact noTuple _ (Option.some.inj (entry.symm.trans other))
  | member other => exact noIntersection _ (Option.some.inj (entry.symm.trans other))

theorem TakesTuple.of_isTuple (tuple : t.isTuple id = true) : t.TakesTuple id := by
  unfold isTuple at tuple
  split at tuple
  · rename_i entry
    exact .tuple entry
  · cases tuple

theorem TakesTuple.isTuple (takes : t.TakesTuple id)
    (single : ∀ members, t.get? id ≠ some (.intersection members)) : t.isTuple id = true := by
  cases takes with
  | tuple entry => simp [Table.isTuple, entry]
  | member entry => exact absurd entry (single _)

/-- Members of an intersection are no intersections, so the tuple is one of them. -/
theorem Regular.takesTuple_iff (regular : t.Regular) :
    t.TakesTuple id ↔
      t.isTuple id = true ∨
        ∃ members, t.get? id = some (.intersection members) ∧
          ∃ member ∈ members, t.isTuple member = true := by
  constructor
  · intro takes
    rcases intersection_or_single t id with ⟨members, entry⟩ | single
    · obtain ⟨member, included, takes⟩ := (takesTuple_intersection_iff entry).mp takes
      have belongs : member ∈ t.intersectionParts id := by
        rwa [intersectionParts_of_intersection entry]
      have flat := regular.get?_ne_intersection_of_mem_intersectionParts belongs
      exact .inr ⟨members, entry, member, included, takes.isTuple flat⟩
    · exact .inl (takes.isTuple single)
  · intro tuple
    cases tuple with
    | inl tuple => exact .of_isTuple tuple
    | inr combined =>
        obtain ⟨members, entry, member, included, tuple⟩ := combined
        exact .member entry included (.of_isTuple tuple)

/-!
## Both questions about one type
-/

/-- Where the answers about the references agree, so do those about the type. -/
theorem mem_indexKindsStep_iff {kinds : TypeId → List IndexKind} {types : TypeId → Option TypeId}
    (entry : t.get? id = some d)
    (agree : ∀ target ∈ d.references, (kind ∈ kinds target ↔
      (types target).isSome = true ∨ (kind = .number ∧ t.TakesTuple target))) :
    kind ∈ indexKindsStep id (some d) kinds ↔
      (indexStep kind id (some d) types).isSome = true ∨ (kind = .number ∧ t.TakesTuple id) := by
  cases d with
  | tuple elements =>
      have takes : t.TakesTuple id := .tuple entry
      simp [indexKindsStep, indexStep, takes]
  | intersection members =>
      calc kind ∈ distinct (members.flatMap kinds)
          ↔ ∃ member ∈ members, kind ∈ kinds member := by
            rw [mem_distinct, List.mem_flatMap]
        _ ↔ ∃ member ∈ members,
              ((types member).isSome = true ∨ (kind = .number ∧ t.TakesTuple member)) :=
            exists_congr fun member => and_congr_right (agree member)
        _ ↔ (members.findSome? types).isSome = true ∨ (kind = .number ∧ t.TakesTuple id) := by
            rw [List.findSome?_isSome_iff, takesTuple_intersection_iff entry]
            simp only [and_or_left, exists_or, and_left_comm, exists_and_left]
  | _ =>
      have noTuple : ¬ t.TakesTuple id := not_takesTuple entry (by simp) (by simp)
      simp [indexKindsStep, indexStep, noTuple]

namespace Regular

theorem indexType?_eq (regular : t.Regular) (id : TypeId) (kind : IndexKind) :
    t.indexType? id kind = indexStep kind id (t.get? id) (t.indexType? · kind) :=
  regular.ask_eq (asksReferences_indexStep kind) id

/-- A type takes a kind of key exactly if it gives a type for it, or takes numbers from a tuple. -/
theorem mem_indexKinds_iff (regular : t.Regular) :
    kind ∈ t.indexKinds id ↔
      (t.indexType? id kind).isSome = true ∨ (kind = .number ∧ t.TakesTuple id) := by
  cases entry : t.get? id with
  | none =>
      have noTuple : ¬ t.TakesTuple id := by
        intro takes
        cases takes with
        | tuple other | member other => simp [entry] at other
      rw [regular.indexType?_eq, indexKinds, regular.ask_eq asksReferences_indexKindsStep, entry]
      simp [indexKindsStep, indexStep, noTuple]
  | some d =>
      -- The induction is on the descent of one question; the other follows it by its equation.
      refine regular.ask_induction asksReferences_indexKindsStep (P := fun id kinds =>
        kind ∈ kinds ↔
          (t.indexType? id kind).isSome = true ∨ (kind = .number ∧ t.TakesTuple id)) ?_ entry
      intro id d kinds entry agree
      rw [regular.indexType?_eq, entry]
      exact mem_indexKindsStep_iff entry agree

end Regular

/-!
## Both questions in accepted tables
-/

/-- A type takes a kind of key exactly if it gives a type for it, or takes numbers as a tuple or
from one among its members. What an intersection gives is what its first member that gives anything
does. -/
theorem index_questions_agree {ds : List Descriptor} (accepted : ofDescriptors? ds = .ok t)
    (id : TypeId) (kind : IndexKind) :
    (kind ∈ t.indexKinds id ↔
      (t.indexType? id kind).isSome = true ∨
        (kind = .number ∧
          (t.isTuple id = true ∨
            ∃ members, t.get? id = some (.intersection members) ∧
              ∃ member ∈ members, t.isTuple member = true))) ∧
      ∀ members, t.get? id = some (.intersection members) → ∀ found,
        (t.indexType? id kind = some found ↔
          ∃ before member after, members = before ++ member :: after ∧
            t.indexType? member kind = some found ∧
            ∀ earlier ∈ before, t.indexType? earlier kind = none) := by
  have regular := (wellFormed_of_ofDescriptors? accepted).toRegular
  constructor
  · rw [regular.mem_indexKinds_iff, regular.takesTuple_iff]
  · intro members entry found
    rw [regular.indexType?_eq, entry]
    exact List.findSome?_eq_some_iff

namespace LabelledPair

/-!
The pair of a string and `null` that is also an object with string keys, and another one with
string and symbol keys.
-/

def descriptors : List Descriptor :=
  wellKnown ++
    [.tuple [.string, .null], .object ⟨[], [⟨.string, .number⟩], []⟩,
      .object ⟨[], [⟨.string, .boolean⟩, ⟨.symbol, .null⟩], []⟩, .intersection [⟨14⟩, ⟨15⟩, ⟨16⟩]]

def table : Table :=
  .ofList descriptors

private theorem ofDescriptors?_descriptors : ofDescriptors? descriptors = .ok table :=
  ofDescriptors?_eq_ok_iff.mpr ⟨⟨_, rfl⟩, by decide, rfl⟩

end LabelledPair

open LabelledPair in
/-- The pair takes numbers, for which it gives no one type, and gives for strings what the first of
the two objects does. -/
theorem labelledPair_indices :
    ofDescriptors? descriptors = .ok table ∧
      table.get? ⟨17⟩ = some (.intersection [⟨14⟩, ⟨15⟩, ⟨16⟩]) ∧
      .number ∈ table.indexKinds ⟨17⟩ ∧ table.indexType? ⟨17⟩ .number = none ∧
      table.indexType? ⟨17⟩ .string = some .number := by
  have entry : table.get? ⟨17⟩ = some (.intersection [⟨14⟩, ⟨15⟩, ⟨16⟩]) := by decide
  obtain ⟨numbers, _⟩ := index_questions_agree ofDescriptors?_descriptors ⟨17⟩ .number
  obtain ⟨_, strings⟩ := index_questions_agree ofDescriptors?_descriptors ⟨17⟩ .string
  refine ⟨ofDescriptors?_descriptors, entry, ?_, by decide, ?_⟩
  · exact numbers.mpr (.inr ⟨rfl, .inr ⟨_, entry, ⟨14⟩, by decide, by decide⟩⟩)
  · exact (strings _ entry .number).mpr ⟨[⟨14⟩], ⟨15⟩, [⟨16⟩], rfl, by decide, by decide⟩

end ConditionLint.Table
