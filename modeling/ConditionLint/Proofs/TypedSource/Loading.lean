import ConditionLint.Proofs.Table.Closure
import ConditionLint.TypedSource

/-!
# Loaded sources

The type table of a source that was read is the table of an accepted list: every member that is
added to a draft keeps this. The node types are then recorded one after the other, which fails at
the first one whose type the table does not have; otherwise every node has the type of its last
entry, and the program knows types of its table only.
-/

set_option autoImplicit false

namespace ConditionLint

theorem bind_eq_ok_iff {ε α β : Type} {part : Except ε α} {next : α → Except ε β} {result : β} :
    part.bind next = .ok result ↔ ∃ value, part = .ok value ∧ next value = .ok result := by
  cases part with
  | error fault => simp [Except.bind]
  | ok value => simp [Except.bind]

namespace TypedSource

/-!
## The table
-/

/-- The draft has no table yet, or one of an accepted list. -/
def Draft.Accepted (draft : Draft) : Prop :=
  ∀ table, draft.table = some table → ∃ ds, Table.ofDescriptors? ds = .ok table

private theorem Draft.accepted_empty : Draft.empty.Accepted := by
  intro table found
  cases found

theorem exists_descriptors_of_mapError {ds : List Descriptor} {table : Table}
    (read : (Table.ofDescriptors? ds).mapError SourceFault.table = .ok table) :
    Table.ofDescriptors? ds = .ok table := by
  cases accepted : Table.ofDescriptors? ds with
  | error fault => rw [accepted] at read; cases read
  | ok found => rw [accepted] at read; cases read; rfl

/-- A member gives the table of an accepted list, or leaves the table as it is. -/
private theorem Draft.add_table {draft next : Draft} {name : String} {value : Json}
    (judged : draft.add name value = .ok next) :
    next.table = draft.table ∨
      ∃ ds table, Table.ofDescriptors? ds = .ok table ∧ next.table = some table := by
  unfold Draft.add at judged
  split at judged
  · -- the options
    split at judged
    · cases judged
    · obtain ⟨strict, _, same⟩ := bind_eq_ok_iff.mp judged
      cases same
      exact .inl rfl
  · -- the type table
    split at judged
    · cases judged
    · obtain ⟨ds, _, rest⟩ := bind_eq_ok_iff.mp judged
      obtain ⟨table, read, same⟩ := bind_eq_ok_iff.mp rest
      cases same
      exact .inr ⟨ds, table, exists_descriptors_of_mapError read, rfl⟩
  · -- the node types
    split at judged
    · cases judged
    · obtain ⟨entries, _, same⟩ := bind_eq_ok_iff.mp judged
      cases same
      exact .inl rfl
  · -- any other member
    split at judged
    · cases judged
      exact .inl rfl
    · cases judged

theorem Draft.add_types {draft : Draft} {value : Json} {ds : List Descriptor} {table : Table}
    (fresh : draft.table = none) (read : value.list? (Descriptor.ofJson? .document) = some ds)
    (accepted : Table.ofDescriptors? ds = .ok table) :
    draft.add "types" value = .ok { draft with table := some table } := by
  simp only [Draft.add, fresh, read, shaped]
  change ((Table.ofDescriptors? ds).mapError SourceFault.table).bind _ = _
  rw [accepted]
  rfl

theorem Draft.Accepted.add {draft next : Draft} {name : String} {value : Json}
    (accepted : draft.Accepted) (judged : draft.add name value = .ok next) : next.Accepted := by
  intro table found
  rcases add_table judged with same | ⟨ds, other, read, same⟩
  · exact accepted table (same ▸ found)
  · rw [found] at same
    cases same
    exact ⟨ds, read⟩

/-- Judge members one after the other. -/
def Draft.addAll (draft : Draft) (members : List (String × Json)) : Except SourceFault Draft :=
  members.foldlM (fun draft member => draft.add member.1 member.2) draft

theorem ofReading_eq (reading : Json.ObjectReading) :
    ofReading reading = (Draft.empty.addAll reading.members).bind fun draft =>
      if reading.intact then draft.finish else .error .malformed := rfl

theorem Draft.Accepted.addAll {members : List (String × Json)} {draft last : Draft}
    (accepted : draft.Accepted)
    (judged : draft.addAll members = .ok last) : last.Accepted := by
  induction members generalizing draft with
  | nil =>
      cases judged
      exact accepted
  | cons member rest ih =>
      obtain ⟨next, first, later⟩ := bind_eq_ok_iff.mp judged
      exact ih (accepted.add first) later

private theorem exists_descriptors_of_ofReading {reading : Json.ObjectReading} {s : TypedSource}
    (read : ofReading reading = .ok s) : ∃ ds, Table.ofDescriptors? ds = .ok s.table := by
  rw [ofReading_eq] at read
  obtain ⟨draft, judged, ended⟩ := bind_eq_ok_iff.mp read
  have accepted : draft.Accepted := Draft.accepted_empty.addAll judged
  split at ended
  · obtain ⟨file, _, rest⟩ := bind_eq_ok_iff.mp ended
    obtain ⟨table, found, same⟩ := bind_eq_ok_iff.mp rest
    cases same
    cases given : draft.table with
    | none =>
        rw [given] at found
        cases found
    | some other =>
        rw [given] at found
        cases found
        exact accepted _ given
  · cases ended

theorem wellFormed_of_ofText {text : String} {s : TypedSource} (loaded : ofText text = .ok s) :
    s.table.WellFormed := by
  obtain ⟨ds, accepted⟩ := exists_descriptors_of_ofReading loaded
  exact Table.wellFormed_of_ofDescriptors? accepted

/-!
## The node types
-/

variable {p q : Program} {entries : List NodeType} {node : NodeId}

/-- The program with the types of all entries, a later entry in place of an earlier one. -/
def recordEach (p : Program) (entries : List NodeType) : Program :=
  entries.foldl (fun p entry => p.record entry.node entry.type) p

@[simp] theorem recordEach_cons (p : Program) (entry : NodeType) (rest : List NodeType) :
    recordEach p (entry :: rest) = recordEach (p.record entry.node entry.type) rest := rfl

@[simp] theorem recordEach_table (p : Program) (entries : List NodeType) :
    (recordEach p entries).table = p.table := by
  induction entries generalizing p with
  | nil => rfl
  | cons entry rest ih => exact ih _

@[simp] theorem recordEach_strictNullChecks (p : Program) (entries : List NodeType) :
    (recordEach p entries).strictNullChecks = p.strictNullChecks := by
  induction entries generalizing p with
  | nil => rfl
  | cons entry rest ih => exact ih _

theorem typeOf?_recordEach (p : Program) (entries : List NodeType) (node : NodeId) :
    (recordEach p entries).typeOf? node =
      ((entries.findRev? (·.node == node)).map NodeType.type).or (p.typeOf? node) := by
  induction entries generalizing p with
  | nil => rfl
  | cons entry rest ih =>
      rw [recordEach_cons, ih, Program.typeOf?_record, List.findRev?]
      cases later : rest.findRev? (·.node == node) with
      | some last => rfl
      | none =>
          by_cases same : entry.node = node
          · simp [same]
          · simp [same, beq_eq_false_iff_ne.mpr same]

theorem recordAll_eq_ok_iff :
    recordAll p entries = .ok q ↔
      (∀ entry ∈ entries, p.table.contains entry.type = true) ∧ q = recordEach p entries := by
  induction entries generalizing p with
  | nil =>
      rw [recordAll, Except.ok.injEq, eq_comm]
      simp [recordEach]
  | cons entry rest ih =>
      rw [recordAll, List.forall_mem_cons, recordEach_cons]
      split
      · rename_i contained
        rw [ih, Program.record_table]
        simp [contained]
      · rename_i missing
        simp [missing]

theorem recordAll_eq_error_iff {fault : UnknownType} :
    recordAll p entries = .error fault ↔
      entries.find? (fun entry => !p.table.contains entry.type) =
        some ⟨fault.node, fault.type⟩ := by
  induction entries generalizing p with
  | nil => simp [recordAll]
  | cons entry rest ih =>
      rw [recordAll, List.find?_cons]
      split
      · rename_i contained
        rw [ih, Program.record_table, contained]
        rfl
      · rename_i missing
        obtain ⟨node, type⟩ := entry
        obtain ⟨faultNode, faultType⟩ := fault
        simp [missing]

end TypedSource

/-!
## Consistent programs
-/

/-- A program over a well-formed table that records types of the table only. -/
structure Program.Consistent (p : Program) : Prop where
  wellFormed : p.table.WellFormed
  recorded : ∀ {node type}, p.typeOf? node = some type → p.table.contains type = true

theorem Program.Consistent.contains_constrainedType? {p : Program} {e : Expr} {type : TypeId}
    (consistent : p.Consistent) (typed : p.constrainedType? e = some type) :
    p.table.contains type = true := by
  obtain ⟨recorded, found, rfl⟩ := Option.map_eq_some_iff.mp typed
  exact consistent.wellFormed.contains_constrained (consistent.recorded found)

namespace TypedSource

variable {s : TypedSource} {p : Program}

theorem program_eq_ok_iff :
    s.program = .ok p ↔
      (∀ entry ∈ s.nodeTypes, s.table.contains entry.type = true) ∧
        p = recordEach ⟨s.table, ∅, s.strictNullChecks⟩ s.nodeTypes :=
  recordAll_eq_ok_iff

theorem program_table (made : s.program = .ok p) : p.table = s.table := by
  obtain ⟨_, rfl⟩ := program_eq_ok_iff.mp made
  exact recordEach_table _ _

theorem typeOf?_program (made : s.program = .ok p) (node : NodeId) :
    p.typeOf? node = (s.nodeTypes.findRev? (·.node == node)).map NodeType.type := by
  obtain ⟨_, rfl⟩ := program_eq_ok_iff.mp made
  rw [typeOf?_recordEach, Program.typeOf?_of_no_types, Option.or_none]

theorem consistent_of_program (wellFormed : s.table.WellFormed) (made : s.program = .ok p) :
    p.Consistent where
  wellFormed := program_table made ▸ wellFormed
  recorded := by
    intro node type recorded
    rw [typeOf?_program made] at recorded
    obtain ⟨entry, last, rfl⟩ := Option.map_eq_some_iff.mp recorded
    rw [List.findRev?_eq_find?_reverse] at last
    have member := List.mem_reverse.mp (List.mem_of_find?_eq_some last)
    rw [program_table made]
    exact (program_eq_ok_iff.mp made).1 entry member

end TypedSource

end ConditionLint
