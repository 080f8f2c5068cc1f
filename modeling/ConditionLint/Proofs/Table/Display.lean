import ConditionLint.Proofs.Table.Canonical
import ConditionLint.Proofs.Table.Closure
import ConditionLint.Proofs.Types.Shown

/-!
# Texts of structural types

Types that are built without names and members of objects are shown by a text that no other such
type has: the text is read as the pieces of a form, the form tells the descriptor, and the table has
each descriptor once.
-/

set_option autoImplicit false

namespace ConditionLint

open Text

/-!
## Structural types
-/

/-- A literal that is shown by its value. -/
def LiteralValue.IsStructural : LiteralValue → Prop
  | number value => value.isNaN = false
  | bigint digits => IsDecimal digits
  | string _ | boolean _ => True

/-- The descriptor is no type parameter, and no object type other than a function. -/
def Descriptor.IsStructural : Descriptor → Prop
  | literal value => value.IsStructural
  | object shape => ∃ signature, shape = ⟨[], [], [signature]⟩
  | typeParameter .. => False
  | intrinsic _ | array _ | tuple _ | union _ | intersection _ | indexedAccess .. => True

namespace Table

variable {t : Table} {id a b : TypeId} {d e : Descriptor} {f g : TypeForm}

/-- All descriptors that can be reached from a type are structural. -/
inductive Structural (t : Table) : TypeId → Prop where
  | intro {id : TypeId} {d : Descriptor} : t.get? id = some d → d.IsStructural →
      (∀ target ∈ d.references, t.Structural target) → t.Structural id

private theorem shows_boolean : Shows (.union [.true, .false]) (.word "boolean".toList) :=
  .word (.named (by decide))

private theorem exists_shows (wellFormed : t.WellFormed) (canonical : t.Canonical)
    (entry : t.get? id = some d) (structural : d.IsStructural) : ∃ f, Shows d f := by
  cases d with
  | intrinsic keyword =>
      have listed : (.intrinsic keyword, keyword.keyword) ∈ namedTypes := by
        cases keyword <;> decide
      exact ⟨_, .word (.named listed)⟩
  | literal value =>
      cases value with
      | string value => exact ⟨_, .quoted value⟩
      | number value => exact ⟨_, .word (.number structural)⟩
      | bigint digits => exact ⟨_, .word (.bigint structural)⟩
      | boolean value =>
          have listed : (.literal (.boolean value), if value then "true" else "false") ∈
              namedTypes := by
            cases value <;> decide
          exact ⟨_, .word (.named listed)⟩
  | object shape =>
      obtain ⟨⟨params, result⟩, rfl⟩ := structural
      exact ⟨_, .function params result⟩
  | array element => exact ⟨_, .array element⟩
  | tuple elements => exact ⟨_, .tuple elements⟩
  | union members =>
      by_cases boolean : members = [.true, .false]
      · subst boolean
        exact ⟨_, shows_boolean⟩
      · have normalized := canonical id members entry
        have plain : TypeId.boolean ∉ members := fun included =>
          normalized.flat _ included _ (wellFormed.get?_wellKnown rfl)
        exact ⟨_, .union normalized.increasing plain
          (two_le_length_shownMembers normalized.several normalized.increasing plain boolean)⟩
  | intersection members =>
      exact ⟨_, .intersection (irregularity?_eq_none_iff.mp (wellFormed.members entry rfl)).1⟩
  | typeParameter => cases structural
  | indexedAccess object index => exact ⟨_, .access object index⟩

/-!
## Pieces of texts
-/

/-- The text of a type that may stand inside another one. -/
def textOf (t : Table) (id : TypeId) (nested : Bool) : String :=
  t.ask displayStep (fun _ => "") id nested

def pieces (t : Table) (id : TypeId) (nested : Bool) : List Piece :=
  piecesOf (t.textOf id nested).toList

/-- The text of a type is read as pieces that are clear. -/
structure Readable (t : Table) (id : TypeId) : Prop where
  reads : ∀ nested, Reads (t.textOf id nested).toList (t.pieces id nested)
  clear : Clear (t.pieces id)

theorem WellFormed.textOf_eq (wellFormed : t.WellFormed) (entry : t.get? id = some d)
    (nested : Bool) : t.textOf id nested = displayStep id (some d) t.textOf nested := by
  unfold textOf
  rw [wellFormed.ask_eq asksReferences_displayStep, entry]

theorem WellFormed.textOf_boolean (wellFormed : t.WellFormed) (nested : Bool) :
    t.textOf .boolean nested = "boolean" := by
  have entry : t.get? .boolean = some (.union [.true, .false]) := wellFormed.get?_wellKnown rfl
  rw [wellFormed.textOf_eq entry]
  exact Shows.displayStep_of_named (by decide) _ _

theorem WellFormed.reads_of_shows (wellFormed : t.WellFormed) (entry : t.get? id = some d)
    (shows : Shows d f) (inside : ∀ target ∈ f.references, t.Readable target) :
    (∀ nested, Reads (t.textOf id nested).toList (f.pieces t.pieces nested)) ∧
      t.pieces id = f.pieces t.pieces := by
  have reads (nested : Bool) : Reads (t.textOf id nested).toList (f.pieces t.pieces nested) := by
    rw [wellFormed.textOf_eq entry]
    exact shows.reads (wellFormed.textOf_boolean true)
      (fun target included => (inside target included).reads) nested
  exact ⟨reads, funext fun nested => (reads nested).piecesOf_eq⟩

theorem WellFormed.readable_of_shows (wellFormed : t.WellFormed) (entry : t.get? id = some d)
    (shows : Shows d f) (inside : ∀ target ∈ f.references, t.Readable target) : t.Readable id := by
  obtain ⟨reads, pieces⟩ := wellFormed.reads_of_shows entry shows inside
  refine ⟨fun nested => pieces ▸ reads nested, ?_⟩
  rw [pieces]
  exact TypeForm.clear_pieces shows.proper fun target included => (inside target included).clear

theorem WellFormed.readable_boolean (wellFormed : t.WellFormed) : t.Readable .boolean :=
  wellFormed.readable_of_shows (wellFormed.get?_wellKnown rfl) shows_boolean
    fun _ none => nomatch none

theorem Structural.readable (wellFormed : t.WellFormed) (canonical : t.Canonical)
    (structural : t.Structural id) : t.Readable id := by
  induction structural with
  | @intro id d entry isStructural _ ih =>
      obtain ⟨f, shows⟩ := exists_shows wellFormed canonical entry isStructural
      refine wellFormed.readable_of_shows entry shows fun target included => ?_
      rcases shows.references included with reference | rfl
      · exact ih target reference
      · exact wellFormed.readable_boolean

theorem WellFormed.structural_boolean (wellFormed : t.WellFormed) : t.Structural .boolean := by
  refine .intro (wellFormed.get?_wellKnown rfl) trivial fun target reference => ?_
  rcases List.mem_pair.mp reference with rfl | rfl
  · exact .intro (wellFormed.get?_wellKnown rfl) trivial fun _ none => nomatch none
  · exact .intro (wellFormed.get?_wellKnown rfl) trivial fun _ none => nomatch none

/-- A structural type is shown in a form of structural types. -/
theorem Structural.exists_form (wellFormed : t.WellFormed) (canonical : t.Canonical)
    (structural : t.Structural id) : ∃ d f, t.get? id = some d ∧ Shows d f ∧
      ∀ target ∈ f.references, t.Structural target := by
  cases structural with
  | @intro _ d entry isStructural inside =>
      obtain ⟨f, shows⟩ := exists_shows wellFormed canonical entry isStructural
      refine ⟨d, f, entry, shows, fun target included => ?_⟩
      rcases shows.references included with reference | rfl
      · exact inside target reference
      · exact wellFormed.structural_boolean

/-!
## Different types
-/

/-- No other structural type has the same pieces. -/
def Told (t : Table) (id : TypeId) : Prop :=
  ∀ other, t.Structural other → ∀ nested, t.pieces id nested = t.pieces other nested → id = other

private theorem told_of_shows (wellFormed : t.WellFormed) (canonical : t.Canonical)
    (entry : t.get? id = some d) (shows : Shows d f)
    (structural : ∀ target ∈ f.references, t.Structural target)
    (told : ∀ target ∈ f.references, t.Told target) : t.Told id := by
  intro other structuralOther nested same
  obtain ⟨e, g, entry', shows', structural'⟩ := structuralOther.exists_form wellFormed canonical
  have readable : ∀ target ∈ f.references, t.Readable target := fun target included =>
    (structural target included).readable wellFormed canonical
  have readable' : ∀ target ∈ g.references, t.Readable target := fun target included =>
    (structural' target included).readable wellFormed canonical
  rw [(wellFormed.reads_of_shows entry shows readable).2,
    (wellFormed.reads_of_shows entry' shows' readable').2] at same
  have forms : f = g :=
    TypeForm.eq_of_pieces_eq shows.proper shows'.proper
      (fun target included => (readable target included).clear)
      (fun target included => (readable' target included).clear)
      (fun target included target' included' nested =>
        told target included target' (structural' target' included') nested) same
  subst forms
  rw [shows.injective shows'] at entry
  exact wellFormed.get?_injective entry entry'

theorem WellFormed.told_boolean (wellFormed : t.WellFormed) (canonical : t.Canonical) :
    t.Told .boolean :=
  told_of_shows wellFormed canonical (wellFormed.get?_wellKnown rfl) shows_boolean
    (fun _ none => nomatch none) (fun _ none => nomatch none)

theorem Structural.told (wellFormed : t.WellFormed) (canonical : t.Canonical)
    (structural : t.Structural id) : t.Told id := by
  induction structural with
  | @intro id d entry isStructural inside ih =>
      obtain ⟨f, shows⟩ := exists_shows wellFormed canonical entry isStructural
      refine told_of_shows wellFormed canonical entry shows ?_ ?_
      · intro target included
        rcases shows.references included with reference | rfl
        · exact inside target reference
        · exact wellFormed.structural_boolean
      · intro target included
        rcases shows.references included with reference | rfl
        · exact ih target reference
        · exact wellFormed.told_boolean canonical

/-- In a table that is built from the well-known types no two structural types have the same
text. -/
theorem display_injective (built : initial.Grows t) (first : t.Structural a)
    (second : t.Structural b) (same : t.display a = t.display b) : a = b := by
  have told := first.told (wellFormed_of_grows built) (canonical_of_grows built)
  exact told b second false (congrArg (fun text : String => piecesOf text.toList) same)

private theorem grows_ofList_concat {ds : List Descriptor} (call : BuilderCall)
    (grows : initial.Grows (ofList ds)) (contained : ∀ id ∈ call.ids, id.index < ds.length)
    (runs : call.run (ofList ds) = (ofList ds).intern d) (fresh : d ∉ ds) :
    initial.Grows (ofList (ds ++ [d])) := by
  have entries : (ofList ds).entries.toList = ds := by
    simp [ofList, entries_foldl_push, empty]
  have interned := (wellFormed_of_grows grows).indexed.intern_of_fresh (entries.symm ▸ fresh)
  have pushed : (call.run (ofList ds)).1 = ofList (ds ++ [d]) := by
    rw [runs, interned]
    simp [ofList]
  have size : (ofList ds).size = ds.length := by
    rw [Table.size, ← Array.length_toList, entries]
  refine pushed ▸ grows.call call fun id included => ?_
  rw [contains_iff, size]
  exact contained id included

namespace Functions

/-!
A function that returns an array, and an array of functions.
-/

def descriptors : List Descriptor :=
  wellKnown ++ [.array .string, .object ⟨[], [], [⟨[], ⟨14⟩⟩]⟩, .object ⟨[], [], [⟨[], .string⟩]⟩,
    .array ⟨16⟩]

def table : Table :=
  .ofList descriptors

private theorem grows_table : initial.Grows table := by
  have loaded : initial = ofList wellKnown :=
    (ofDescriptors?_eq_ok_iff.mp ofDescriptors?_wellKnown).2.2
  have start : initial.Grows (ofList wellKnown) := loaded ▸ .refl
  have array := grows_ofList_concat (.array .string) start (by decide) rfl (by decide)
  have returning := grows_ofList_concat (.function [] ⟨14⟩) array (by decide) rfl (by decide)
  have function := grows_ofList_concat (.function [] .string) returning (by decide) rfl
    (by decide)
  exact grows_ofList_concat (.array ⟨16⟩) function (by decide) rfl (by decide)

private theorem structural_string : table.Structural .string :=
  .intro rfl trivial fun _ none => nomatch none

private theorem structural_returning : table.Structural ⟨15⟩ := by
  have array : table.Structural ⟨14⟩ :=
    .intro rfl trivial (List.forall_mem_singleton.mpr structural_string)
  exact .intro rfl ⟨_, rfl⟩ (List.forall_mem_singleton.mpr array)

private theorem structural_functions : table.Structural ⟨17⟩ := by
  have function : table.Structural ⟨16⟩ :=
    .intro rfl ⟨_, rfl⟩ (List.forall_mem_singleton.mpr structural_string)
  exact .intro rfl trivial (List.forall_mem_singleton.mpr function)

private theorem functions_again : (table.array (table.function [] .string).2).2 = ⟨17⟩ := by
  have indexed := (wellFormed_of_grows grows_table).indexed
  have function : table.function [] .string = (table, ⟨16⟩) := indexed.intern_of_get? (by decide)
  have array : table.array ⟨16⟩ = (table, ⟨17⟩) := indexed.intern_of_get? (by decide)
  rw [function, array]

end Functions

open Functions in
/-- An array of functions is shown in parentheses, so it is not taken for a function that returns
an array. Only the type that is built in the same way has its text. -/
theorem functions_told_apart :
    initial.Grows table ∧ table.Structural ⟨15⟩ ∧ table.Structural ⟨17⟩ ∧
      table.display ⟨15⟩ = "() => string[]" ∧ table.display ⟨17⟩ = "(() => string)[]" ∧
      (table.array (table.function [] .string).2).2 = ⟨17⟩ := by
  refine ⟨grows_table, structural_returning, structural_functions, by decide +kernel,
    by decide +kernel, display_injective grows_table ?_ structural_functions ?_⟩
  · rw [functions_again]
    exact structural_functions
  · rw [functions_again]

end Table

end ConditionLint
