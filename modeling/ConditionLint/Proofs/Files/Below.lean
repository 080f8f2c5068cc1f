import ConditionLint.Files.Search
import ConditionLint.Proofs.Files.Order

/-!
# The files below a directory

A search lists exactly the files that rows of names lead to from the directory, without entering
hidden directories and those of installed packages.
-/

set_option autoImplicit false

namespace ConditionLint.Files

variable {entries : List (Name × Entry)} {e inner : Entry} {name : Name}
  {names dirs : List Name} {condition : Path → Bool} {p d : Path}

/-- A file, or a directory whose entries have different names that a path can go on with, and are
proper themselves. -/
inductive Entry.Proper : Entry → Prop where
  | file : Proper .file
  | directory {entries : List (Name × Entry)} :
      (entries.map Prod.fst).Nodup → (∀ entry ∈ entries, Path.IsName entry.1) →
      (∀ entry ∈ entries, Proper entry.2) → Proper (.directory entries)

private theorem lookup_eq_some_iff (nodup : (entries.map Prod.fst).Nodup) :
    entries.lookup name = some inner ↔ (name, inner) ∈ entries := by
  rw [List.lookup_eq_some_iff]
  constructor
  · rintro ⟨before, after, rfl, _⟩
    simp
  · intro member
    obtain ⟨before, after, rfl⟩ := List.append_of_mem member
    refine ⟨before, after, rfl, fun entry earlier => ?_⟩
    rw [List.map_append, List.map_cons] at nodup
    have different : entry.1 ≠ name := by
      have disjoint := (List.nodup_append.mp nodup).2.2
      exact disjoint _ (List.mem_map_of_mem earlier) _ List.mem_cons_self
    simpa using different.symm

theorem Entry.Proper.find? (proper : e.Proper) (found : e.find? names = some inner) :
    inner.Proper := by
  induction names generalizing e with
  | nil =>
      cases found
      exact proper
  | cons name rest ih =>
      obtain ⟨next, listed, below⟩ := Option.bind_eq_some_iff.mp found
      cases proper with
      | file => cases listed
      | directory nodup _ entriesProper =>
          exact ih (entriesProper _ ((lookup_eq_some_iff nodup).mp listed)) below

theorem Entry.Proper.isName (proper : e.Proper) (found : e.find? names = some inner) :
    ∀ name ∈ names, Path.IsName name := by
  induction names generalizing e with
  | nil => exact List.forall_mem_nil _
  | cons name rest ih =>
      obtain ⟨next, listed, below⟩ := Option.bind_eq_some_iff.mp found
      cases proper with
      | file => cases listed
      | directory nodup areNames entriesProper =>
          have member := (lookup_eq_some_iff nodup).mp listed
          exact List.forall_mem_cons.mpr ⟨areNames _ member, ih (entriesProper _ member) below⟩

/-- A directory that a search enters. -/
def Entered (name : Name) : Prop :=
  name ≠ .ofText "node_modules" ∧ ¬ Name.ofText "." <+: name

instance (name : Name) : Decidable (Entered name) :=
  inferInstanceAs (Decidable (_ ∧ _))

/-- The search looks at names as they are shown, which tells the names that it skips from all
others. -/
theorem isSkipped_eq_false_iff : isSkipped name = false ↔ Entered name := by
  have hidden : name.shown.toList.head? = some '.' ↔ Name.ofText "." <+: name :=
    Text.head?_shown_iff (by decide)
  have packages : name.shown = "node_modules" ↔ name = .ofText "node_modules" :=
    Text.shown_eq_iff (by decide)
  rw [isSkipped, Entered, Bool.or_eq_false_iff, beq_eq_false_iff_ne, beq_eq_false_iff_ne, ne_eq,
    ne_eq, hidden, packages, and_comm]

/-- A row of names leads from an entry to a file that a search looks for: it goes through entered
directories, and the path satisfies the condition. -/
structure LeadsBelow (e : Entry) (condition : Path → Bool) (d : Path) (dirs : List Name)
    (name : Name) : Prop where
  file : e.find? (dirs ++ [name]) = some .file
  entered : ∀ dir ∈ dirs, Entered dir
  satisfies : condition (d.descend (dirs ++ [name])) = true

theorem mem_filesAmong_iff :
    p ∈ filesAmong condition d entries ↔ ∃ entry ∈ entries, p ∈ filesBelow condition d entry := by
  induction entries with
  | nil => simp [filesAmong]
  | cons entry rest ih => simp [filesAmong, ih]

private theorem mem_filesBelow_file :
    p ∈ filesBelow condition d (name, .file) ↔
      condition (d.child name) = true ∧ p = d.child name := by
  rw [filesBelow]
  split <;> simp_all

private theorem mem_filesBelow_directory :
    p ∈ filesBelow condition d (name, .directory entries) ↔
      Entered name ∧ p ∈ filesAmong condition (d.child name) entries := by
  rw [filesBelow, ← isSkipped_eq_false_iff]
  cases isSkipped name <;> simp

private theorem leadsBelow_nil_iff (nodup : (entries.map Prod.fst).Nodup) :
    LeadsBelow (.directory entries) condition d [] name ↔
      (name, .file) ∈ entries ∧ condition (d.child name) = true := by
  have found : (Entry.directory entries).find? [name] = some .file ↔ (name, .file) ∈ entries := by
    rw [← lookup_eq_some_iff nodup]
    cases listed : entries.lookup name <;> simp [Entry.find?, Entry.entries, listed]
  constructor
  · intro leads
    exact ⟨found.mp leads.file, leads.satisfies⟩
  · intro ⟨member, satisfies⟩
    exact ⟨found.mpr member, List.forall_mem_nil _, satisfies⟩

private theorem leadsBelow_cons_iff (nodup : (entries.map Prod.fst).Nodup) {first : Name} :
    LeadsBelow (.directory entries) condition d (first :: dirs) name ↔
      Entered first ∧ ∃ inside, (first, .directory inside) ∈ entries ∧
        LeadsBelow (.directory inside) condition (d.child first) dirs name := by
  constructor
  · intro ⟨file, entered, satisfies⟩
    obtain ⟨entersFirst, entered⟩ := List.forall_mem_cons.mp entered
    obtain ⟨inner, listed, below⟩ := Option.bind_eq_some_iff.mp file
    refine ⟨entersFirst, ?_⟩
    cases inner with
    | file => cases dirs <;> cases below
    | directory inside =>
        exact ⟨inside, (lookup_eq_some_iff nodup).mp listed, below, entered, satisfies⟩
  · intro ⟨entersFirst, inside, member, file, entered, satisfies⟩
    refine ⟨?_, List.forall_mem_cons.mpr ⟨entersFirst, entered⟩, satisfies⟩
    exact Option.bind_eq_some_iff.mpr ⟨_, (lookup_eq_some_iff nodup).mpr member, file⟩

/-- A search lists the files that rows of names lead to. -/
theorem Entry.Proper.mem_filesAmong (proper : e.Proper) (d p : Path) :
    p ∈ filesAmong condition d e.entries ↔
      ∃ dirs name, LeadsBelow e condition d dirs name ∧ p = d.descend (dirs ++ [name]) := by
  induction proper generalizing d with
  | file =>
      refine iff_of_false (by simp [Entry.entries, filesAmong]) ?_
      rintro ⟨dirs, name, leads, _⟩
      cases dirs <;> cases leads.file
  | @directory entries nodup _ _ ih =>
      rw [mem_filesAmong_iff]
      constructor
      · rintro ⟨⟨name, inner⟩, member, below⟩
        cases inner with
        | file =>
            obtain ⟨satisfies, rfl⟩ := mem_filesBelow_file.mp below
            exact ⟨[], name, (leadsBelow_nil_iff nodup).mpr ⟨member, satisfies⟩, rfl⟩
        | directory inside =>
            obtain ⟨entered, below⟩ := mem_filesBelow_directory.mp below
            obtain ⟨dirs, last, leads, rfl⟩ := (ih _ member (d.child name)).mp below
            exact ⟨name :: dirs, last,
              (leadsBelow_cons_iff nodup).mpr ⟨entered, inside, member, leads⟩, rfl⟩
      · rintro ⟨dirs, name, leads, rfl⟩
        cases dirs with
        | nil =>
            obtain ⟨member, satisfies⟩ := (leadsBelow_nil_iff nodup).mp leads
            exact ⟨_, member, mem_filesBelow_file.mpr ⟨satisfies, rfl⟩⟩
        | cons first dirs =>
            obtain ⟨entered, inside, member, leads⟩ := (leadsBelow_cons_iff nodup).mp leads
            refine ⟨_, member, mem_filesBelow_directory.mpr ⟨entered, ?_⟩⟩
            exact (ih _ member (d.child first)).mpr ⟨dirs, name, leads, rfl⟩

end ConditionLint.Files
