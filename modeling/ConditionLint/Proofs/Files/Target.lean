import ConditionLint.Files.Tree
import ConditionLint.Proofs.Files.Order

/-!
# Paths while files are written

Writing makes or replaces the file that a path leads to or would lead to. Which file that is depends
on the directories alone, so it is the same for every path before and after a file is written.
-/

set_option autoImplicit false

namespace ConditionLint.Files

/-!
## Entries
-/

namespace Entry

variable {names more : List Name} {name : Name} {e : Entry}

/-- What is at the end of a row of names, if anything: a directory or a file. -/
def kindAt (e : Entry) (names : List Name) : Option Bool :=
  (e.find? names).map isDirectory

theorem find?_cons (e : Entry) (name : Name) (names : List Name) :
    e.find? (name :: names) = (e.entries.lookup name).bind (·.find? names) := rfl

theorem find?_append (e : Entry) (names more : List Name) :
    e.find? (names ++ more) = (e.find? names).bind (·.find? more) := by
  induction names generalizing e with
  | nil => rfl
  | cons name rest ih =>
      rw [List.cons_append, find?_cons, find?_cons]
      cases e.entries.lookup name with
      | none => rfl
      | some inner => exact ih inner

theorem eq_directory (directory : e.isDirectory = true) : e = .directory e.entries := by
  cases e with
  | file => cases directory
  | directory => rfl

theorem kindAt_eq_true_iff :
    e.kindAt names = some true ↔ ∃ entries, e.find? names = some (.directory entries) := by
  unfold kindAt
  cases e.find? names with
  | none => simp
  | some found => cases found <;> simp [isDirectory]

theorem kindAt_below (noDirectory : e.kindAt names ≠ some true) (below : more ≠ []) :
    e.kindAt (names ++ more) = none := by
  rw [kindAt, find?_append]
  cases found : e.find? names with
  | none => rfl
  | some entry =>
      cases entry with
      | directory entries => exact absurd (kindAt_eq_true_iff.mpr ⟨entries, found⟩) noDirectory
      | file =>
          cases more with
          | nil => exact absurd rfl below
          | cons => rfl

private theorem kindAt_concat {entries : List (Name × Entry)}
    (found : e.find? names = some (.directory entries)) (name : Name) :
    (e.kindAt (names ++ [name])).isSome = (entries.lookup name).isSome := by
  rw [kindAt, find?_append, found]
  cases inner : entries.lookup name <;> simp [find?, Entry.entries, inner]

private theorem lookup_filter_ne {entries : List (Name × Entry)} {other : Name}
    (different : other ≠ name) :
    (entries.filter (·.1 != name)).lookup other = entries.lookup other := by
  induction entries with
  | nil => rfl
  | cons entry rest ih =>
      obtain ⟨first, inner⟩ := entry
      by_cases same : first = name
      · subst same
        have skipped : (other == first) = false := beq_false_of_ne different
        simp [ih, List.lookup_cons, skipped]
      · simp [same, List.lookup_cons, ih]

theorem kindAt_cons (e : Entry) (name : Name) (names : List Name) :
    e.kindAt (name :: names) = (e.entries.lookup name).bind (·.kindAt names) := by
  rw [kindAt, find?_cons]
  cases e.entries.lookup name <;> rfl

private theorem isDirectory_of_kindAt (found : e.kindAt names = some true) :
    e.isDirectory = true := by
  cases e with
  | directory => rfl
  | file =>
      cases names with
      | nil => simp [kindAt, find?, isDirectory] at found
      | cons => simp [kindAt_cons, Entry.entries] at found

private theorem put_cons (entry : Entry) (first : Name) (entries : List (Name × Entry))
    (below : names ≠ []) :
    put entry (first :: names) entries =
      (first, .directory (put entry names (((entries.lookup first).map Entry.entries).getD []))) ::
        entries.filter (·.1 != first) := by
  cases names with
  | nil => exact absurd rfl below
  | cons => rfl

private theorem kindAt_replaced {entries : List (Name × Entry)} {entry : Entry} {other : Name}
    (different : other ≠ name) (rest : List Name) :
    (Entry.directory ((name, entry) :: entries.filter (·.1 != name))).kindAt (other :: rest) =
      (Entry.directory entries).kindAt (other :: rest) := by
  have skipped : (other == name) = false := beq_false_of_ne different
  rw [kindAt_cons, kindAt_cons]
  simp [Entry.entries, List.lookup_cons, skipped, lookup_filter_ne different]

private theorem kindAt_first (name : Name) (entry : Entry) (entries : List (Name × Entry))
    (rest : List Name) :
    (Entry.directory ((name, entry) :: entries)).kindAt (name :: rest) = entry.kindAt rest := by
  rw [kindAt_cons]
  simp [Entry.entries]

/-- Putting a file into a directory that is there changes what is at its own place only. -/
theorem kindAt_put {entries : List (Name × Entry)} (parent : List Name)
    (directory : (Entry.directory entries).kindAt parent = some true)
    (free : (Entry.directory entries).kindAt (parent ++ [name]) ≠ some true) (other : List Name) :
    (Entry.directory (put .file (parent ++ [name]) entries)).kindAt other =
      if other = parent ++ [name] then some false
      else (Entry.directory entries).kindAt other := by
  induction parent generalizing entries other with
  | nil =>
      cases other with
      | nil => rfl
      | cons head rest =>
          by_cases same : head = name
          · subst same
            rw [List.nil_append, put, kindAt_first]
            cases rest with
            | nil => simp [kindAt, find?, isDirectory]
            | cons second rest =>
                have nothing : (Entry.directory entries).kindAt ([head] ++ second :: rest) = none :=
                  kindAt_below free (List.cons_ne_nil _ _)
                simpa [kindAt_cons, Entry.entries] using nothing.symm
          · rw [List.nil_append, put, kindAt_replaced same, if_neg (by simp [same])]
  | cons first parent ih =>
      rw [List.cons_append] at free ⊢
      rw [put_cons _ _ _ (by simp)]
      cases other with
      | nil => rfl
      | cons head rest =>
          by_cases same : head = first
          · subst same
            rw [kindAt_first, kindAt_cons (.directory entries)]
            rw [kindAt_cons] at directory free
            obtain ⟨inner, found, within⟩ := Option.bind_eq_some_iff.mp directory
            have present : entries.lookup head = some inner := found
            have whole := eq_directory (isDirectory_of_kindAt within)
            simp only [found, present, Option.map_some, Option.getD_some, Option.bind_some]
              at free ⊢
            rw [whole] at within free
            rw [ih within free, ← whole]
            simp
          · rw [kindAt_replaced same, if_neg (by simp [same])]

end Entry

/-!
## Following paths
-/

namespace FileTree

variable {t u : FileTree} {p q : Path} {names start parent : List Name} {piece : Name}

/-- The piece of a path is a step to an entry by its name. -/
def isNameStep (piece : Name) : Bool :=
  !(piece.isEmpty || piece = Name.here || piece = Name.up)

private theorem isNameStep_of_isEntryName (new : isEntryName piece = true) :
    isNameStep piece = true := by
  simp_all [isEntryName, isNameStep]

private theorem follow?_of_not_directory (noDirectory : t.root.kindAt names ≠ some true)
    (piece : Name) : t.follow? names piece = none := by
  unfold follow?
  split
  · rename_i entries found
    exact absurd (Entry.kindAt_eq_true_iff.mpr ⟨entries, found⟩) noDirectory
  · rfl

theorem follow?_name (directory : t.root.kindAt names = some true)
    (step : isNameStep piece = true) :
    t.follow? names piece =
      if (t.root.kindAt (names ++ [piece])).isSome then
        some (names ++ [piece])
      else none := by
  obtain ⟨entries, found⟩ := Entry.kindAt_eq_true_iff.mp directory
  simp only [isNameStep, Bool.not_eq_true', Bool.or_eq_false_iff, decide_eq_false_iff_not] at step
  rw [Entry.kindAt_concat found]
  simp [follow?, found, step]

/-- Any other step leads from a directory to a directory, whatever entries there are. -/
theorem follow?_other (directory : t.root.kindAt names = some true)
    (other : isNameStep piece = false) :
    t.follow? names piece = some (if piece = Name.up then names.dropLast else names) := by
  obtain ⟨entries, found⟩ := Entry.kindAt_eq_true_iff.mp directory
  simp only [isNameStep, Bool.not_eq_false', Bool.or_eq_true, decide_eq_true_eq] at other
  rcases other with (empty | here) | up
  · have nothing : piece = [] := List.isEmpty_iff.mp empty
    subst nothing
    simp [follow?, found, Name.up_ne_nil.symm]
  · subst here
    simp [follow?, found]
  · subst up
    simp [follow?, found, Name.here_ne_up.symm]

private theorem kindAt_dropLast (directory : t.root.kindAt names = some true) :
    t.root.kindAt names.dropLast = some true := by
  rcases List.eq_nil_or_concat' names with rfl | ⟨parent, name, rfl⟩
  · exact directory
  · rw [List.dropLast_concat]
    by_contra noDirectory
    rw [Entry.kindAt_below noDirectory (List.cons_ne_nil _ _)] at directory
    cases directory

theorem walk_cons (t : FileTree) (start : List Name) (piece : Name) (rest : List Name) :
    t.walk start (piece :: rest) = (t.follow? start piece).bind (t.walk · rest) := rfl

theorem walk_append (t : FileTree) (start init more : List Name) :
    t.walk start (init ++ more) = (t.walk start init).bind (t.walk · more) :=
  List.foldlM_append ..

theorem walk_concat (t : FileTree) (start init : List Name) (last : Name) :
    t.walk start (init ++ [last]) = (t.walk start init).bind (t.follow? · last) := by
  rw [walk_append]
  cases t.walk start init with
  | none => rfl
  | some names => exact bind_pure _

theorem resolve?_of_nonempty (nonempty : p.bytes.isEmpty = false) :
    t.resolve? p = t.walk (t.origin p) p.pieces := by
  simp [resolve?, nonempty]

theorem isFile_iff_of_resolve? (resolved : t.resolve? p = some names) :
    t.isFile p = true ↔ t.root.kindAt names = some false := by
  rw [isFile, entry?, resolved, Option.bind_some, Entry.kindAt]
  cases t.root.find? names <;> simp

/-!
## Files that a path leads to or would lead to
-/

/-- The last step of a path leads from a directory to a file by its name, or to a name that a new
file can have. -/
structure LeadsToFile (t : FileTree) (p : Path) (parent : List Name) (last : Name) : Prop where
  nonempty : p.bytes.isEmpty = false
  pieces : ∃ init, p.pieces = init ++ [last] ∧ t.walk (t.origin p) init = some parent
  directory : t.root.kindAt parent = some true
  step : isNameStep last = true
  place : t.root.kindAt (parent ++ [last]) = some false ∨
    t.root.kindAt (parent ++ [last]) = none ∧ isEntryName last = true

theorem LeadsToFile.resolve?_eq {last : Name} (leads : t.LeadsToFile p parent last) :
    t.resolve? p =
      if (t.root.kindAt (parent ++ [last])).isSome then some (parent ++ [last]) else none := by
  obtain ⟨init, pieces, walked⟩ := leads.pieces
  rw [resolve?_of_nonempty leads.nonempty, pieces, walk_concat, walked, Option.bind_some,
    follow?_name leads.directory leads.step]

private theorem any_isDirectory_iff :
    (t.root.find? names).any Entry.isDirectory = true ↔ t.root.kindAt names = some true := by
  rw [Entry.kindAt]
  cases t.root.find? names <;> simp

/-- What writing to a path that leads nowhere makes. -/
theorem target?_of_resolve?_eq_none (unresolved : t.resolve? p = none) :
    t.target? p = some names ↔
      ∃ init last parent, p.pieces = init ++ [last] ∧ isEntryName last = true ∧
        t.walk (t.origin p) init = some parent ∧ t.root.kindAt parent = some true ∧
        parent ++ [last] = names := by
  obtain ⟨init, last, pieces⟩ :=
    (List.eq_nil_or_concat' p.pieces).resolve_left (pieces_ne_nil _)
  have walks : t.target? p = if isEntryName last then
      (t.walk (t.origin p) init).bind fun parent =>
        if (t.root.find? parent).any Entry.isDirectory then some (parent ++ [last])
        else none
      else none := by
    simp [target?, unresolved, pieces, walk, origin]
  rw [walks]
  constructor
  · intro made
    split at made
    · rename_i new
      obtain ⟨parent, walked, made⟩ := Option.bind_eq_some_iff.mp made
      split at made
      · rename_i directory
        exact ⟨init, last, parent, pieces, new, walked, any_isDirectory_iff.mp directory,
          Option.some.inj made⟩
      · cases made
    · cases made
  · intro ⟨init', last', parent, pieces', new, walked, directory, made⟩
    obtain ⟨rfl, rest⟩ := List.append_inj' (pieces.symm.trans pieces') rfl
    cases rest
    rw [if_pos new, walked, Option.bind_some, if_pos (any_isDirectory_iff.mpr directory), made]

theorem target?_of_leadsToFile {last : Name} (leads : t.LeadsToFile p parent last) :
    t.target? p = some (parent ++ [last]) := by
  have resolved := leads.resolve?_eq
  obtain ⟨init, pieces, walked⟩ := leads.pieces
  rcases leads.place with file | ⟨nothing, new⟩
  · rw [file, Option.isSome_some, if_pos rfl] at resolved
    simp [target?, resolved, (isFile_iff_of_resolve? resolved).mpr file]
  · rw [nothing] at resolved
    exact (target?_of_resolve?_eq_none resolved).mpr
      ⟨init, last, parent, pieces, new, walked, leads.directory, rfl⟩

theorem exists_leadsToFile (targets : t.target? p = some names) :
    ∃ parent last, t.LeadsToFile p parent last ∧ names = parent ++ [last] := by
  cases resolved : t.resolve? p with
  | none =>
      obtain ⟨init, last, parent, pieces, new, walked, directory, rfl⟩ :=
        (target?_of_resolve?_eq_none resolved).mp targets
      have nonempty : p.bytes.isEmpty = false := by
        rw [Bool.eq_false_iff]
        intro empty
        rw [Path.pieces, List.isEmpty_iff.mp empty] at pieces
        have nothing : init ++ [last] = [] ++ [[]] := pieces.symm
        obtain ⟨_, same⟩ := List.append_inj' nothing rfl
        cases same
        cases new
      have step := isNameStep_of_isEntryName new
      have nothing : t.root.kindAt (parent ++ [last]) = none := by
        rw [resolve?_of_nonempty nonempty, pieces, walk_concat, walked, Option.bind_some,
          follow?_name directory step] at resolved
        simpa using resolved
      exact ⟨parent, last,
        ⟨nonempty, ⟨init, pieces, walked⟩, directory, step, .inr ⟨nothing, new⟩⟩, rfl⟩
  | some found =>
      have file : t.root.kindAt found = some false ∧ found = names := by
        simp only [target?, resolved] at targets
        split at targets
        · rename_i isFile
          exact ⟨(isFile_iff_of_resolve? resolved).mp isFile, Option.some.inj targets⟩
        · cases targets
      obtain ⟨file, rfl⟩ := file
      have nonempty : p.bytes.isEmpty = false := by
        rw [Bool.eq_false_iff]
        intro empty
        simp [resolve?, empty] at resolved
      obtain ⟨init, last, pieces⟩ :=
        (List.eq_nil_or_concat' p.pieces).resolve_left (pieces_ne_nil _)
      rw [resolve?_of_nonempty nonempty, pieces, walk_concat] at resolved
      obtain ⟨parent, walked, followed⟩ := Option.bind_eq_some_iff.mp resolved
      have directory : t.root.kindAt parent = some true := by
        by_contra noDirectory
        rw [follow?_of_not_directory noDirectory] at followed
        cases followed
      have step : isNameStep last = true := by
        by_contra other
        rw [follow?_other directory (Bool.eq_false_iff.mpr other)] at followed
        have still : t.root.kindAt found = some true := by
          rw [← Option.some.inj followed]
          split
          · exact kindAt_dropLast directory
          · exact directory
        rw [file] at still
        cases still
      rw [follow?_name directory step] at followed
      split at followed
      · cases followed
        exact ⟨parent, last, ⟨nonempty, ⟨init, pieces, walked⟩, directory, step, .inl file⟩, rfl⟩
      · cases followed

theorem target?_eq_some_iff :
    t.target? p = some names ↔
      ∃ parent last, t.LeadsToFile p parent last ∧ names = parent ++ [last] := by
  constructor
  · exact exists_leadsToFile
  · rintro ⟨parent, last, leads, rfl⟩
    exact target?_of_leadsToFile leads

/-!
## Trees with a file written
-/

/-- The second tree is the first with a file at its place in a directory. -/
structure Writes (t u : FileTree) (parent : List Name) (last : Name) : Prop where
  workingDirectory : u.workingDirectory = t.workingDirectory
  free : t.root.kindAt (parent ++ [last]) ≠ some true
  named : t.root.kindAt (parent ++ [last]) = none → isEntryName last = true
  kindAt : ∀ other, u.root.kindAt other =
    if other = parent ++ [last] then some false else t.root.kindAt other

theorem LeadsToFile.writes {last : Name} (leads : t.LeadsToFile p parent last) :
    t.Writes (t.add (parent ++ [last]) .file) parent last where
  workingDirectory := by
    unfold add
    split <;> rfl
  free := by
    rcases leads.place with file | ⟨nothing, _⟩
    · simp [file]
    · simp [nothing]
  named nothing := by
    rcases leads.place with file | ⟨_, new⟩
    · simp [file] at nothing
    · exact new
  kindAt other := by
    have root := Entry.eq_directory (Entry.isDirectory_of_kindAt leads.directory)
    have directory := leads.directory
    have free : t.root.kindAt (parent ++ [last]) ≠ some true := by
      rcases leads.place with file | ⟨nothing, _⟩
      · simp [file]
      · simp [nothing]
    rw [root] at directory free
    have placed := Entry.kindAt_put parent directory free other
    rw [← root] at placed
    simpa [add] using placed

/-- The pieces of a path lead to a directory. -/
def LeadsToDirectory (t : FileTree) (start : List Name) (pieces : List Name)
    (names : List Name) : Prop :=
  t.walk start pieces = some names ∧ t.root.kindAt names = some true

private theorem not_leadsToDirectory (noDirectory : t.root.kindAt start ≠ some true)
    (pieces : List Name) : ¬ t.LeadsToDirectory start pieces names := by
  intro ⟨walked, directory⟩
  cases pieces with
  | nil => cases walked; exact noDirectory directory
  | cons piece rest =>
      rw [walk_cons, follow?_of_not_directory noDirectory] at walked
      cases walked

namespace Writes

variable {last : Name}

theorem directory_iff (writes : t.Writes u parent last) :
    u.root.kindAt names = some true ↔ t.root.kindAt names = some true := by
  rw [writes.kindAt]
  split
  · rename_i same
    subst same
    simpa using writes.free
  · rfl

/-- No path to a directory passes the file. -/
theorem leadsToDirectory_iff (writes : t.Writes u parent last) (pieces : List Name) :
    u.LeadsToDirectory start pieces names ↔ t.LeadsToDirectory start pieces names := by
  induction pieces generalizing start with
  | nil => exact and_congr_right fun _ => writes.directory_iff
  | cons piece rest ih =>
      by_cases directory : t.root.kindAt start = some true
      · have directory' := writes.directory_iff.mpr directory
        simp only [LeadsToDirectory] at ih ⊢
        rw [walk_cons, walk_cons]
        cases step : isNameStep piece with
        | false =>
            rw [follow?_other directory step, follow?_other directory' step]
            exact ih
        | true =>
            rw [follow?_name directory step, follow?_name directory' step, writes.kindAt]
            by_cases same : start ++ [piece] = parent ++ [last]
            · have file : u.root.kindAt (parent ++ [last]) = some false := by
                simp [writes.kindAt]
              rw [same, if_pos rfl]
              refine iff_of_false ?_ ?_
              · exact not_leadsToDirectory (by simp [file]) rest
              · split
                · exact not_leadsToDirectory writes.free rest
                · intro ⟨walked, _⟩
                  cases walked
            · rw [if_neg same]
              split
              · exact ih
              · simp
      · exact iff_of_false (not_leadsToDirectory (mt writes.directory_iff.mp directory) _)
          (not_leadsToDirectory directory _)

/-- A file or a new name has a place in the one tree exactly if it has in the other. -/
theorem place_iff (writes : t.Writes u parent last) {inside : List Name} {name : Name} :
    (u.root.kindAt (inside ++ [name]) = some false ∨
        u.root.kindAt (inside ++ [name]) = none ∧ isEntryName name = true) ↔
      (t.root.kindAt (inside ++ [name]) = some false ∨
        t.root.kindAt (inside ++ [name]) = none ∧ isEntryName name = true) := by
  rw [writes.kindAt]
  split
  · rename_i same
    have name_eq : name = last := by
      obtain ⟨_, names⟩ := List.append_inj' same rfl
      exact (List.cons.inj names).1
    refine iff_of_true (.inl rfl) ?_
    rw [same, name_eq]
    cases here : t.root.kindAt (parent ++ [last]) with
    | none => exact .inr ⟨rfl, writes.named here⟩
    | some directory =>
        cases directory with
        | false => exact .inl rfl
        | true => exact absurd here writes.free
  · rfl

/-- What writing to a path makes or replaces is the same before and after. -/
theorem leadsToFile_iff (writes : t.Writes u parent last) {inside : List Name}
    {name : Name} : u.LeadsToFile q inside name ↔ t.LeadsToFile q inside name := by
  have origin : u.origin q = t.origin q := by
    rw [FileTree.origin, FileTree.origin, writes.workingDirectory]
  constructor
  · intro leads
    obtain ⟨init, pieces, walked⟩ := leads.pieces
    rw [origin] at walked
    obtain ⟨walked, directory⟩ := (writes.leadsToDirectory_iff init).mp ⟨walked, leads.directory⟩
    exact ⟨leads.nonempty, ⟨init, pieces, walked⟩, directory, leads.step,
      writes.place_iff.mp leads.place⟩
  · intro leads
    obtain ⟨init, pieces, walked⟩ := leads.pieces
    rw [← origin] at walked
    obtain ⟨walked, directory⟩ := (writes.leadsToDirectory_iff init).mpr ⟨walked, leads.directory⟩
    exact ⟨leads.nonempty, ⟨init, pieces, walked⟩, directory, leads.step,
      writes.place_iff.mpr leads.place⟩

theorem target?_eq (writes : t.Writes u parent last) (q : Path) : u.target? q = t.target? q := by
  apply Option.ext
  intro names
  rw [target?_eq_some_iff, target?_eq_some_iff]
  simp only [writes.leadsToFile_iff]

end Writes

/-- Writing to a path leaves what every path would be written to as it is, and makes or replaces one
file. -/
theorem target?_add (targets : t.target? p = some names) (q : Path) :
    (t.add names .file).target? q = t.target? q := by
  obtain ⟨parent, last, leads, rfl⟩ := exists_leadsToFile targets
  exact leads.writes.target?_eq q

end FileTree

end ConditionLint.Files
