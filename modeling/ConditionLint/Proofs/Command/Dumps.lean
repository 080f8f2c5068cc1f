import ConditionLint.Command.Dump
import ConditionLint.Proofs.Files.Parent

/-!
# Collecting dumps

The dumps for paths that lead somewhere are those that each path gives: a file itself, and for a
directory the files below it with the ending of dumps. Names need not be text: a directory is
entered whatever its name is made of, but a name that is no text does not end in that of a dump.
Sorting brings the same paths together, so each of them is left once.
-/

set_option autoImplicit false

namespace ConditionLint.Command

open Files

variable {t : FileTree} {argument : String} {arguments : List String} {p q : Path}
  {paths : List Path}

/-!
## Repeated paths
-/

private theorem withoutRepeats_sublist (paths : List Path) :
    (withoutRepeats paths).Sublist paths := by
  fun_induction withoutRepeats paths with
  | case1 first second rest next left kept same ih =>
      rw [kept] at ih
      exact ((List.sublist_cons_self next left).trans ih).cons_cons first
  | case2 first second rest next left kept different ih =>
      rw [kept] at ih
      exact ih.cons_cons first
  | case3 first second rest none ih => exact (List.nil_sublist _).cons_cons first
  | case4 paths => exact List.Sublist.refl paths

private theorem exists_isSame_withoutRepeats (member : p ∈ paths) :
    ∃ q ∈ withoutRepeats paths, q.isSame p = true := by
  fun_induction withoutRepeats paths with
  | case1 first second rest next left kept same ih =>
      rcases List.mem_cons.mp member with rfl | later
      · exact ⟨p, List.mem_cons_self, Path.isSame_iff.mpr rfl⟩
      · obtain ⟨q, left, isSame⟩ := ih later
        rw [kept] at left
        rcases List.mem_cons.mp left with rfl | left
        · refine ⟨first, List.mem_cons_self, Path.isSame_iff.mpr ?_⟩
          exact (Path.isSame_iff.mp same).trans (Path.isSame_iff.mp isSame)
        · exact ⟨q, List.mem_cons_of_mem _ left, isSame⟩
  | case2 first second rest next left kept different ih =>
      rcases List.mem_cons.mp member with rfl | later
      · exact ⟨p, List.mem_cons_self, Path.isSame_iff.mpr rfl⟩
      · obtain ⟨q, left, isSame⟩ := ih later
        rw [kept] at left
        exact ⟨q, List.mem_cons_of_mem _ left, isSame⟩
  | case3 first second rest none ih =>
      rcases List.mem_cons.mp member with rfl | later
      · exact ⟨p, List.mem_cons_self, Path.isSame_iff.mpr rfl⟩
      · obtain ⟨q, left, _⟩ := ih later
        rw [none] at left
        cases left
  | case4 paths => exact ⟨p, member, Path.isSame_iff.mpr rfl⟩

/-- In a sorted list the same paths are next to each other, so what is left strictly increases. -/
private theorem pairwise_withoutRepeats (sorted : paths.Pairwise (Path.le · ·)) :
    (withoutRepeats paths).Pairwise Path.Before := by
  fun_induction withoutRepeats paths with
  | case1 first second rest next left kept same ih =>
      obtain ⟨_, sorted⟩ := List.pairwise_cons.mp sorted
      obtain ⟨before, increasing⟩ := List.pairwise_cons.mp (kept ▸ ih sorted)
      refine List.pairwise_cons.mpr ⟨fun q later => ?_, increasing⟩
      exact (before q later).of_isSame same
  | case2 first second rest next left kept different ih =>
      obtain ⟨le, sorted⟩ := List.pairwise_cons.mp sorted
      have increasing := kept ▸ ih sorted
      have sublist := kept ▸ withoutRepeats_sublist (second :: rest)
      have before : first.Before next :=
        ⟨le next (sublist.subset List.mem_cons_self), Bool.eq_false_iff.mpr different⟩
      refine List.pairwise_cons.mpr ⟨fun q later => ?_, increasing⟩
      rcases List.mem_cons.mp later with rfl | later
      · exact before
      · exact before.trans_le ((List.pairwise_cons.mp increasing).1 q later).1
  | case3 first second rest none ih => exact List.pairwise_singleton _ first
  | case4 paths short =>
      cases paths with
      | nil => exact List.Pairwise.nil
      | cons first rest =>
          cases rest with
          | nil => exact List.pairwise_singleton _ first
          | cons second rest => exact absurd rfl (short first second rest)

/-!
## What a path gives
-/

/-- The dump is one that the path on the command line stands for: the path itself if it leads to a
file, and every file below it with the ending of dumps that lies in entered directories. -/
inductive Gives (t : FileTree) (argument : String) : Path → Prop where
  | file : t.entry? (.ofText argument) = some .file → Gives t argument (.ofText argument)
  | below {entries : List (Name × Entry)} {dirs : List Name} {stem : String} :
      t.entry? (.ofText argument) = some (.directory entries) →
      (Entry.directory entries).find? (dirs ++ [.ofText (stem ++ ".typed.json")]) = some .file →
      (∀ dir ∈ dirs, Entered dir) →
      Gives t argument
        (Path.descend (.ofText argument) (dirs ++ [.ofText (stem ++ ".typed.json")]))

private theorem endsWith_dumpEnding_iff {name : String} :
    name.endsWith dumpEnding = true ↔ ∃ stem, name = stem ++ ".typed.json" := by
  rw [String.endsWith_eq_endsWith_toSlice, String.Slice.endsWith_string_iff]
  constructor
  · intro ⟨stem, whole⟩
    refine ⟨String.ofList stem, String.toList_inj.mp ?_⟩
    simpa [dumpEnding] using whole.symm
  · rintro ⟨stem, rfl⟩
    exact ⟨stem.toList, by simp [dumpEnding]⟩

/-- A path has the name of a dump only if the name is text. -/
theorem isDump_descend_iff {dirs : List Name} {name : Name} (isName : Path.IsName name) :
    isDump (p.descend (dirs ++ [name])) = true ↔
      ∃ stem, name = .ofText (stem ++ ".typed.json") := by
  have last : (p.descend (dirs ++ [name])).fileName? = some name := by
    rw [Path.descend, List.foldl_append]
    exact Path.fileName?_child isName _
  rw [isDump, last, Option.bind_some, Option.any_eq_true]
  constructor
  · rintro ⟨text, named, ends⟩
    obtain ⟨stem, rfl⟩ := endsWith_dumpEnding_iff.mp ends
    exact ⟨stem, Name.text?_eq_some_iff.mp named⟩
  · rintro ⟨stem, rfl⟩
    exact ⟨_, Name.text?_eq_some_iff.mpr rfl, endsWith_dumpEnding_iff.mpr ⟨stem, rfl⟩⟩

private theorem proper_of_entry? (tree : t.root.Proper) {e : Entry} (found : t.entry? p = some e) :
    e.Proper := by
  obtain ⟨names, _, found⟩ := Option.bind_eq_some_iff.mp found
  exact tree.find? found

private theorem mem_filesAmong_isDump_iff (tree : t.root.Proper) {entries : List (Name × Entry)}
    (found : t.entry? (.ofText argument) = some (.directory entries)) :
    p ∈ filesAmong isDump (.ofText argument) entries ↔ Gives t argument p := by
  have proper := proper_of_entry? tree found
  refine Iff.trans (proper.mem_filesAmong (.ofText argument) p) ?_
  constructor
  · rintro ⟨dirs, name, ⟨file, entered, satisfies⟩, rfl⟩
    have isName := proper.isName file name (by simp)
    obtain ⟨stem, rfl⟩ := (isDump_descend_iff isName).mp satisfies
    exact .below found file entered
  · intro gives
    cases gives with
    | file isFile => simp [found] at isFile
    | @below entries' dirs stem found' file entered =>
        obtain rfl : entries = entries' := by simpa [found] using found'
        have isName := proper.isName file (.ofText (stem ++ ".typed.json")) (by simp)
        exact ⟨dirs, _, ⟨file, entered, (isDump_descend_iff isName).mpr ⟨stem, rfl⟩⟩, rfl⟩

private theorem dumpsOf?_of_exists (tree : t.root.Proper)
    (existing : (t.entry? (.ofText argument)).isSome = true) :
    ∃ dumps, dumpsOf? t argument = some dumps ∧ ∀ p, p ∈ dumps ↔ Gives t argument p := by
  obtain ⟨e, found⟩ := Option.isSome_iff_exists.mp existing
  cases e with
  | file =>
      refine ⟨[.ofText argument], by simp [dumpsOf?, found], fun p => ?_⟩
      rw [List.mem_singleton]
      constructor
      · rintro rfl
        exact .file found
      · intro gives
        cases gives with
        | file => rfl
        | below found' => simp [found] at found'
  | directory entries =>
      exact ⟨filesAmong isDump (.ofText argument) entries, by simp [dumpsOf?, found],
        fun p => mem_filesAmong_isDump_iff tree found⟩

private theorem dumpsOfEach_of_exists (tree : t.root.Proper)
    (existing : ∀ argument ∈ arguments, (t.entry? (.ofText argument)).isSome = true) :
    ∃ dumps, dumpsOfEach t arguments = .ok dumps ∧
      ∀ p, p ∈ dumps ↔ ∃ argument ∈ arguments, Gives t argument p := by
  induction arguments with
  | nil => exact ⟨[], rfl, by simp⟩
  | cons argument rest ih =>
      obtain ⟨here, existing⟩ := List.forall_mem_cons.mp existing
      obtain ⟨dumps, first, gives⟩ := dumpsOf?_of_exists tree here
      obtain ⟨more, others, givesLater⟩ := ih existing
      refine ⟨dumps ++ more, by simp [dumpsOfEach, first, others, Except.map], fun p => ?_⟩
      rw [List.mem_append, gives, givesLater, List.exists_mem_cons_iff]

/-- The paths that one path on the command line gives are the same only if they are equal. -/
theorem Gives.eq_of_isSame (tree : t.root.Proper) (first : Gives t argument p)
    (second : Gives t argument q) (same : p.isSame q = true) : p = q := by
  cases first with
  | file found =>
      cases second with
      | file => rfl
      | below found' => simp [found] at found'
  | @below entries dirs stem found file =>
      cases second with
      | file found' => simp [found] at found'
      | @below entries' dirs' stem' found' file' =>
          obtain rfl : entries = entries' := by simpa [found] using found'
          have proper := proper_of_entry? tree found
          rw [Path.eq_of_isSame_descend (proper.isName file) (proper.isName file') same]

/-- Beside a path itself, only names are given that are text and have the ending of dumps. -/
private theorem Gives.exists_fileName (tree : t.root.Proper) (gives : Gives t argument p) :
    p = .ofText argument ∨ ∃ stem, p.fileName? = some (.ofText (stem ++ ".typed.json")) := by
  cases gives with
  | file => exact .inl rfl
  | @below entries dirs stem found file =>
      have proper := proper_of_entry? tree found
      have isName := proper.isName file (.ofText (stem ++ ".typed.json")) (by simp)
      rw [Path.descend, List.foldl_append]
      exact .inr ⟨stem, Path.fileName?_child isName _⟩

theorem Gives.isFile (tree : t.root.Proper) (gives : Gives t argument p) : t.isFile p = true := by
  cases gives with
  | file found => simp [FileTree.isFile, found, Entry.isDirectory]
  | @below entries dirs stem found file =>
      obtain ⟨names, resolved, directory⟩ := Option.bind_eq_some_iff.mp found
      have inside : t.root.find? (names ++ (dirs ++ [.ofText (stem ++ ".typed.json")])) =
          some .file := by
        rw [Entry.find?_append, directory]
        exact file
      have found' := FileTree.resolve?_descend tree resolved inside
      simp [FileTree.isFile, FileTree.entry?, found', inside, Entry.isDirectory]

/-- The dumps for paths that lead somewhere strictly increase; they are given by the paths, and of
everything that the paths give they hold one that is the same. One path gives exactly its dumps.
Apart from the paths themselves, no file is among the dumps whose name is no text. -/
theorem collect_exact (tree : t.root.Proper)
    (existing : ∀ argument ∈ arguments, (t.entry? (.ofText argument)).isSome = true) :
    ∃ files, collect t arguments = .ok files ∧ files.Pairwise Path.Before ∧
      (∀ p ∈ files, ∃ argument ∈ arguments, Gives t argument p) ∧
      (∀ argument ∈ arguments, ∀ p, Gives t argument p → ∃ q ∈ files, q.isSame p = true) ∧
      (∀ p ∈ files, p ∈ arguments.map .ofText ∨
        ∃ stem, p.fileName? = some (.ofText (stem ++ ".typed.json"))) ∧
      ∀ d, arguments = [d] → ∀ p, p ∈ files ↔ Gives t d p := by
  obtain ⟨dumps, each, gives⟩ := dumpsOfEach_of_exists tree existing
  have total : ∀ p q : Path, (p.le q || q.le p) = true := fun p q =>
    Bool.or_eq_true_iff.mpr (Path.le_total p q)
  have sorted : (dumps.mergeSort Path.le).Pairwise (Path.le · ·) :=
    List.pairwise_mergeSort (fun p q r => @Path.le_trans p q r) total dumps
  have given : ∀ p ∈ withoutRepeats (dumps.mergeSort Path.le),
      ∃ argument ∈ arguments, Gives t argument p := by
    intro p member
    exact (gives p).mp (List.mem_mergeSort.mp ((withoutRepeats_sublist _).subset member))
  have represented : ∀ argument ∈ arguments, ∀ p, Gives t argument p →
      ∃ q ∈ withoutRepeats (dumps.mergeSort Path.le), q.isSame p = true := by
    intro argument member p given
    exact exists_isSame_withoutRepeats (List.mem_mergeSort.mpr ((gives p).mpr ⟨_, member, given⟩))
  refine ⟨withoutRepeats (dumps.mergeSort Path.le), by simp [collect, each, Except.map],
    pairwise_withoutRepeats sorted, given, represented, ?_, ?_⟩
  · intro p member
    obtain ⟨argument, listed, isGiven⟩ := given p member
    rcases isGiven.exists_fileName tree with rfl | named
    · exact .inl (List.mem_map_of_mem listed)
    · exact .inr named
  · intro d alone p
    subst alone
    constructor
    · intro member
      simpa using given p member
    · intro isGiven
      obtain ⟨q, member, same⟩ := represented d List.mem_cons_self p isGiven
      have qGiven : Gives t d q := by simpa using given q member
      rwa [← qGiven.eq_of_isSame tree isGiven same]

namespace Searched

/-!
A directory with dumps that are found and dumps that are not. Two of its names are no text: that of
a directory, and one that has the bytes of the ending of dumps.
-/

def noText : Name :=
  [0xff]

def entries : List (Name × Entry) :=
  [(.ofText ".cache", .directory [(.ofText "a.typed.json", .file)]),
    (.ofText "b.typed.json", .file),
    (.ofText "nested", .directory [(.ofText "c.ts", .file), (.ofText "c.typed.json", .file)]),
    (.ofText "node_modules", .directory [(.ofText "d.typed.json", .file)]),
    (.ofText "other.json", .file),
    (noText, .directory [(.ofText "e.typed.json", .file)]),
    (noText ++ .ofText ".typed.json", .file)]

def tree : FileTree :=
  ⟨.directory [(.ofText "work", .directory entries)], [.ofText "work"]⟩

private theorem proper_of_files {entries : List (Name × Entry)}
    (nodup : (entries.map Prod.fst).Nodup)
    (areNames : ∀ entry ∈ entries, Path.IsName entry.1)
    (areFiles : ∀ inner ∈ entries.map Prod.snd, inner = .file) :
    (Entry.directory entries).Proper := by
  refine .directory nodup areNames fun entry member => ?_
  rw [areFiles entry.2 (List.mem_map_of_mem member)]
  exact .file

private theorem proper_tree : tree.root.Proper := by
  refine .directory (by decide) (by decide) (List.forall_mem_singleton.mpr ?_)
  refine .directory (by decide) (by decide) ?_
  simp only [entries, List.forall_mem_cons]
  refine ⟨?_, .file, ?_, ?_, .file, ?_, .file, List.forall_mem_nil _⟩
  all_goals exact proper_of_files (by decide) (by decide) (by simp)

/-- The path of a name with the ending of dumps inside a directory, found from the working
directory. -/
private theorem gives_work {dirs : List Name} {stem : String}
    (file :
      (Entry.directory entries).find? (dirs ++ [.ofText (stem ++ ".typed.json")]) = some .file)
    (entered : ∀ dir ∈ dirs, Entered dir) :
    Gives tree "/work/"
      (Path.descend (.ofText "/work/") (dirs ++ [.ofText (stem ++ ".typed.json")])) :=
  .below rfl file entered

end Searched

theorem nested_dumps_collected :
    (∃ files, collect Searched.tree ["/work/nested", "/work/", "other.json"] = .ok files ∧
      files.Pairwise Path.Before ∧
      (∃ q ∈ files, q.isSame (.ofText "/work/nested/c.typed.json") = true) ∧
      ∃ q ∈ files, q.isSame (.ofText "other.json") = true) ∧
    ∃ files, collect Searched.tree ["/work/"] = .ok files ∧
      (Path.ofText "/work/").descend [Searched.noText, .ofText "e.typed.json"] ∈ files ∧
      (Path.ofText "/work/").child (Searched.noText ++ Name.ofText ".typed.json") ∉ files := by
  constructor
  · have existing : ∀ argument ∈ ["/work/nested", "/work/", "other.json"],
        (Searched.tree.entry? (.ofText argument)).isSome = true := by
      decide +kernel
    obtain ⟨files, collected, increasing, _, represented, _⟩ :=
      collect_exact Searched.proper_tree existing
    have below : Gives Searched.tree "/work/" (.ofText "/work/nested/c.typed.json") := by
      have path : Path.descend (.ofText "/work/")
          ([.ofText "nested"] ++ [.ofText ("c" ++ ".typed.json")]) =
            .ofText "/work/nested/c.typed.json" := by
        decide +kernel
      rw [← path]
      exact Searched.gives_work rfl (by decide +kernel)
    exact ⟨files, collected, increasing, represented _ (by simp) _ below,
      represented _ (by simp) _ (.file rfl)⟩
  · have existing : ∀ argument ∈ ["/work/"],
        (Searched.tree.entry? (.ofText argument)).isSome = true := by
      decide +kernel
    obtain ⟨files, collected, _, _, _, named, exact⟩ :=
      collect_exact Searched.proper_tree existing
    refine ⟨files, collected, (exact _ rfl _).mpr ?_, fun member => ?_⟩
    · have row : [Searched.noText, .ofText "e.typed.json"] =
          [Searched.noText] ++ [.ofText ("e" ++ ".typed.json")] := by
        decide +kernel
      rw [row]
      exact Searched.gives_work rfl (by decide +kernel)
    · rcases named _ member with argument | ⟨stem, name⟩
      · revert argument
        decide +kernel
      · have undecodable : Name.text? (Searched.noText ++ Name.ofText ".typed.json") = none := by
          decide +kernel
        rw [Path.fileName?_child (by decide +kernel), Option.some.injEq] at name
        rw [Name.text?_eq_some_iff.mpr name] at undecodable
        cases undecodable

end ConditionLint.Command
