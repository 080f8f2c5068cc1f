import ConditionLint.Proofs.Files.Below
import ConditionLint.Proofs.Files.Target

/-!
# Paths taken from the directory of a file

The path of a file without its last component leads to the directory that the file lies in, so a
relative path put behind it leads where it would lead from there.
-/

set_option autoImplicit false

namespace ConditionLint.Files

/-!
## Rows cut at a separator
-/

section Pieces

variable {α : Type} [DecidableEq α] {separator : α}

/-- The number of places that pieces take, with a separator behind each. -/
def width : List (List α) → Nat
  | [] => 0
  | piece :: rest => piece.length + 1 + width rest

end Pieces

namespace Path

/-!
## The last step
-/

/-- The piece of a path is no step at all. -/
def IsIdle (piece : Name) : Prop :=
  piece = [] ∨ piece = Name.here

end Path

namespace FileTree

variable {t : FileTree} {p q : Path} {dir start init back : List Name} {last name : Name}

/-!
## Directories
-/

private theorem eq_of_follow?_idle {piece : Name} {names : List Name} (idle : Path.IsIdle piece)
    (followed : t.follow? start piece = some names) : names = start := by
  unfold follow? at followed
  split at followed
  · rcases idle with rfl | rfl <;> simpa [eq_comm] using followed
  · cases followed

/-- The tree with another working directory. -/
def inside (t : FileTree) (dir : List Name) : FileTree :=
  { t with workingDirectory := dir }

private theorem nonempty_of_pieces (pieces : q.pieces = init ++ [last])
    (isStep : isNameStep last = true) :
    q.bytes.isEmpty = false := by
  cases bytes : q.bytes with
  | cons => rfl
  | nil =>
      have single : init ++ [last] = [] ++ [[]] := by
        rw [← pieces, Path.pieces, bytes]
        rfl
      obtain ⟨_, same⟩ := List.append_inj' single rfl
      cases same
      cases isStep

private theorem exists_pieces_front (lies : t.walk (t.origin p) p.pieces = some dir)
    {steps : List UInt8}
    (relative : steps.head? ≠ some separator) :
    ∃ front, (p.child steps).pieces = front ++ pieces separator steps ∧
      t.walk (t.origin (p.child steps)) front = some dir := by
  obtain ⟨front, whole, inside⟩ := p.exists_pieces_child steps
  refine ⟨front, inside, ?_⟩
  rw [FileTree.origin, p.isAbsolute_child relative, ← FileTree.origin]
  rcases whole with whole | whole
  · rw [whole, walk_concat] at lies
    obtain ⟨names, reached, idling⟩ := Option.bind_eq_some_iff.mp lies
    rw [reached, eq_of_follow?_idle (.inl rfl) idling]
  · rwa [whole] at lies

theorem resolve?_child (found : t.resolve? p = some dir) (isName : Path.IsName name)
    (present : (t.root.kindAt (dir ++ [name])).isSome = true) :
    t.resolve? (p.child name) = some (dir ++ [name]) := by
  have nonempty : p.bytes.isEmpty = false := by
    rw [Bool.eq_false_iff]
    intro empty
    simp [resolve?, empty] at found
  have directory : t.root.kindAt dir = some true := by
    by_contra noDirectory
    rw [Entry.kindAt_below noDirectory (List.cons_ne_nil _ _)] at present
    cases present
  have isStep : isNameStep name = true := by
    have excluded := isName.1
    simp only [List.mem_cons, List.not_mem_nil, or_false, not_or] at excluded
    simp [isNameStep, excluded]
  have relative : name.head? ≠ some separator := fun first =>
    isName.2 (List.mem_of_mem_head? first)
  rw [resolve?_of_nonempty nonempty] at found
  obtain ⟨front, pieces, toFront⟩ := exists_pieces_front found relative
  rw [pieces_of_not_mem isName.2] at pieces
  rw [resolve?_of_nonempty (nonempty_of_pieces pieces isStep), pieces, walk_concat, toFront,
    Option.bind_some, follow?_name directory isStep, if_pos present]

/-- Names below a directory are found behind a path to the directory. -/
theorem resolve?_descend (proper : t.root.Proper) {row : List Name} {e : Entry}
    (found : t.resolve? p = some dir) (below : t.root.find? (dir ++ row) = some e) :
    t.resolve? (p.descend row) = some (dir ++ row) := by
  induction row generalizing p dir with
  | nil => rwa [List.append_nil]
  | cons name rest ih =>
      have isName := proper.isName below name (by simp)
      rw [List.append_cons] at below ⊢
      have present : (t.root.kindAt (dir ++ [name])).isSome = true := by
        rw [Entry.find?_append] at below
        obtain ⟨inner, first, _⟩ := Option.bind_eq_some_iff.mp below
        simp [Entry.kindAt, first]
      exact ih (resolve?_child found isName present) below

end FileTree

end ConditionLint.Files
