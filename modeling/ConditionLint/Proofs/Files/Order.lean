import ConditionLint.Files.Path
import ConditionLint.Proofs.Text.Utf8
import Mathlib.Data.List.Basic

/-!
# The order of paths

Paths are ordered by their components, so two paths that come before each other are the same. The
components of a path inside a directory are those of the directory and its name.
-/

set_option autoImplicit false

namespace ConditionLint.Files

namespace Name

@[simp] theorem here_ne_nil : here ≠ [] := by
  decide

@[simp] theorem up_ne_nil : up ≠ [] := by
  decide

@[simp] theorem here_ne_up : here ≠ up := by
  decide

theorem text?_eq_some_iff {name : Name} {text : String} :
    name.text? = some text ↔ name = ofText text :=
  Text.ofBytes?_eq_some_iff

end Name

namespace Component

variable {a b c : Component}

theorem isBefore_iff : a.isBefore b = true ↔
    a.rank < b.rank ∨ ∃ x y, a = name x ∧ b = name y ∧ x < y := by
  cases a with
  | name x => cases b <;> simp [isBefore, rank]
  | _ => cases b <;> simp [isBefore, rank]

theorem isBefore_trans (first : a.isBefore b = true) (second : b.isBefore c = true) :
    a.isBefore c = true := by
  rw [isBefore_iff] at first second ⊢
  rcases first with first | ⟨x, y, rfl, rfl, first⟩
  · rcases second with second | ⟨y, z, rfl, rfl, _⟩
    · exact .inl (Nat.lt_trans first second)
    · exact .inl first
  · rcases second with second | ⟨_, z, same, rfl, second⟩
    · exact .inl second
    · cases same
      exact .inr ⟨x, z, rfl, rfl, List.lt_trans first second⟩

theorem isBefore_irrefl (a : Component) : a.isBefore a = false := by
  rw [Bool.eq_false_iff, ne_eq, isBefore_iff]
  rintro (less | ⟨x, y, rfl, same, less⟩)
  · exact Nat.lt_irrefl _ less
  · cases same
    exact List.lt_irrefl x less

theorem isBefore_total (different : a ≠ b) : a.isBefore b = true ∨ b.isBefore a = true := by
  rw [isBefore_iff, isBefore_iff]
  rcases Nat.lt_trichotomy a.rank b.rank with less | same | greater
  · exact .inl (.inl less)
  · cases a with
    | name x =>
        cases b with
        | name y =>
            by_cases before : x < y
            · exact .inl (.inr ⟨x, y, rfl, rfl, before⟩)
            · refine .inr (.inr ⟨y, x, rfl, rfl, Decidable.of_not_not fun after => ?_⟩)
              exact different (congrArg name
                (List.le_antisymm (List.not_lt.mp after) (List.not_lt.mp before)))
        | _ => simp [rank] at same
    | _ => cases b <;> simp [rank] at same different
  · exact .inr (.inl greater)

end Component

namespace Path

variable {as bs cs : List Component} {p q : Path}

private theorem isOrdered_cons {a b : Component} :
    isOrdered (a :: as) (b :: bs) = true ↔
      a.isBefore b = true ∨ a = b ∧ isOrdered as bs = true := by
  simp [isOrdered]

theorem isOrdered_trans (first : isOrdered as bs = true) (second : isOrdered bs cs = true) :
    isOrdered as cs = true := by
  induction as generalizing bs cs with
  | nil => rfl
  | cons a as ih =>
      cases bs with
      | nil => cases first
      | cons b bs =>
          cases cs with
          | nil => cases second
          | cons c cs =>
              rw [isOrdered_cons] at first second ⊢
              rcases first with first | ⟨rfl, first⟩
              · rcases second with second | ⟨rfl, _⟩
                · exact .inl (Component.isBefore_trans first second)
                · exact .inl first
              · exact second.imp_right (And.imp_right (ih first))

theorem isOrdered_total (as bs : List Component) :
    isOrdered as bs = true ∨ isOrdered bs as = true := by
  induction as generalizing bs with
  | nil => exact .inl rfl
  | cons a as ih =>
      cases bs with
      | nil => exact .inr rfl
      | cons b bs =>
          rw [isOrdered_cons, isOrdered_cons]
          by_cases same : a = b
          · subst same
            exact (ih bs).imp (.inr ⟨rfl, ·⟩) (.inr ⟨rfl, ·⟩)
          · exact (Component.isBefore_total same).imp .inl .inl

theorem eq_of_isOrdered (first : isOrdered as bs = true) (second : isOrdered bs as = true) :
    as = bs := by
  induction as generalizing bs with
  | nil =>
      cases bs with
      | nil => rfl
      | cons => cases second
  | cons a as ih =>
      cases bs with
      | nil => cases first
      | cons b bs =>
          rw [isOrdered_cons] at first second
          rcases first with before | ⟨rfl, first⟩
          · have back : ¬ (b.isBefore a = true ∨ b = a ∧ isOrdered bs as = true) := by
              rintro (after | ⟨rfl, _⟩)
              · have around := Component.isBefore_trans before after
                simp [Component.isBefore_irrefl] at around
              · simp [Component.isBefore_irrefl] at before
            exact absurd second back
          · rw [Component.isBefore_irrefl] at second
            rw [ih first (second.resolve_left Bool.false_ne_true).2]

theorem isSame_iff : p.isSame q = true ↔ p.components = q.components :=
  beq_iff_eq

theorem le_trans {r : Path} (first : p.le q = true) (second : q.le r = true) : p.le r = true :=
  isOrdered_trans first second

theorem le_total (p q : Path) : p.le q = true ∨ q.le p = true :=
  isOrdered_total _ _

/-- The first path comes before the second, and they are not the same. -/
def Before (p q : Path) : Prop :=
  p.le q = true ∧ p.isSame q = false

theorem Before.of_isSame {r : Path} (before : q.Before r) (same : p.isSame q = true) :
    p.Before r := by
  unfold Before Path.le Path.isSame at before ⊢
  rwa [isSame_iff.mp same]

/-- What comes before a path comes before everything that the path does not come behind. -/
theorem Before.trans_le {r : Path} (before : p.Before q) (le : q.le r = true) : p.Before r := by
  refine ⟨le_trans before.1 le, ?_⟩
  rw [Bool.eq_false_iff, ne_eq, isSame_iff]
  intro same
  have back : q.le p = true := by
    unfold Path.le at le ⊢
    rwa [same]
  have different := before.2
  rw [Bool.eq_false_iff, ne_eq, isSame_iff] at different
  exact different (eq_of_isOrdered before.1 back)

/-!
## Paths inside directories
-/

end Path

section Pieces

variable {α : Type} [DecidableEq α] {separator : α} {before after row : List α}

theorem pieces_ne_nil (row : List α) : pieces separator row ≠ [] := by
  cases row with
  | nil => exact List.cons_ne_nil _ _
  | cons a rest =>
      unfold pieces
      split
      · exact List.cons_ne_nil _ _
      · split <;> exact List.cons_ne_nil _ _

theorem pieces_of_not_mem (single : separator ∉ row) : pieces separator row = [row] := by
  induction row with
  | nil => rfl
  | cons a rest ih =>
      obtain ⟨notHere, notLater⟩ := not_or.mp (mt List.mem_cons.mpr single)
      rw [pieces, if_neg (Ne.symm notHere), ih notLater]

private theorem pieces_append (before after : List α) :
    pieces separator (before ++ separator :: after) =
      pieces separator before ++ pieces separator after := by
  induction before with
  | nil => simp [pieces]
  | cons a rest ih =>
      rw [List.cons_append, pieces, pieces, ih]
      split
      · rfl
      · cases inner : pieces separator rest with
        | nil => exact absurd inner (pieces_ne_nil rest)
        | cons => rfl

end Pieces

namespace Path

/-- A name that an entry of a directory can have: one step of a path, and one that leads on. -/
def IsName (name : Name) : Prop :=
  name ∉ [[], Name.here, Name.up] ∧ separator ∉ name

instance (name : Name) : Decidable (IsName name) :=
  inferInstanceAs (Decidable (_ ∧ _))

def componentsFrom (isFirst : Bool) : List Name → List Component
  | [] => []
  | piece :: rest => (componentOf? isFirst piece).toList ++ componentsFrom false rest

private theorem map_component_stepsFrom (isFirst : Bool) (start : Nat) (ps : List Name) :
    (stepsFrom isFirst start ps).map Step.component = componentsFrom isFirst ps := by
  induction ps generalizing isFirst start with
  | nil => rfl
  | cons piece rest ih =>
      rw [stepsFrom, List.map_append, ih, componentsFrom]
      cases componentOf? isFirst piece <;> rfl

theorem components_eq (p : Path) :
    p.components = (if p.isAbsolute then [.root] else []) ++ componentsFrom true p.pieces := by
  rw [components, steps, List.map_append, map_component_stepsFrom]
  split <;> rfl

private theorem componentsFrom_empty (isFirst : Bool) (front : List Name) :
    componentsFrom isFirst (front ++ [[]]) = componentsFrom isFirst front := by
  induction front generalizing isFirst with
  | nil => rfl
  | cons piece rest ih => rw [List.cons_append, componentsFrom, ih, componentsFrom]

private theorem componentsFrom_name {name : Name} (isName : IsName name) (isFirst : Bool)
    (front : List Name) :
    componentsFrom isFirst (front ++ [name]) = componentsFrom isFirst front ++ [.name name] := by
  induction front generalizing isFirst with
  | nil =>
      have excluded := isName.1
      simp only [List.mem_cons, List.not_mem_nil, or_false, not_or] at excluded
      simp [componentsFrom, componentOf?, excluded]
  | cons piece rest ih =>
      rw [List.cons_append, componentsFrom, ih, componentsFrom, List.append_assoc]

/-- The pieces of a path inside a directory are those of the directory, but for an empty one behind
its last separator, and those of the steps from there. -/
theorem exists_pieces_child (p : Path) (steps : List UInt8) :
    ∃ front, (p.pieces = front ++ [[]] ∨ p.pieces = front) ∧
      (p.child steps).pieces = front ++ Files.pieces separator steps := by
  unfold child
  split
  · rename_i ended
    rcases Bool.or_eq_true_iff.mp ended with empty | closed
    · exact ⟨[], by simp [pieces, List.isEmpty_iff.mp empty, Files.pieces]⟩
    · obtain ⟨init, whole⟩ := List.getLast?_eq_some_iff.mp (beq_iff_eq.mp closed)
      refine ⟨Files.pieces separator init, .inl ?_, ?_⟩
      · rw [pieces, whole, pieces_append]
        rfl
      · rw [pieces, whole, List.append_assoc, List.singleton_append, pieces_append]
  · exact ⟨p.pieces, .inr rfl, pieces_append _ _⟩

/-- What is inside a directory starts where the path of the directory does. -/
theorem isAbsolute_child (p : Path) {steps : List UInt8} (relative : steps.head? ≠ some separator) :
    (p.child steps).isAbsolute = p.isAbsolute := by
  unfold child
  split
  · rename_i ended
    cases bytes : p.bytes <;> simp_all [isAbsolute]
  · rename_i nonempty
    cases bytes : p.bytes <;> simp_all [isAbsolute]

theorem components_child {name : Name} (isName : IsName name) (p : Path) :
    (p.child name).components = p.components ++ [.name name] := by
  have relative : name.head? ≠ some separator := fun first =>
    isName.2 (List.mem_of_mem_head? first)
  obtain ⟨front, whole, inside⟩ := p.exists_pieces_child name
  rw [components_eq, components_eq, p.isAbsolute_child relative, inside,
    pieces_of_not_mem isName.2, componentsFrom_name isName, ← List.append_assoc]
  rcases whole with whole | whole
  · rw [whole, componentsFrom_empty]
  · rw [whole]

theorem fileName?_child {name : Name} (isName : IsName name) (p : Path) :
    (p.child name).fileName? = some name := by
  rw [fileName?, components_child isName, List.getLast?_concat]

/-- The path of a row of names inside a directory. -/
def descend (p : Path) (names : List Name) : Path :=
  names.foldl child p

theorem components_descend {names : List Name} (areNames : ∀ name ∈ names, IsName name)
    (p : Path) : (p.descend names).components = p.components ++ names.map .name := by
  induction names generalizing p with
  | nil => exact (List.append_nil _).symm
  | cons name rest ih =>
      obtain ⟨isName, areNames⟩ := List.forall_mem_cons.mp areNames
      rw [descend, List.foldl_cons, ← descend, ih areNames, components_child isName,
        List.append_assoc]
      rfl

theorem eq_of_isSame_descend {p : Path} {names others : List Name}
    (areNames : ∀ name ∈ names, IsName name) (areNames' : ∀ name ∈ others, IsName name)
    (same : (p.descend names).isSame (p.descend others) = true) : names = others := by
  rw [isSame_iff, components_descend areNames, components_descend areNames',
    List.append_cancel_left_eq] at same
  exact List.map_injective_iff.mpr (fun _ _ => Component.name.inj) same

end Path

end ConditionLint.Files
