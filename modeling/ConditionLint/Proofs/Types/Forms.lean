import ConditionLint.Proofs.Text.Brackets
import ConditionLint.Types.Table

/-!
# Forms of shown types

What a type looks like: a word, a quoted text, or other types that are put together with brackets,
separators and arrows. The pieces of its text tell the form, if the pieces of its parts tell the
parts: a bracket at the end belongs to the last thing that was done, and the first space outside of
brackets stands behind the first member of a union or an intersection, or in front of an arrow.
-/

set_option autoImplicit false

namespace ConditionLint

open Text

/-- What a type looks like. -/
inductive TypeForm where
  | word (letters : List Char)
  | quoted (text : List Char)
  | array (element : TypeId)
  | access (object index : TypeId)
  | tuple (elements : List TypeId)
  | joined (composite : Composite) (members : List TypeId)
  | function (params : List TypeId) (result : TypeId)

namespace TypeForm

def references : TypeForm → List TypeId
  | word _ | quoted _ => []
  | array element => [element]
  | access object index => [object, index]
  | tuple members | joined _ members => members
  | function params result => params ++ [result]

/-- The form has parentheses inside another one. -/
def isComposite : TypeForm → Bool
  | joined .. | function .. => true
  | _ => false

/-- The sign between the members of a union or an intersection. -/
def mark : Composite → Char
  | .union => '|'
  | .intersection => '&'

/-- What stands between the members of a union or an intersection. -/
def separator (composite : Composite) : List Char :=
  [' ', mark composite, ' ']

/-- What stands between the elements of a tuple and between parameters. -/
def listSeparator : List Char :=
  [',', ' ']

/-- The name of a parameter and what stands behind it. -/
def label (position : Nat) : List Char :=
  ("arg" ++ toString position ++ ": ").toList

/-- The pieces of the parameters of a function. -/
def paramPieces (parts : TypeId → Bool → List Piece) (params : List TypeId) : List (List Piece) :=
  params.zipIdx.map fun param => (label param.2).map .char ++ parts param.1 false

/-- The pieces of a form without parentheses, by those of its parts. The truth value says whether a
part needs them. -/
def openPieces (parts : TypeId → Bool → List Piece) : TypeForm → List Piece
  | word letters => letters.map .char
  | quoted text => [.quoted text]
  | array element => parts element true ++ [.square []]
  | access object index => parts object true ++ [.square (parts index false)]
  | tuple elements =>
    [.square ((listSeparator.map .char).intercalate (elements.map (parts · true)))]
  | joined composite members =>
    ((separator composite).map .char).intercalate (members.map (parts · true))
  | function params result =>
    .round ((listSeparator.map .char).intercalate (paramPieces parts params)) ::
      ([' ', '=', '>', ' '].map .char ++ parts result false)

def pieces (parts : TypeId → Bool → List Piece) (form : TypeForm) (nested : Bool) : List Piece :=
  if nested && form.isComposite then [.round (form.openPieces parts)] else form.openPieces parts

/-- A character of words: it is no bracket, quote or separator. -/
def IsLetter (c : Char) : Prop :=
  c ∉ ['"', '(', '[', ')', ']', ',', ' ']

instance (c : Char) : Decidable (IsLetter c) :=
  inferInstanceAs (Decidable (c ∉ _))

/-- Words are made of letters, and unions and intersections show at least two members. -/
def Proper : TypeForm → Prop
  | word letters => letters ≠ [] ∧ ∀ c ∈ letters, IsLetter c
  | joined _ members => 2 ≤ members.length
  | _ => True

end TypeForm

/-!
## Separated pieces
-/

section Separated

variable {α : Type} {a : α} {tail : List α} {xs ys : List (List α)}

private theorem mem_intercalate {separator : List α} (member : a ∈ separator.intercalate xs) :
    a ∈ separator ∨ ∃ x ∈ xs, a ∈ x := by
  induction xs with
  | nil => cases member
  | cons x rest ih =>
      cases rest with
      | nil => exact .inr ⟨x, List.mem_cons_self, by simpa using member⟩
      | cons y rest =>
          rw [List.intercalate_cons_cons, List.append_assoc, List.mem_append, List.mem_append]
            at member
          rcases member with here | between | later
          · exact .inr ⟨x, List.mem_cons_self, here⟩
          · exact .inl between
          · refine (ih later).imp_right ?_
            intro ⟨z, included, inside⟩
            exact ⟨z, List.mem_cons_of_mem _ included, inside⟩

private theorem intercalate_eq_nil {separator : List α} (nonempty : ∀ x ∈ xs, x ≠ [])
    (empty : separator.intercalate xs = []) : xs = [] := by
  cases xs with
  | nil => rfl
  | cons x rest =>
      have notEmpty := nonempty x List.mem_cons_self
      cases rest with
      | nil => exact absurd (by simpa using empty) notEmpty
      | cons y rest =>
          rw [List.intercalate_cons_cons, List.append_assoc] at empty
          exact absurd (List.append_eq_nil_iff.mp empty).1 notEmpty

/-- Parts without the first element of the separator are told by what they are put together to. -/
private theorem intercalate_inj (nonempty : ∀ x ∈ xs, x ≠ []) (nonempty' : ∀ y ∈ ys, y ≠ [])
    (absent : ∀ x ∈ xs, a ∉ x) (absent' : ∀ y ∈ ys, a ∉ y)
    (same : (a :: tail).intercalate xs = (a :: tail).intercalate ys) : xs = ys := by
  -- a single part has no separator in it
  have single : ∀ {x y z : List α} {rest : List (List α)}, a ∉ x →
      x ≠ y ++ (a :: tail) ++ (a :: tail).intercalate (z :: rest) := by
    rintro _ y z rest absent rfl
    simp at absent
  induction xs generalizing ys with
  | nil => exact (intercalate_eq_nil nonempty' same.symm).symm
  | cons x xs ih =>
      obtain ⟨absentHere, absentLater⟩ := List.forall_mem_cons.mp absent
      cases ys with
      | nil => exact intercalate_eq_nil nonempty same
      | cons y ys =>
          obtain ⟨absentHere', absentLater'⟩ := List.forall_mem_cons.mp absent'
          rcases xs with _ | ⟨x', xs⟩ <;> rcases ys with _ | ⟨y', ys⟩
          · simpa using same
          · rw [List.intercalate_singleton, List.intercalate_cons_cons] at same
            exact absurd same (single absentHere)
          · rw [List.intercalate_singleton, List.intercalate_cons_cons] at same
            exact absurd same.symm (single absentHere')
          · rw [List.intercalate_cons_cons, List.intercalate_cons_cons, List.append_assoc,
              List.append_assoc] at same
            obtain ⟨rfl, rest⟩ := append_cons_inj absentHere absentHere' same
            rw [ih (List.forall_mem_cons.mp nonempty).2 (List.forall_mem_cons.mp nonempty').2
              absentLater absentLater' (List.append_cancel_left rest)]

private theorem eq_of_map_eq {β : Type} {f : α → β} {xs ys : List α}
    (inj : ∀ x ∈ xs, ∀ y ∈ ys, f x = f y → x = y) (same : xs.map f = ys.map f) : xs = ys := by
  induction xs generalizing ys with
  | nil => exact (List.map_eq_nil_iff.mp same.symm).symm
  | cons x xs ih =>
      cases ys with
      | nil => cases same
      | cons y ys =>
          obtain ⟨first, rest⟩ := List.cons.inj same
          have heads := inj x List.mem_cons_self y List.mem_cons_self first
          have tails := ih (fun x later y later' => inj x (List.mem_cons_of_mem _ later) y
            (List.mem_cons_of_mem _ later')) rest
          rw [heads, tails]

end Separated

/-- Shown parts are not empty and have no comma outside of brackets; nested ones have no space
either. -/
structure Clear (shown : Bool → List Piece) : Prop where
  nonempty : ∀ nested, shown nested ≠ []
  noComma : ∀ nested, .char ',' ∉ shown nested
  noSpace : .char ' ' ∉ shown true

namespace TypeForm

variable {parts : TypeId → Bool → List Piece} {f g : TypeForm}

theorem char_not_mem {c : Char} {letters : List Char} (absent : c ∉ letters) :
    .char c ∉ letters.map Piece.char := by
  intro member
  obtain ⟨letter, included, same⟩ := List.mem_map.mp member
  cases same
  exact absent included

private theorem openPieces_ne_nil (proper : f.Proper)
    (inside : ∀ r ∈ f.references, Clear (parts r)) :
    f.openPieces parts ≠ [] := by
  cases f with
  | word letters => exact mt List.map_eq_nil_iff.mp proper.1
  | joined composite members =>
      intro empty
      have noMembers := intercalate_eq_nil (List.forall_mem_map.mpr fun member included =>
        (inside member included).nonempty true) empty
      obtain rfl : members = [] := List.map_eq_nil_iff.mp noMembers
      exact absurd proper (by simp [Proper])
  | array | access => exact List.append_ne_nil_of_right_ne_nil _ (List.cons_ne_nil _ _)
  | quoted | tuple | function => exact List.cons_ne_nil _ _

private theorem comma_not_mem_openPieces (proper : f.Proper)
    (inside : ∀ r ∈ f.references, Clear (parts r)) : .char ',' ∉ f.openPieces parts := by
  cases f with
  | word letters => exact char_not_mem fun member => absurd (proper.2 ',' member) (by decide)
  | quoted | tuple => simp [openPieces]
  | array element =>
      have clear := (inside element (by simp [references])).noComma true
      simp [openPieces, clear]
  | access object index =>
      have clear := (inside object (by simp [references])).noComma true
      simp [openPieces, clear]
  | joined composite members =>
      intro member
      rcases mem_intercalate member with between | ⟨shown, included, here⟩
      · cases composite <;> simp [separator, mark] at between
      · obtain ⟨part, isMember, rfl⟩ := List.mem_map.mp included
        exact (inside part isMember).noComma true here
  | function params result =>
      have clear := (inside result (by simp [references])).noComma false
      simp [openPieces, clear]

private theorem space_not_mem_openPieces (proper : f.Proper)
    (inside : ∀ r ∈ f.references, Clear (parts r)) (single : f.isComposite = false) :
    .char ' ' ∉ f.openPieces parts := by
  cases f with
  | word letters => exact char_not_mem fun member => absurd (proper.2 ' ' member) (by decide)
  | quoted | tuple => simp [openPieces]
  | array element =>
      have clear := (inside element (by simp [references])).noSpace
      simp [openPieces, clear]
  | access object index =>
      have clear := (inside object (by simp [references])).noSpace
      simp [openPieces, clear]
  | joined | function => cases single

/-- The pieces of a form are as clear as those of its parts. -/
theorem clear_pieces (proper : f.Proper) (inside : ∀ r ∈ f.references, Clear (parts r)) :
    Clear (f.pieces parts) where
  nonempty nested := by
    unfold pieces
    split
    · exact List.cons_ne_nil _ _
    · exact openPieces_ne_nil proper inside
  noComma nested := by
    unfold pieces
    split
    · simp
    · exact comma_not_mem_openPieces proper inside
  noSpace := by
    cases composite : f.isComposite with
    | true => simp [pieces, composite]
    | false =>
        have clear := space_not_mem_openPieces proper inside composite
        simpa [pieces, composite] using clear

/-!
## Reading forms back
-/

/-- The parts of a form are told from those of another one by their pieces. -/
def PartsTold (parts : TypeId → Bool → List Piece) (f g : TypeForm) : Prop :=
  ∀ r ∈ f.references, ∀ s ∈ g.references, ∀ nested, parts r nested = parts s nested → r = s

/-- The sign between the parts of a composite form. -/
def sign : TypeForm → Char
  | joined composite _ => mark composite
  | _ => '='

theorem mark_injective {composite other : Composite} (same : mark composite = mark other) :
    composite = other := by
  cases composite <;> cases other <;> first | rfl | exact absurd same (by decide)

private theorem mark_ne (composite : Composite) : mark composite ≠ '=' := by
  cases composite <;> decide

/-- The first space of a composite form is in front of its sign. -/
theorem exists_openPieces_eq (proper : f.Proper) (inside : ∀ r ∈ f.references, Clear (parts r))
    (isComposite : f.isComposite = true) :
    ∃ front rest, f.openPieces parts = front ++ .char ' ' :: .char f.sign :: rest ∧
      .char ' ' ∉ front := by
  cases f with
  | joined composite members =>
      rcases members with _ | ⟨first, _ | ⟨second, rest⟩⟩
      · exact absurd proper (by simp [Proper])
      · exact absurd proper (by simp [Proper])
      · have clear := (inside first List.mem_cons_self).noSpace
        refine ⟨parts first true, .char ' ' ::
          ((separator composite).map .char).intercalate ((second :: rest).map (parts · true)), ?_,
          clear⟩
        rw [openPieces, List.map_cons, List.map_cons, List.intercalate_cons_cons, List.append_assoc]
        rfl
  | function params result =>
      exact ⟨[_], _, rfl, by simp⟩
  | _ => cases isComposite

theorem mem_label {position : Nat} {c : Char} (member : c ∈ label position) :
    c.isDigit = true ∨ c ∈ ['a', 'r', 'g', ':', ' '] := by
  have text : label position = ['a', 'r', 'g'] ++ Nat.toDigits 10 position ++ [':', ' '] := by
    simp [label]
  rw [text, List.mem_append, List.mem_append] at member
  rcases member with (name | digits) | colon
  · exact .inr (List.mem_append_left [':', ' '] name)
  · exact .inl (Nat.isDigit_of_mem_toDigits (by decide) (Nat.le_refl 10) digits)
  · exact .inr (List.mem_append_right ['a', 'r', 'g'] colon)

private theorem comma_not_mem_label (position : Nat) : ',' ∉ label position := by
  intro member
  rcases mem_label member with digit | listed
  · exact absurd digit (by decide)
  · exact absurd listed (by decide)

theorem paramPieces_clear {params : List TypeId} (inside : ∀ param ∈ params, Clear (parts param)) :
    ∀ shown ∈ paramPieces parts params, shown ≠ [] ∧ .char ',' ∉ shown := by
  intro shown included
  obtain ⟨⟨param, position⟩, placed, rfl⟩ := List.mem_map.mp included
  have clear := inside param (List.mem_of_getElem? (List.mem_zipIdx_iff_getElem?.mp placed))
  refine ⟨List.append_ne_nil_of_right_ne_nil _ (clear.nonempty false), fun comma => ?_⟩
  rcases List.mem_append.mp comma with named | shown
  · exact char_not_mem (comma_not_mem_label position) named
  · exact clear.noComma false shown

theorem eq_of_paramPieces_eq {params others : List TypeId}
    (inj : ∀ r ∈ params, ∀ s ∈ others, parts r false = parts s false → r = s)
    (same : paramPieces parts params = paramPieces parts others) : params = others := by
  unfold paramPieces at same
  generalize 0 = start at same
  induction params generalizing others start with
  | nil =>
      have none : others.zipIdx start = [] := List.map_eq_nil_iff.mp same.symm
      exact (List.zipIdx_eq_nil_iff.mp none).symm
  | cons param params ih =>
      cases others with
      | nil => cases same
      | cons other others =>
          rw [List.zipIdx_cons, List.zipIdx_cons, List.map_cons, List.map_cons] at same
          obtain ⟨first, rest⟩ := List.cons.inj same
          have heads := inj param List.mem_cons_self other List.mem_cons_self
            (List.append_cancel_left first)
          have tails := ih (fun r later s later' => inj r (List.mem_cons_of_mem _ later) s
            (List.mem_cons_of_mem _ later')) _ rest
          rw [heads, tails]

/-- What the end of a text tells about a form without spaces. -/
inductive Ending where
  | word (letters : List Piece)
  | quoted (text : List Char)
  | array (element : List Piece)
  | access (object index : List Piece)
  | tuple (elements : List Piece)

/-- Take the last piece of a text off. -/
def ending (ps : List Piece) : Ending :=
  match ps.getLast? with
  | some (.quoted text) => .quoted text
  | some (.square inside) =>
    if ps.dropLast.isEmpty then .tuple inside
    else if inside.isEmpty then .array ps.dropLast
    else .access ps.dropLast inside
  | _ => .word ps

/-- A form without spaces by the pieces of its parts. -/
def partEnding (parts : TypeId → Bool → List Piece) : TypeForm → Ending
  | quoted text => .quoted text
  | array element => .array (parts element true)
  | access object index => .access (parts object true) (parts index false)
  | tuple elements => .tuple ((listSeparator.map .char).intercalate (elements.map (parts · true)))
  | form => .word (form.openPieces parts)

private theorem ending_openPieces (single : f.isComposite = false)
    (inside : ∀ r ∈ f.references, Clear (parts r)) :
    ending (f.openPieces parts) = f.partEnding parts := by
  cases f with
  | word letters =>
      rw [openPieces, ending, List.getLast?_map]
      cases letters.getLast? <;> rfl
  | quoted | tuple => rfl
  | array element =>
      have nonempty := (inside element (by simp [references])).nonempty true
      simp [ending, openPieces, partEnding, nonempty]
  | access object index =>
      have nonempty := (inside object (by simp [references])).nonempty true
      have nonemptyIndex := (inside index (by simp [references])).nonempty false
      simp [ending, openPieces, partEnding, nonempty, nonemptyIndex]
  | joined | function => cases single

private theorem eq_of_intercalate_eq {c : Char} {tail : List Char} {elements others : List TypeId}
    (clear : ∀ r ∈ elements, Clear (parts r)) (clear' : ∀ s ∈ others, Clear (parts s))
    (absent : ∀ shown, Clear shown → .char c ∉ shown true)
    (inj : ∀ r ∈ elements, ∀ s ∈ others, ∀ nested, parts r nested = parts s nested → r = s)
    (same : ((c :: tail).map Piece.char).intercalate (elements.map (parts · true)) =
      ((c :: tail).map .char).intercalate (others.map (parts · true))) : elements = others := by
  refine eq_of_map_eq (fun r included s included' => inj r included s included' true)
    (intercalate_inj ?_ ?_ ?_ ?_ same)
  · exact List.forall_mem_map.mpr fun r included => (clear r included).nonempty true
  · exact List.forall_mem_map.mpr fun s included => (clear' s included).nonempty true
  · exact List.forall_mem_map.mpr fun r included => absent _ (clear r included)
  · exact List.forall_mem_map.mpr fun s included => absent _ (clear' s included)

/-- A form without spaces is told by its end. -/
theorem eq_of_openPieces_eq_of_single (single : f.isComposite = false)
    (single' : g.isComposite = false) (clear : ∀ r ∈ f.references, Clear (parts r))
    (clear' : ∀ s ∈ g.references, Clear (parts s))
    (told : f.PartsTold parts g)
    (same : f.openPieces parts = g.openPieces parts) : f = g := by
  have endings := congrArg ending same
  rw [ending_openPieces single clear, ending_openPieces single' clear'] at endings
  cases f with
  | word letters =>
      cases g with
      | word others =>
          have characters : Function.Injective Piece.char := fun _ _ => Piece.char.inj
          exact congrArg word (List.map_injective_iff.mpr characters same)
      | joined | function => cases single'
      | _ => cases endings
  | quoted text =>
      cases g with
      | quoted other => exact congrArg quoted (Ending.quoted.inj endings)
      | joined | function => cases single'
      | _ => cases endings
  | array element =>
      cases g with
      | array other =>
          have parts := told element List.mem_cons_self other List.mem_cons_self true
          exact congrArg array (parts (Ending.array.inj endings))
      | joined | function => cases single'
      | _ => cases endings
  | access object index =>
      cases g with
      | access other key =>
          obtain ⟨objects, indices⟩ := Ending.access.inj endings
          rw [told object (by simp [references]) other (by simp [references]) true objects,
            told index (by simp [references]) key (by simp [references]) false indices]
      | joined | function => cases single'
      | _ => cases endings
  | tuple elements =>
      cases g with
      | tuple others =>
          exact congrArg tuple (eq_of_intercalate_eq clear clear'
            (fun _ shown => shown.noComma true) told (Ending.tuple.inj endings))
      | joined | function => cases single'
      | _ => cases endings
  | joined | function => cases single

/-- A form with spaces is told by its sign and by what stands around it. -/
theorem eq_of_openPieces_eq_of_composite (proper : f.Proper) (proper' : g.Proper)
    (composite : f.isComposite = true) (composite' : g.isComposite = true)
    (clear : ∀ r ∈ f.references, Clear (parts r)) (clear' : ∀ s ∈ g.references, Clear (parts s))
    (told : f.PartsTold parts g)
    (same : f.openPieces parts = g.openPieces parts) : f = g := by
  have signs : f.sign = g.sign := by
    obtain ⟨front, rest, whole, absent⟩ := exists_openPieces_eq proper clear composite
    obtain ⟨front', rest', whole', absent'⟩ := exists_openPieces_eq proper' clear' composite'
    rw [whole, whole'] at same
    exact Piece.char.inj (List.cons.inj (append_cons_inj absent absent' same).2).1
  cases f with
  | joined kind members =>
      cases g with
      | joined kind' others =>
          obtain rfl : kind = kind' := mark_injective signs
          exact congrArg (joined kind) (eq_of_intercalate_eq clear clear'
            (fun _ shown => shown.noSpace) told same)
      | function => exact absurd signs (mark_ne kind)
      | _ => cases composite'
  | function params result =>
      cases g with
      | joined kind others => exact absurd signs.symm (mark_ne kind)
      | function others result' =>
          obtain ⟨inside, behind⟩ := List.cons.inj same
          have results : result = result' :=
            told result (by simp [references]) result' (by simp [references]) false
              (List.append_cancel_left behind)
          have shown := paramPieces_clear fun r included =>
            clear r (List.mem_append_left _ included)
          have shown' := paramPieces_clear fun s included =>
            clear' s (List.mem_append_left _ included)
          have pieces : paramPieces parts params = paramPieces parts others :=
            intercalate_inj (fun x included => (shown x included).1)
              (fun y included => (shown' y included).1) (fun x included => (shown x included).2)
              (fun y included => (shown' y included).2) (Piece.round.inj inside)
          have same : params = others := by
            refine eq_of_paramPieces_eq (fun r included s included' => ?_) pieces
            have inside := List.mem_append_left [result] included
            have inside' := List.mem_append_left [result'] included'
            exact told r inside s inside' false
          rw [same, results]
      | _ => cases composite'
  | _ => cases composite

theorem pieces_of_single (single : f.isComposite = false) (nested : Bool) :
    f.pieces parts nested = f.openPieces parts := by
  simp [pieces, single]

theorem pieces_of_composite (composite : f.isComposite = true) (nested : Bool) :
    f.pieces parts nested =
      if nested then [.round (f.openPieces parts)] else f.openPieces parts := by
  simp [pieces, composite]

/-- A form with spaces does not look like one without. -/
private theorem pieces_ne_of_composite {nested : Bool} (proper : f.Proper) (proper' : g.Proper)
    (composite : f.isComposite = true) (single : g.isComposite = false)
    (clear : ∀ r ∈ f.references, Clear (parts r)) (clear' : ∀ s ∈ g.references, Clear (parts s)) :
    f.pieces parts nested ≠ g.pieces parts nested := by
  intro same
  rw [pieces_of_composite composite, pieces_of_single single] at same
  split at same
  · -- a form without spaces does not end in a parenthesis
    have endings := congrArg ending same
    rw [ending_openPieces single clear'] at endings
    cases g with
    | word letters =>
        cases letters <;> cases Ending.word.inj endings
    | joined | function => cases single
    | _ => cases endings
  · obtain ⟨front, rest, whole, _⟩ := exists_openPieces_eq proper clear composite
    refine space_not_mem_openPieces proper' clear' single ?_
    rw [← same, whole]
    exact List.mem_append_right _ List.mem_cons_self

/-- The pieces of a form, with or without parentheses, tell the form if the pieces of its parts tell
the parts. -/
theorem eq_of_pieces_eq {nested : Bool} (proper : f.Proper) (proper' : g.Proper)
    (clear : ∀ r ∈ f.references, Clear (parts r)) (clear' : ∀ s ∈ g.references, Clear (parts s))
    (told : f.PartsTold parts g)
    (same : f.pieces parts nested = g.pieces parts nested) : f = g := by
  cases composite : f.isComposite <;> cases composite' : g.isComposite
  · rw [pieces_of_single composite, pieces_of_single composite'] at same
    exact eq_of_openPieces_eq_of_single composite composite' clear clear' told same
  · exact absurd same.symm (pieces_ne_of_composite proper' proper composite' composite clear' clear)
  · exact absurd same (pieces_ne_of_composite proper proper' composite composite' clear clear')
  · have whole : f.openPieces parts = g.openPieces parts := by
      rw [pieces_of_composite composite, pieces_of_composite composite'] at same
      split at same
      · exact Piece.round.inj (List.singleton_inj.mp same)
      · exact same
    exact eq_of_openPieces_eq_of_composite proper proper' composite composite' clear clear' told
      whole

end TypeForm

end ConditionLint
