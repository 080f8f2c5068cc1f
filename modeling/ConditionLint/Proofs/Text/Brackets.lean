import ConditionLint.Proofs.Text.Quoted

/-!
# Texts with brackets

A reader takes a text apart into characters, texts in quotes and what stands between brackets. The
pieces of texts that are put together are those of the texts, so a text tells how it is nested.
-/

set_option autoImplicit false

namespace ConditionLint.Text

/-- A piece of a text: a character, an escaped text in quotes, or the pieces between brackets. -/
inductive Piece where
  | char (c : Char)
  | quoted (text : List Char)
  | round (inside : List Piece)
  | square (inside : List Piece)

/-- What a reader has read so far. -/
structure Reader where
  /-- The pieces behind the last open bracket. -/
  pieces : List Piece
  /-- The pieces in front of each open bracket, the last bracket first. -/
  outer : List (List Piece)
  /-- What was read behind an open quote, and whether the next character is escaped. -/
  quote : Option (List Char × Bool)

namespace Reader

def close (r : Reader) (bracket : List Piece → Piece) : Reader :=
  match r.outer with
  | around :: outer => ⟨around ++ [bracket r.pieces], outer, none⟩
  | [] => r

def step (r : Reader) (c : Char) : Reader :=
  match r.quote with
  | some (text, true) => { r with quote := some (text ++ [c], false) }
  | some (text, false) =>
    if c = '"' then ⟨r.pieces ++ [.quoted text], r.outer, none⟩
    else { r with quote := some (text ++ [c], c == '\\') }
  | none =>
    if c = '"' then { r with quote := some ([], false) }
    else if c = '(' ∨ c = '[' then ⟨[], r.pieces :: r.outer, none⟩
    else if c = ')' then r.close .round
    else if c = ']' then r.close .square
    else { r with pieces := r.pieces ++ [.char c] }

def read (r : Reader) (cs : List Char) : Reader :=
  cs.foldl step r

theorem read_append (r : Reader) (cs ds : List Char) : r.read (cs ++ ds) = (r.read cs).read ds :=
  List.foldl_append

end Reader

/-- Reading the text adds the given pieces, whatever was read before. -/
def Reads (cs : List Char) (ps : List Piece) : Prop :=
  ∀ pieces outer, Reader.read ⟨pieces, outer, none⟩ cs = ⟨pieces ++ ps, outer, none⟩

def piecesOf (cs : List Char) : List Piece :=
  (Reader.read ⟨[], [], none⟩ cs).pieces

variable {cs ds : List Char} {ps qs : List Piece}

namespace Reads

theorem piecesOf_eq (reads : Reads cs ps) : piecesOf cs = ps := by
  rw [piecesOf, reads]
  exact List.nil_append ps

theorem nil : Reads [] [] := by
  intro pieces outer
  rw [List.append_nil]
  rfl

theorem append (first : Reads cs ps) (second : Reads ds qs) : Reads (cs ++ ds) (ps ++ qs) := by
  intro pieces outer
  rw [Reader.read_append, first, second, List.append_assoc]

/-- Characters other than brackets and quotes are pieces themselves. -/
theorem chars (plain : ∀ c ∈ cs, c ∉ ['"', '(', '[', ')', ']']) : Reads cs (cs.map .char) := by
  induction cs with
  | nil => exact nil
  | cons c rest ih =>
      obtain ⟨atHead, atRest⟩ := List.forall_mem_cons.mp plain
      have single : Reads [c] [.char c] := by
        intro pieces outer
        simp only [List.mem_cons, List.not_mem_nil, or_false, not_or] at atHead
        simp [Reader.read, Reader.step, atHead]
      exact single.append (ih atRest)

theorem round (inside : Reads cs ps) : Reads ('(' :: cs ++ [')']) [.round ps] := by
  intro pieces outer
  rw [Reader.read_append]
  have opened : Reader.read ⟨pieces, outer, none⟩ ('(' :: cs) =
      Reader.read ⟨[], pieces :: outer, none⟩ cs := rfl
  rw [opened, inside]
  rfl

theorem square (inside : Reads cs ps) : Reads ('[' :: cs ++ [']']) [.square ps] := by
  intro pieces outer
  rw [Reader.read_append]
  have opened : Reader.read ⟨pieces, outer, none⟩ ('[' :: cs) =
      Reader.read ⟨[], pieces :: outer, none⟩ cs := rfl
  rw [opened, inside]
  rfl

/-- What stands between separators is read part by part. -/
theorem intercalate {α : Type} {items : List α} {text : α → List Char} {pieces : α → List Piece}
    {separator : List Char} (plain : ∀ c ∈ separator, c ∉ ['"', '(', '[', ')', ']'])
    (each : ∀ item ∈ items, Reads (text item) (pieces item)) :
    Reads (separator.intercalate (items.map text))
      ((separator.map .char).intercalate (items.map pieces)) := by
  induction items with
  | nil => exact nil
  | cons item rest ih =>
      obtain ⟨atItem, atRest⟩ := List.forall_mem_cons.mp each
      cases rest with
      | nil => simpa [List.intercalate] using atItem
      | cons next rest =>
          have later := (atItem.append (chars plain)).append (ih atRest)
          simpa [List.intercalate] using later

end Reads

/-!
## Quoted texts
-/

private theorem read_unescaped (pieces : List Piece) (outer : List (List Piece)) (text : List Char)
    (noQuote : '"' ∉ cs) (noBackslash : '\\' ∉ cs) :
    Reader.read ⟨pieces, outer, some (text, false)⟩ cs =
      ⟨pieces, outer, some (text ++ cs, false)⟩ := by
  induction cs generalizing text with
  | nil => rw [List.append_nil]; rfl
  | cons c rest ih =>
      have step : Reader.step ⟨pieces, outer, some (text, false)⟩ c =
          ⟨pieces, outer, some (text ++ [c], false)⟩ := by
        have notQuote : c ≠ '"' := (List.ne_of_not_mem_cons noQuote).symm
        have notBackslash : c ≠ '\\' := (List.ne_of_not_mem_cons noBackslash).symm
        simp [Reader.step, notQuote, notBackslash]
      have later := ih (text ++ [c]) (List.not_mem_of_not_mem_cons noQuote)
        (List.not_mem_of_not_mem_cons noBackslash)
      rw [List.append_assoc, List.singleton_append] at later
      rw [Reader.read, List.foldl_cons, step, ← Reader.read, later]

/-- The escaped form of a character does not end a quoted text. -/
private theorem read_escape (pieces : List Piece) (outer : List (List Piece)) (text : List Char)
    (c : Char) : Reader.read ⟨pieces, outer, some (text, false)⟩ (escape c) =
      ⟨pieces, outer, some (text ++ escape c, false)⟩ := by
  have backslash (letter : Char) :
      Reader.read ⟨pieces, outer, some (text, false)⟩ ['\\', letter] =
        ⟨pieces, outer, some (text ++ ['\\', letter], false)⟩ := by
    simp [Reader.read, Reader.step]
  have escaped := escaped_escape c
  generalize escape c = written at escaped ⊢
  cases escaped with
  | short => exact backslash _
  | code =>
      have noQuote : '"' ∉ '\x7b' :: hexDigits c.toNat ++ ['\x7d'] := by
        simp [(not_mem_hexDigits c.toNat).2.1]
      have noBackslash : '\\' ∉ '\x7b' :: hexDigits c.toNat ++ ['\x7d'] := by
        simp [(not_mem_hexDigits c.toNat).2.2]
      have parts : ['\\', 'u', '\x7b'] ++ hexDigits c.toNat ++ ['\x7d'] =
          ['\\', 'u'] ++ ('\x7b' :: hexDigits c.toNat ++ ['\x7d']) := rfl
      rw [parts, Reader.read_append, backslash, read_unescaped _ _ _ noQuote noBackslash,
        List.append_assoc]
  | plain notBackslash notQuote =>
      exact read_unescaped _ _ _ (by simpa using notQuote.symm) (by simpa using notBackslash.symm)

theorem reads_quoted (s : String) :
    Reads (quoted s).toList [.quoted (s.toList.flatMap escape)] := by
  intro pieces outer
  have body : ∀ text, Reader.read ⟨pieces, outer, some (text, false)⟩ (s.toList.flatMap escape) =
      ⟨pieces, outer, some (text ++ s.toList.flatMap escape, false)⟩ := by
    induction s.toList with
    | nil =>
        intro text
        rw [List.flatMap_nil, List.append_nil]
        rfl
    | cons c rest ih =>
        intro text
        rw [List.flatMap_cons, Reader.read_append, read_escape, ih, List.append_assoc]
  have opened : Reader.read ⟨pieces, outer, none⟩ ('"' :: s.toList.flatMap escape) =
      Reader.read ⟨pieces, outer, some ([], false)⟩ (s.toList.flatMap escape) := rfl
  rw [quoted, String.toList_ofList, Reader.read_append, opened, body]
  rfl

end ConditionLint.Text
