/-!
# Cutting text at byte offsets

Positions in a source text are byte offsets into its UTF-8 form. A cut succeeds exactly at the
boundaries of characters: `split? n cs` is `some (before, after)` when `before ++ after = cs` and
`before` takes `n` bytes.
-/

set_option autoImplicit false

namespace ConditionLint.Text

def byteSize : List Char → Nat
  | [] => 0
  | c :: cs => c.utf8Size + byteSize cs

/-- The two sides of a text at a byte offset; `none` past the end or inside a character. -/
def split? : Nat → List Char → Option (List Char × List Char)
  | 0, cs => some ([], cs)
  | _ + 1, [] => none
  | offset + 1, c :: cs =>
    if c.utf8Size ≤ offset + 1 then
      (split? (offset + 1 - c.utf8Size) cs).map fun (before, after) => (c :: before, after)
    else
      none

def isBoundary (cs : List Char) (offset : Nat) : Bool :=
  (split? offset cs).isSome

def slice? (cs : List Char) (start stop : Nat) : Option (List Char) :=
  if start ≤ stop then do
    let (_, rest) ← split? start cs
    let (part, _) ← split? (stop - start) rest
    return part
  else
    none

def replace? (cs : List Char) (start stop : Nat) (new : List Char) : Option (List Char) :=
  if start ≤ stop then do
    let (before, rest) ← split? start cs
    let (_, after) ← split? (stop - start) rest
    return before ++ new ++ after
  else
    none

theorem split?_zero (cs : List Char) : split? 0 cs = some ([], cs) := by
  cases cs <;> rfl

/-- A cut loses nothing and its first part has the asked size. -/
theorem split?_eq_some {offset : Nat} {cs before after : List Char}
    (cut : split? offset cs = some (before, after)) :
    before ++ after = cs ∧ byteSize before = offset := by
  induction offset, cs using split?.induct generalizing before with
  | case1 cs =>
      rw [split?_zero] at cut
      obtain ⟨rfl, rfl⟩ := Prod.mk.inj (Option.some.inj cut)
      exact ⟨rfl, rfl⟩
  | case2 offset => simp [split?] at cut
  | case3 offset c cs fits ih =>
      simp only [split?, fits, if_true, Option.map_eq_some_iff] at cut
      obtain ⟨⟨front, back⟩, inner, same⟩ := cut
      obtain ⟨rfl, rfl⟩ := Prod.mk.inj same
      obtain ⟨rfl, size⟩ := ih inner
      refine ⟨rfl, ?_⟩
      simp only [byteSize] at size ⊢
      omega
  | case4 offset c cs tooLong => simp [split?, tooLong] at cut

end ConditionLint.Text
