import ConditionLint.Text.Cut
import Mathlib.Data.List.Basic

/-!
# Cuts in a text

Where a text can be cut, sliced and replaced: an offset is a boundary if a first part of the text
takes that many bytes. Two first parts of one text are ordered as their sizes are.
-/

set_option autoImplicit false

namespace ConditionLint.Text

variable {offset start stop : Nat} {cs before after part new result : List Char}

@[simp] theorem byteSize_nil : byteSize [] = 0 := rfl

@[simp] theorem byteSize_cons (c : Char) (cs : List Char) :
    byteSize (c :: cs) = c.utf8Size + byteSize cs := rfl

@[simp] theorem byteSize_append (first second : List Char) :
    byteSize (first ++ second) = byteSize first + byteSize second := by
  induction first with
  | nil => simp
  | cons c rest ih => simp [ih, Nat.add_assoc]

theorem byteSize_eq_zero : byteSize cs = 0 ↔ cs = [] := by
  cases cs with
  | nil => simp
  | cons c rest => simp [Nat.ne_of_gt c.utf8Size_pos]

theorem split?_append (first second : List Char) :
    split? (byteSize first) (first ++ second) = some (first, second) := by
  induction first with
  | nil => exact split?_zero second
  | cons c rest ih =>
      obtain ⟨size, positive⟩ : ∃ size, byteSize (c :: rest) = size + 1 :=
        Nat.exists_eq_succ_of_ne_zero (by simp [Nat.ne_of_gt c.utf8Size_pos])
      have fits : c.utf8Size ≤ size + 1 := by
        rw [← positive, byteSize_cons]
        omega
      have others : size + 1 - c.utf8Size = byteSize rest := by
        rw [← positive, byteSize_cons]
        omega
      rw [positive, List.cons_append, split?, if_pos fits, others, ih]
      rfl

theorem split?_eq_some_iff :
    split? offset cs = some (before, after) ↔ cs = before ++ after ∧ byteSize before = offset := by
  constructor
  · intro cut
    obtain ⟨whole, size⟩ := split?_eq_some cut
    exact ⟨whole.symm, size⟩
  · rintro ⟨rfl, rfl⟩
    exact split?_append before after

theorem slice?_eq_some_iff :
    slice? cs start stop = some part ↔
      ∃ before after, cs = before ++ part ++ after ∧ byteSize before = start ∧
        start + byteSize part = stop := by
  constructor
  · intro sliced
    unfold slice? at sliced
    split at sliced
    · rename_i ordered
      obtain ⟨⟨before, rest⟩, first, sliced⟩ := Option.bind_eq_some_iff.mp sliced
      obtain ⟨⟨inner, after⟩, second, same⟩ := Option.bind_eq_some_iff.mp sliced
      cases same
      obtain ⟨rfl, rfl⟩ := split?_eq_some_iff.mp first
      obtain ⟨rfl, size⟩ := split?_eq_some_iff.mp second
      exact ⟨before, after, by rw [List.append_assoc], rfl, by omega⟩
    · cases sliced
  · rintro ⟨before, after, rfl, rfl, rfl⟩
    unfold slice?
    rw [if_pos (Nat.le_add_right _ _), List.append_assoc, split?_append, Nat.add_sub_cancel_left]
    simp [split?_append]

theorem replace?_eq_some_iff :
    replace? cs start stop new = some result ↔
      ∃ before old after, cs = before ++ old ++ after ∧ byteSize before = start ∧
        start + byteSize old = stop ∧ result = before ++ new ++ after := by
  constructor
  · intro replaced
    unfold replace? at replaced
    split at replaced
    · rename_i ordered
      obtain ⟨⟨before, rest⟩, first, replaced⟩ := Option.bind_eq_some_iff.mp replaced
      obtain ⟨⟨old, after⟩, second, same⟩ := Option.bind_eq_some_iff.mp replaced
      cases same
      obtain ⟨rfl, rfl⟩ := split?_eq_some_iff.mp first
      obtain ⟨rfl, size⟩ := split?_eq_some_iff.mp second
      exact ⟨before, old, after, by rw [List.append_assoc], rfl, by omega, rfl⟩
    · cases replaced
  · rintro ⟨before, old, after, rfl, rfl, rfl, rfl⟩
    unfold replace?
    rw [if_pos (Nat.le_add_right _ _), List.append_assoc, split?_append, Nat.add_sub_cancel_left]
    simp [split?_append]

/-- Of two first parts of a text, the one that takes fewer bytes is a first part of the other. -/
theorem exists_eq_append_of_byteSize_le {first second rest others : List Char}
    (same : first ++ rest = second ++ others) (smaller : byteSize first ≤ byteSize second) :
    ∃ between, second = first ++ between ∧ rest = between ++ others := by
  rcases List.append_eq_append_iff.mp same with ⟨between, longer, rfl⟩ | ⟨between, rfl, rfl⟩
  · exact ⟨between, longer, rfl⟩
  · have empty : between = [] := byteSize_eq_zero.mp (by
      rw [byteSize_append] at smaller
      omega)
    subst empty
    exact ⟨[], by simp, rfl⟩

theorem append_inj_of_byteSize_eq {first second rest others : List Char}
    (same : first ++ rest = second ++ others) (size : byteSize first = byteSize second) :
    first = second ∧ rest = others := by
  obtain ⟨between, rfl, rfl⟩ := exists_eq_append_of_byteSize_le same (Nat.le_of_eq size)
  have empty : between = [] := byteSize_eq_zero.mp (by
    rw [byteSize_append] at size
    omega)
  subst empty
  exact ⟨(List.append_nil _).symm, rfl⟩

theorem isBoundary_iff :
    isBoundary cs offset = true ↔
      ∃ before after, cs = before ++ after ∧ byteSize before = offset := by
  unfold isBoundary
  rw [Option.isSome_iff_exists]
  simp only [Prod.exists, split?_eq_some_iff]

/-- A part can be cut out between two boundaries in their order, and between no other offsets. -/
theorem exists_slice?_iff :
    (∃ part, slice? cs start stop = some part) ↔
      start ≤ stop ∧ isBoundary cs start = true ∧ isBoundary cs stop = true := by
  constructor
  · intro sliced
    obtain ⟨part, sliced⟩ := sliced
    obtain ⟨before, after, rfl, rfl, rfl⟩ := slice?_eq_some_iff.mp sliced
    refine ⟨Nat.le_add_right _ _, ?_, ?_⟩
    · exact isBoundary_iff.mpr ⟨before, part ++ after, List.append_assoc _ _ _, rfl⟩
    · exact isBoundary_iff.mpr ⟨before ++ part, after, rfl, byteSize_append before part⟩
  · intro placed
    obtain ⟨ordered, first, second⟩ := placed
    obtain ⟨before, rest, rfl, rfl⟩ := isBoundary_iff.mp first
    obtain ⟨longer, after, same, rfl⟩ := isBoundary_iff.mp second
    obtain ⟨part, rfl, rfl⟩ := exists_eq_append_of_byteSize_le same ordered
    refine ⟨part, slice?_eq_some_iff.mpr ⟨before, after, same, rfl, ?_⟩⟩
    exact (byteSize_append before part).symm

theorem exists_replace?_iff :
    (∃ result, replace? cs start stop new = some result) ↔
      ∃ part, slice? cs start stop = some part := by
  simp only [replace?_eq_some_iff, slice?_eq_some_iff]
  constructor
  · intro replaced
    obtain ⟨_, before, part, after, whole, size, total, _⟩ := replaced
    exact ⟨part, before, after, whole, size, total⟩
  · intro sliced
    obtain ⟨part, before, after, whole, size, total⟩ := sliced
    exact ⟨_, before, part, after, whole, size, total, rfl⟩

end ConditionLint.Text
