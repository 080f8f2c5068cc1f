import ConditionLint.Lint.FixedSource
import ConditionLint.Proofs.Text.Cut
import Mathlib.Data.List.Induction

/-!
# Edits of a text

Fixes that do not overlap are one edit of the text they are made for: the text under each span is
exchanged and all between the spans stays. Applying the fixes from the last to the first gives this
edit, since what comes before the fix applied last is still as it was.
-/

set_option autoImplicit false

namespace ConditionLint

/-- No byte lies in both spans. -/
def Span.Disjoint (first second : Span) : Prop :=
  ∀ offset, ¬ ((first.start ≤ offset ∧ offset < first.stop) ∧
    second.start ≤ offset ∧ offset < second.stop)

namespace Lint

open Text

/-- The second text is the first with what is under the spans of the fixes replaced, in this order;
both start at an offset of the whole text. -/
inductive Edited : Nat → List Fix → List Char → List Char → Prop where
  | unchanged {offset : Nat} {rest : List Char} : Edited offset [] rest rest
  | replaced {offset : Nat} {fix : Fix} {fixes : List Fix}
      {between old before after : List Char} :
      offset + byteSize between = fix.span.start →
      fix.span.start + byteSize old = fix.span.stop →
      Edited fix.span.stop fixes before after →
      Edited offset (fix :: fixes) (between ++ old ++ before)
        (between ++ fix.replacement.toList ++ after)

namespace Edited

variable {fix : Fix} {fixes : List Fix} {source text : List Char}

theorem unique {offset : Nat} {other : List Char} (edited : Edited offset fixes source text)
    (again : Edited offset fixes source other) : text = other := by
  induction edited generalizing other with
  | unchanged =>
      cases again
      rfl
  | @replaced _ fix _ between old before after start stop _ ih =>
      generalize whole : between ++ old ++ before = source at again
      cases again with
      | @replaced _ _ _ between' old' before' after' start' stop' later' =>
          rw [List.append_assoc, List.append_assoc] at whole
          obtain ⟨rfl, others⟩ := append_inj_of_byteSize_eq whole (by omega)
          obtain ⟨rfl, rfl⟩ := append_inj_of_byteSize_eq others (by omega)
          rw [ih later']

/-- Up to the first fix both texts are the same, and they can be cut anywhere in this part. -/
private theorem exists_shared {offset : Nat} (edited : Edited offset fixes source text) :
    ∃ shared old new, source = shared ++ old ∧ text = shared ++ new ∧
      (∀ next ∈ fixes.head?, offset + byteSize shared = next.span.start) ∧
      (fixes = [] → old = [] ∧ new = []) ∧
      ∀ first second, shared = first ++ second →
        Edited (offset + byteSize first) fixes (second ++ old) (second ++ new) := by
  cases edited with
  | unchanged =>
      refine ⟨source, [], [], by simp, by simp, by simp, fun _ => ⟨rfl, rfl⟩, ?_⟩
      intro first second _
      exact .unchanged
  | @replaced _ next rest between old before after start stop later =>
      refine ⟨between, old ++ before, next.replacement.toList ++ after, by simp, by simp,
        by simpa using start, by simp, ?_⟩
      rintro first second rfl
      rw [byteSize_append] at start
      rw [← List.append_assoc, ← List.append_assoc]
      exact .replaced (by omega) stop later

/-- A part of one text that ends before the first fix is the same part of the other. -/
private theorem exists_append_of_le (edited : Edited 0 fixes source text) {part rest : List Char}
    (before : ∀ next ∈ fixes.head?, byteSize part ≤ next.span.start) :
    (source = part ++ rest → ∃ others, text = part ++ others ∧
      Edited (byteSize part) fixes rest others) ∧
    (text = part ++ rest → ∃ others, source = part ++ others ∧
      Edited (byteSize part) fixes others rest) := by
  obtain ⟨shared, old, new, rfl, rfl, start, empty, cut⟩ := edited.exists_shared
  have fits {others : List Char} (whole : part ++ rest = shared ++ others)
      (nothing : fixes = [] → others = []) : byteSize part ≤ byteSize shared := by
    cases fixes with
    | nil =>
        have sizes := congrArg byteSize whole
        rw [nothing rfl, byteSize_append, byteSize_append, byteSize_nil] at sizes
        omega
    | cons next others =>
        have first := start next rfl
        have limit := before next rfl
        omega
  constructor
  · intro whole
    obtain ⟨between, rfl, rfl⟩ := exists_eq_append_of_byteSize_le whole.symm
      (fits whole.symm fun none => (empty none).1)
    exact ⟨between ++ new, by rw [List.append_assoc], by simpa using cut part between rfl⟩
  · intro whole
    obtain ⟨between, rfl, rfl⟩ := exists_eq_append_of_byteSize_le whole.symm
      (fits whole.symm fun none => (empty none).2)
    exact ⟨between ++ old, by rw [List.append_assoc], by simpa using cut part between rfl⟩

end Edited

/-!
## The order of application
-/

theorem falling_trans (a b c : Fix) (first : decide (b.span.start ≤ a.span.start) = true)
    (second : decide (c.span.start ≤ b.span.start) = true) :
    decide (c.span.start ≤ a.span.start) = true :=
  decide_eq_true (Nat.le_trans (of_decide_eq_true second) (of_decide_eq_true first))

theorem falling_total (a b : Fix) :
    (decide (b.span.start ≤ a.span.start) || decide (a.span.start ≤ b.span.start)) = true := by
  simpa using Nat.le_total b.span.start a.span.start

theorem order_falling (fixes : List Fix) :
    (FixedSource.order fixes).Pairwise fun a b => b.span.start ≤ a.span.start :=
  (List.pairwise_mergeSort falling_trans falling_total fixes).imp fun falls =>
    of_decide_eq_true falls

/-!
## Applying a fix
-/

/-- The fix ends before the first of the fixes, and it is to replace a part of the source. -/
structure Fits (source : List Char) (fixes : List Fix) (fix : Fix) : Prop where
  apart : ∀ next ∈ fixes.head?, fix.span.stop ≤ next.span.start
  sliced : ∃ part, slice? source fix.span.start fix.span.stop = some part

namespace FixedSource

variable {fix : Fix} {fixes : List Fix} {source : List Char} {s : FixedSource}

/-- The fixes have been applied to the source, the first of them last. -/
structure Applied (source : List Char) (fixes : List Fix) (s : FixedSource) : Prop where
  edited : Edited 0 fixes source s.source
  lastStart : s.lastStart = fixes.head?.map (·.span.start)
  applied : s.applied = fixes.length

theorem applied_ofText (source : String) : Applied source.toList [] (ofText source) :=
  ⟨.unchanged, rfl, rfl⟩

namespace Applied

theorem isBefore_iff (applied : Applied source fixes s) :
    isBefore fix s.lastStart = true ↔ ∀ next ∈ fixes.head?, fix.span.stop ≤ next.span.start := by
  rw [isBefore, applied.lastStart]
  cases fixes <;> simp

/-- A fix that comes before the others is applied where the source has the part it replaces, since
the text is still the source there. -/
theorem replace (applied : Applied source fixes s)
    (apart : ∀ next ∈ fixes.head?, fix.span.stop ≤ next.span.start) :
    (∀ {result}, replace? s.source fix.span.start fix.span.stop fix.replacement.toList =
      some result → Fits source fixes fix ∧ Edited 0 (fix :: fixes) source result) ∧
    (Fits source fixes fix →
      ∃ result, replace? s.source fix.span.start fix.span.stop fix.replacement.toList =
        some result) := by
  constructor
  · intro result replaced
    obtain ⟨before, old, after, whole, start, stop, rfl⟩ := replace?_eq_some_iff.mp replaced
    have size : byteSize (before ++ old) = fix.span.stop := by
      rw [byteSize_append, start, stop]
    obtain ⟨others, rfl, later⟩ := (applied.edited.exists_append_of_le
      (size.symm ▸ apart)).2 whole
    refine ⟨⟨apart, old, slice?_eq_some_iff.mpr ⟨before, others, rfl, start, stop⟩⟩, ?_⟩
    rw [size] at later
    exact .replaced (by omega) stop later
  · rintro ⟨_, part, sliced⟩
    obtain ⟨before, after, whole, start, stop⟩ := slice?_eq_some_iff.mp sliced
    have size : byteSize (before ++ part) = fix.span.stop := by
      rw [byteSize_append, start, stop]
    obtain ⟨others, same, _⟩ := (applied.edited.exists_append_of_le
      (size.symm ▸ apart)).1 whole
    exact ⟨_, replace?_eq_some_iff.mpr ⟨before, part, others, same, start, stop, rfl⟩⟩

theorem add_of_fits (applied : Applied source fixes s) (fits : Fits source fixes fix) :
    Applied source (fix :: fixes) (s.add fix) := by
  obtain ⟨result, replaced⟩ := (applied.replace fits.apart).2 fits
  have edited := ((applied.replace fits.apart).1 replaced).2
  have same : s.add fix =
      { s with source := result, lastStart := some fix.span.start, applied := s.applied + 1 } := by
    rw [FixedSource.add, if_pos (applied.isBefore_iff.mpr fits.apart), replaced]
  rw [same]
  exact ⟨edited, rfl, congrArg Nat.succ applied.applied⟩

theorem add_of_not_fits (applied : Applied source fixes s) (unfit : ¬ Fits source fixes fix) :
    Applied source fixes (s.add fix) := by
  have same : s.add fix = s.skip := by
    unfold FixedSource.add
    split
    · rename_i before
      split
      · rename_i result replaced
        exact absurd ((applied.replace (applied.isBefore_iff.mp before)).1 replaced).1 unfit
      · rfl
    · rfl
  rw [same]
  exact ⟨applied.edited, applied.lastStart, applied.applied⟩

end Applied

theorem total_add (s : FixedSource) (fix : Fix) :
    (s.add fix).applied + (s.add fix).skipped = s.applied + s.skipped + 1 := by
  unfold add skip
  split
  · split
    · exact Nat.add_right_comm s.applied 1 s.skipped
    · rfl
  · rfl

/-!
## Fixes that are the same or apart
-/

/-- Each fix replaces a part of the source that is not empty, and any two have the same span or
spans without a common byte. -/
structure Separate (source : List Char) (fixes : List Fix) : Prop where
  sliced : ∀ fix ∈ fixes, ∃ part, slice? source fix.span.start fix.span.stop = some part
  nonempty : ∀ fix ∈ fixes, fix.span.start < fix.span.stop
  apart : ∀ first ∈ fixes, ∀ second ∈ fixes,
    first.span = second.span ∨ first.span.Disjoint second.span

/-- The fix is the first one with its span. -/
def IsFirst (fixes : List Fix) (fix : Fix) : Prop :=
  fixes.find? (·.span == fix.span) = some fix

/-- Separate fixes have been applied in falling order: the first one of each span, and no other. -/
structure Cleared (source : List Char) (fixes edits : List Fix) (s : FixedSource) : Prop
    extends Applied source edits s where
  rising : edits.Pairwise fun a b => a.span.start < b.span.start
  firsts : ∀ fix, fix ∈ edits ↔ IsFirst fixes fix
  total : s.applied + s.skipped = fixes.length

theorem IsFirst.mem (first : IsFirst fixes fix) : fix ∈ fixes :=
  List.mem_of_find?_eq_some first

private theorem isFirst_append {other : Fix} :
    IsFirst (fixes ++ [fix]) other ↔
      IsFirst fixes other ∨ (other = fix ∧ fixes.find? (·.span == fix.span) = none) := by
  rw [IsFirst, IsFirst, List.find?_append, List.find?_singleton]
  cases found : fixes.find? (·.span == other.span) with
  | some first =>
      constructor
      · exact Or.inl
      · rintro (same | ⟨rfl, new⟩)
        · exact same
        · rw [new] at found
          cases found
  | none =>
      constructor
      · intro last
        obtain ⟨_, same⟩ := Option.ite_none_right_eq_some.mp last
        cases same
        exact .inr ⟨rfl, found⟩
      · rintro (absurd | ⟨rfl, _⟩)
        · cases absurd
        · simp

private theorem cleared_ofText (source : String) : Cleared source.toList [] [] (ofText source) where
  toApplied := applied_ofText source
  rising := .nil
  firsts := by simp [IsFirst]
  total := rfl

/-- One more fix is applied if it is the first one with its span, and left out otherwise. -/
theorem Cleared.add {edits : List Fix} (cleared : Cleared source fixes edits s)
    (separate : Separate source (fixes ++ [fix]))
    (falling : ∀ earlier ∈ fixes, fix.span.start ≤ earlier.span.start) :
    ∃ edits, Cleared source (fixes ++ [fix]) edits (s.add fix) := by
  have last : fix ∈ fixes ++ [fix] := by simp
  have nonempty := separate.nonempty fix last
  have total : (s.add fix).applied + (s.add fix).skipped = (fixes ++ [fix]).length := by
    rw [total_add, cleared.total, List.length_append]
    rfl
  cases found : fixes.find? (·.span == fix.span) with
  | some earlier =>
      have same : earlier.span = fix.span := by simpa using List.find?_some found
      have first : IsFirst fixes earlier := by
        rw [IsFirst, same]
        exact found
      have applied : earlier ∈ edits := (cleared.firsts earlier).mpr first
      have unfit : ¬ Fits source edits fix := by
        intro fits
        cases edits with
        | nil => cases applied
        | cons next others =>
            have first := fits.apart next rfl
            have later : next.span.start ≤ earlier.span.start := by
              rcases List.mem_cons.mp applied with rfl | member
              · exact Nat.le_refl _
              · exact Nat.le_of_lt (List.rel_of_pairwise_cons cleared.rising member)
            rw [same] at later
            omega
      refine ⟨edits, cleared.add_of_not_fits unfit, cleared.rising, fun other => ?_, total⟩
      rw [cleared.firsts, isFirst_append, found]
      simp
  | none =>
      have later {other : Fix} (member : other ∈ edits) :
          fix.span.stop ≤ other.span.start := by
        have seen := ((cleared.firsts other).mp member).mem
        have order := falling other seen
        have filled := separate.nonempty other (List.mem_append_left _ seen)
        rcases separate.apart fix last other (List.mem_append_left _ seen) with same | disjoint
        · exact absurd (beq_iff_eq.mpr same.symm) (List.find?_eq_none.mp found other seen)
        · have free := disjoint other.span.start
          omega
      have fits : Fits source edits fix :=
        ⟨fun next head => later (List.mem_of_mem_head? head), separate.sliced fix last⟩
      refine ⟨fix :: edits, cleared.add_of_fits fits,
        List.pairwise_cons.mpr ⟨?_, cleared.rising⟩, fun other => ?_, total⟩
      · intro other member
        exact Nat.lt_of_lt_of_le nonempty (later member)
      · rw [List.mem_cons, cleared.firsts, isFirst_append, found]
        simp [or_comm]

theorem Separate.of_append {others : List Fix} (separate : Separate source (fixes ++ others)) :
    Separate source fixes where
  sliced fix member := separate.sliced fix (List.mem_append_left _ member)
  nonempty fix member := separate.nonempty fix (List.mem_append_left _ member)
  apart first one second other :=
    separate.apart first (List.mem_append_left _ one) second (List.mem_append_left _ other)

theorem exists_cleared {text : String} (separate : Separate text.toList fixes)
    (falling : fixes.Pairwise fun a b => b.span.start ≤ a.span.start) :
    ∃ edits, Cleared text.toList fixes edits (fixes.foldl add (ofText text)) := by
  induction fixes using List.reverseRecOn with
  | nil => exact ⟨[], cleared_ofText text⟩
  | append_singleton earlier fix ih =>
      obtain ⟨before, _, bound⟩ := List.pairwise_append.mp falling
      obtain ⟨edits, cleared⟩ := ih separate.of_append before
      rw [List.foldl_append]
      exact cleared.add separate fun other member => bound other member fix (by simp)

end FixedSource

end Lint

end ConditionLint
