import ConditionLint.Proofs.Lint.Edits

/-!
# Fixing is one edit of the source

The fixes are applied one after the other to a text that changes under them, and each is tested on
this text. All the same the result is the source with the applied fixes made at once, and whether a
fix is applied can be read off the source: what comes before the fix applied last has not changed.
-/

set_option autoImplicit false

namespace ConditionLint.Lint

open Text

/-!
## Where fixes can be made
-/

/-- The fix starts and ends at boundaries of the source, in this order. -/
structure Fix.Placed (fix : Fix) (source : List Char) : Prop where
  ordered : fix.span.start ≤ fix.span.stop
  start : isBoundary source fix.span.start = true
  stop : isBoundary source fix.span.stop = true

/-- The fix is out of place in the source, or reaches into the first of the edits. -/
inductive Fix.Excluded (fix : Fix) (source : List Char) (edits : List Fix) : Prop where
  | reversed : fix.span.stop < fix.span.start → Excluded fix source edits
  | start : isBoundary source fix.span.start = false → Excluded fix source edits
  | stop : isBoundary source fix.span.stop = false → Excluded fix source edits
  | reaches {next : Fix} :
      edits.head? = some next → fix.span.start ≤ next.span.start →
      next.span.start < fix.span.stop → Excluded fix source edits

section

variable {source : List Char} {fixes edits : List Fix} {fix : Fix}

theorem fits_iff :
    Fits source edits fix ↔
      (∀ next ∈ edits.head?, fix.span.stop ≤ next.span.start) ∧ fix.Placed source := by
  constructor
  · intro fits
    obtain ⟨ordered, start, stop⟩ := exists_slice?_iff.mp fits.sliced
    exact ⟨fits.apart, ordered, start, stop⟩
  · intro both
    obtain ⟨apart, placed⟩ := both
    exact ⟨apart, exists_slice?_iff.mpr ⟨placed.ordered, placed.start, placed.stop⟩⟩

theorem Fix.Excluded.not_fits (excluded : fix.Excluded source edits) :
    ¬ Fits source edits fix := by
  intro fits
  obtain ⟨apart, placed⟩ := fits_iff.mp fits
  cases excluded with
  | reversed reversed => exact absurd placed.ordered (Nat.not_le.mpr reversed)
  | start inside => exact absurd (placed.start.symm.trans inside) Bool.true_eq_false.mp
  | stop inside => exact absurd (placed.stop.symm.trans inside) Bool.true_eq_false.mp
  | reaches first _ beyond => exact absurd (apart _ first) (Nat.not_le.mpr beyond)

private theorem excluded_of_not_fits
    (falling : ∀ next ∈ edits.head?, fix.span.start ≤ next.span.start)
    (unfit : ¬ Fits source edits fix) : fix.Excluded source edits := by
  by_contra included
  apply unfit
  apply fits_iff.mpr
  refine ⟨fun next first => ?_, ?_, ?_, ?_⟩
  · exact Nat.le_of_not_lt fun beyond => included (.reaches first (falling next first) beyond)
  · exact Nat.le_of_not_lt fun reversed => included (.reversed reversed)
  · exact Bool.of_not_eq_false fun inside => included (.start inside)
  · exact Bool.of_not_eq_false fun inside => included (.stop inside)

end

/-!
## The fixes that are made
-/

/-- The edits are what is made of the fixes, the last one first: each fix in turn is made if it fits
before the edits so far, and only left out if it is excluded. -/
inductive Sweep (source : List Char) : List Fix → List Fix → Prop where
  | start : Sweep source [] []
  | make {fixes edits : List Fix} {fix : Fix} :
      Sweep source fixes edits → Fits source edits fix →
      Sweep source (fixes ++ [fix]) (fix :: edits)
  | leave {fixes edits : List Fix} {fix : Fix} :
      Sweep source fixes edits → fix.Excluded source edits →
      Sweep source (fixes ++ [fix]) edits

namespace Sweep

variable {source : List Char} {fixes edits : List Fix}

theorem sublist (sweep : Sweep source fixes edits) : edits.reverse.Sublist fixes := by
  induction sweep with
  | start => exact List.Sublist.refl []
  | make _ _ ih =>
      rw [List.reverse_cons]
      exact ih.append (List.Sublist.refl _)
  | leave _ _ ih => exact ih.trans (List.sublist_append_left _ _)

theorem subset (sweep : Sweep source fixes edits) {fix : Fix} (made : fix ∈ edits) :
    fix ∈ fixes :=
  sweep.sublist.subset (List.mem_reverse.mpr made)

theorem placed (sweep : Sweep source fixes edits) : ∀ fix ∈ edits, fix.Placed source := by
  induction sweep with
  | start => simp
  | make _ fits ih =>
      intro other made
      cases List.mem_cons.mp made with
      | inl same => exact same ▸ (fits_iff.mp fits).2
      | inr before => exact ih other before
  | leave _ _ ih => exact ih

theorem apart (sweep : Sweep source fixes edits) :
    edits.Pairwise fun a b => a.span.start ≤ b.span.start ∧ a.span.stop ≤ b.span.start := by
  induction sweep with
  | start => exact .nil
  | @make _ edits fix _ fits ih =>
      obtain ⟨before, placed⟩ := fits_iff.mp fits
      -- the new edit ends before the first one, and the others start after that
      have ends : ∀ later ∈ edits, fix.span.stop ≤ later.span.start := by
        intro later made
        cases edits with
        | nil => cases made
        | cons next others =>
            have first := before next rfl
            cases List.mem_cons.mp made with
            | inl same => exact same ▸ first
            | inr among => exact Nat.le_trans first (List.rel_of_pairwise_cons ih among).1
      apply List.pairwise_cons.mpr
      exact ⟨fun later made => ⟨Nat.le_trans placed.ordered (ends later made), ends later made⟩, ih⟩
  | leave _ _ ih => exact ih

end Sweep

/-!
## The run over the fixes
-/

namespace FixedSource

/-- Test a fix on the text as it is now and then apply or skip it; `none` where it passes the test
and cannot be applied. -/
def addTested? (s : FixedSource) (fix : Fix) : Option FixedSource :=
  if isBefore fix s.lastStart && fix.span.start ≤ fix.span.stop &&
      isBoundary s.source fix.span.start && isBoundary s.source fix.span.stop then
    (replace? s.source fix.span.start fix.span.stop fix.replacement.toList).map fun source =>
      { s with source := source, lastStart := some fix.span.start, applied := s.applied + 1 }
  else
    some s.skip

private theorem addTested?_eq (s : FixedSource) (fix : Fix) :
    s.addTested? fix = some (s.add fix) := by
  unfold addTested? add
  have placed := @exists_slice?_iff fix.span.start fix.span.stop s.source
  rw [← @exists_replace?_iff _ _ _ fix.replacement.toList] at placed
  cases isBefore fix s.lastStart with
  | false => rfl
  | true =>
      cases replaced : replace? s.source fix.span.start fix.span.stop fix.replacement.toList with
      | none =>
          have unfit : ¬ (fix.span.start ≤ fix.span.stop ∧
              isBoundary s.source fix.span.start = true ∧
              isBoundary s.source fix.span.stop = true) := by
            rw [← placed, replaced]
            simp
          simp [and_assoc, unfit]
      | some result =>
          obtain ⟨ordered, start, stop⟩ := placed.mp ⟨result, replaced⟩
          simp [ordered, start, stop]

private theorem foldlM_addTested? (fixes : List Fix) (s : FixedSource) :
    fixes.foldlM addTested? s = some (fixes.foldl add s) := by
  induction fixes generalizing s with
  | nil => rfl
  | cons fix rest ih =>
      rw [List.foldlM_cons, addTested?_eq]
      exact ih (s.add fix)

theorem total_foldl_add (fixes : List Fix) (s : FixedSource) :
    (fixes.foldl add s).applied + (fixes.foldl add s).skipped =
      s.applied + s.skipped + fixes.length := by
  induction fixes generalizing s with
  | nil => rfl
  | cons fix rest ih =>
      rw [List.foldl_cons, ih, total_add, List.length_cons]
      omega

theorem total_applyFixes (source : String) (ds : List Diagnostic) :
    (applyFixes source ds).applied + (applyFixes source ds).skipped =
      (ds.filterMap Diagnostic.fix).length := by
  unfold applyFixes
  rw [total_foldl_add, order, (List.mergeSort_perm _ _).length_eq]
  exact Nat.zero_add _

theorem exists_sweep (text : String) {fixes : List Fix}
    (falling : fixes.Pairwise fun a b => b.span.start ≤ a.span.start) :
    ∃ edits, Sweep text.toList fixes edits ∧
      Applied text.toList edits (fixes.foldl add (ofText text)) := by
  induction fixes using List.reverseRecOn with
  | nil => exact ⟨[], .start, applied_ofText text⟩
  | append_singleton earlier fix ih =>
      obtain ⟨before, _, bound⟩ := List.pairwise_append.mp falling
      obtain ⟨edits, sweep, applied⟩ := ih before
      rw [List.foldl_append]
      by_cases fits : Fits text.toList edits fix
      · exact ⟨fix :: edits, .make sweep fits, applied.add_of_fits fits⟩
      · have first : ∀ next ∈ edits.head?, fix.span.start ≤ next.span.start := by
          intro next head
          exact bound next (sweep.subset (List.mem_of_mem_head? head)) fix (by simp)
        have excluded := excluded_of_not_fits first fits
        exact ⟨edits, .leave sweep excluded, applied.add_of_not_fits fits⟩

end FixedSource

/-- Whatever fixes the diagnostics carry, none of them fails, and the result is the source edited at
once by those that are made: they lie at boundaries of the source and one after the other. Every
other fix is out of place in the source or reaches into the one made last. -/
theorem applyFixes_edits_at_once (source : String) (ds : List Diagnostic) :
    (FixedSource.order (ds.filterMap Diagnostic.fix)).foldlM FixedSource.addTested?
        (.ofText source) = some (applyFixes source ds) ∧
      ∃ edits, Sweep source.toList (FixedSource.order (ds.filterMap Diagnostic.fix)) edits ∧
        edits.reverse.Sublist (FixedSource.order (ds.filterMap Diagnostic.fix)) ∧
        (∀ fix ∈ edits, fix.Placed source.toList) ∧
        (edits.Pairwise fun a b => a.span.start ≤ b.span.start ∧ a.span.stop ≤ b.span.start) ∧
        Edited 0 edits source.toList (applyFixes source ds).source ∧
        (applyFixes source ds).applied = edits.length ∧
        (applyFixes source ds).applied + (applyFixes source ds).skipped =
          (ds.filterMap Diagnostic.fix).length := by
  have falling := order_falling (ds.filterMap Diagnostic.fix)
  obtain ⟨edits, sweep, applied⟩ := FixedSource.exists_sweep source falling
  exact ⟨FixedSource.foldlM_addTested? _ _, edits, sweep, sweep.sublist, sweep.placed,
    sweep.apart, applied.edited, applied.applied, FixedSource.total_applyFixes source ds⟩

end ConditionLint.Lint
