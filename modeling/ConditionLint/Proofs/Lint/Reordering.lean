import ConditionLint.Proofs.Lint.Sweep

/-!
# Fixing does not depend on the order of the diagnostics

If no two fixes start at the same place, the order in which they are applied is settled by where
they start, and which of them are made can be said without any order: those that lie in the source
and end before every made fix that starts after them.
-/

set_option autoImplicit false

namespace ConditionLint.Lint

open Text

section

variable {fixes others : List Fix}

theorem order_strictly_falling
    (distinct : fixes.Pairwise fun a b => a.span.start ≠ b.span.start) :
    (FixedSource.order fixes).Pairwise fun a b => b.span.start < a.span.start := by
  have perm : fixes.Perm (FixedSource.order fixes) := (List.mergeSort_perm fixes _).symm
  have apart := perm.pairwise distinct fun differ => differ.symm
  apply ((order_falling fixes).and apart).imp
  intro a b both
  exact Nat.lt_of_le_of_ne both.1 both.2.symm

theorem order_eq_of_perm (distinct : fixes.Pairwise fun a b => a.span.start ≠ b.span.start)
    (perm : fixes.Perm others) : FixedSource.order fixes = FixedSource.order others := by
  have falls := order_strictly_falling distinct
  have otherFalls := order_strictly_falling (perm.pairwise distinct fun differ => differ.symm)
  apply List.Perm.eq_of_pairwise _ falls otherFalls
  · exact (List.mergeSort_perm fixes _).trans (perm.trans (List.mergeSort_perm others _).symm)
  · intro a b _ _ after before
    exact absurd after (Nat.lt_asymm before)

end

namespace Sweep

variable {source : List Char} {fixes edits : List Fix}

theorem rising (sweep : Sweep source fixes edits)
    (falling : fixes.Pairwise fun a b => b.span.start < a.span.start) :
    edits.Pairwise fun a b => a.span.start < b.span.start :=
  List.pairwise_reverse.mp (falling.sublist sweep.sublist)

/-- Of fixes with different starts, those are made that lie in the source and reach into no made
fix after them. -/
theorem mem_iff (sweep : Sweep source fixes edits)
    (falling : fixes.Pairwise fun a b => b.span.start < a.span.start) (fix : Fix) :
    fix ∈ edits ↔
      fix ∈ fixes ∧ fix.Placed source ∧
        ∀ later ∈ edits, fix.span.start < later.span.start →
          fix.span.stop ≤ later.span.start := by
  induction sweep with
  | start => simp
  | @make fixes edits new sweep fits ih =>
      obtain ⟨before, _, bound⟩ := List.pairwise_append.mp falling
      have first : ∀ earlier ∈ fixes, new.span.start < earlier.span.start := by
        intro earlier member
        exact bound earlier member new (List.mem_singleton_self new)
      have all := Sweep.make sweep fits
      constructor
      · intro made
        refine ⟨all.subset made, all.placed fix made, ?_⟩
        intro later alsoMade after
        cases List.mem_cons.mp made with
        | inl same =>
            cases List.mem_cons.mp alsoMade with
            | inl again =>
                rw [same, again] at after
                exact absurd after (Nat.lt_irrefl _)
            | inr among =>
                rw [same]
                exact (List.rel_of_pairwise_cons all.apart among).2
        | inr earlier =>
            have old := (ih before).mp earlier
            cases List.mem_cons.mp alsoMade with
            | inl again =>
                rw [again] at after
                exact absurd after (Nat.lt_asymm (first fix old.1))
            | inr among => exact old.2.2 later among after
      · intro conditions
        obtain ⟨member, placed, ends⟩ := conditions
        cases List.mem_append.mp member with
        | inl old =>
            apply List.mem_cons_of_mem
            apply (ih before).mpr
            exact ⟨old, placed, fun later made => ends later (List.mem_cons_of_mem _ made)⟩
        | inr last =>
            rw [List.mem_singleton.mp last]
            exact List.mem_cons_self
  | @leave fixes edits new sweep excluded ih =>
      obtain ⟨before, _, bound⟩ := List.pairwise_append.mp falling
      rw [ih before]
      constructor
      · intro conditions
        exact ⟨List.mem_append_left _ conditions.1, conditions.2⟩
      · intro conditions
        obtain ⟨member, placed, ends⟩ := conditions
        cases List.mem_append.mp member with
        | inl old => exact ⟨old, placed, ends⟩
        | inr last =>
            -- the fix left out last would fit if it met the conditions
            have same := List.mem_singleton.mp last
            apply absurd _ excluded.not_fits
            apply fits_iff.mpr
            rw [← same]
            refine ⟨fun next head => ?_, placed⟩
            have made := List.mem_of_mem_head? head
            exact ends next made (bound next (sweep.subset made) fix last)

end Sweep

/-- Diagnostics whose fixes start at different places give the same fixed source and the same
counts in every order. The edits are those fixes that lie in the source and end before all edits
that start after them. -/
theorem applyFixes_of_perm (source : String) {ds : List Diagnostic}
    (distinct : (ds.filterMap Diagnostic.fix).Pairwise fun a b =>
      a.span.start ≠ b.span.start) :
    (∀ others, ds.Perm others → applyFixes source others = applyFixes source ds) ∧
      ∃ edits, (edits.Pairwise fun a b => a.span.start < b.span.start) ∧
        (∀ fix, fix ∈ edits ↔
          fix ∈ ds.filterMap Diagnostic.fix ∧ fix.Placed source.toList ∧
            ∀ later ∈ edits, fix.span.start < later.span.start →
              fix.span.stop ≤ later.span.start) ∧
        Edited 0 edits source.toList (applyFixes source ds).source ∧
        (applyFixes source ds).applied = edits.length ∧
        (applyFixes source ds).applied + (applyFixes source ds).skipped =
          (ds.filterMap Diagnostic.fix).length := by
  constructor
  · intro others perm
    unfold applyFixes
    rw [order_eq_of_perm distinct (perm.filterMap Diagnostic.fix)]
  · have falling := order_strictly_falling distinct
    obtain ⟨edits, sweep, applied⟩ := FixedSource.exists_sweep source (order_falling _)
    refine ⟨edits, sweep.rising falling, fun fix => ?_, applied.edited, applied.applied,
      FixedSource.total_applyFixes source ds⟩
    rw [sweep.mem_iff falling]
    have perm := List.mergeSort_perm (ds.filterMap Diagnostic.fix) fun a b =>
      decide (b.span.start ≤ a.span.start)
    exact and_congr_left fun _ => perm.mem_iff

namespace Shuffled

/-!
Fixes for both `?.` of `é?.b?.c`, one that reaches into the second of them and one that starts
within the first letter, given from the last to the first and in another order.
-/

def source : String :=
  "é?.b?.c"

def fixAt (start stop : Nat) (replacement : String) : Diagnostic :=
  { Diagnostic.plain "flagged" ⟨start, stop, 1, start⟩ with
    fix := some ⟨⟨start, stop, 1, start⟩, replacement⟩ }

def falling : List Diagnostic :=
  [fixAt 5 7 ".", fixAt 3 6 "", fixAt 2 4 ".", .looseNullChecks, fixAt 1 2 "e"]

def shuffled : List Diagnostic :=
  [fixAt 2 4 ".", fixAt 1 2 "e", .looseNullChecks, fixAt 5 7 ".", fixAt 3 6 ""]

private theorem distinct_falling : (falling.filterMap Diagnostic.fix).Pairwise fun a b =>
    a.span.start ≠ b.span.start := by
  decide

private theorem applyFixes_falling :
    applyFixes source falling = ⟨"é.b.c".toList, some 2, 2, 2⟩ := by
  have sorted : FixedSource.order (falling.filterMap Diagnostic.fix) =
      falling.filterMap Diagnostic.fix := List.mergeSort_of_pairwise (by decide)
  rw [applyFixes, sorted]
  rfl

end Shuffled

theorem shuffled_fixed_same :
    (Shuffled.falling.filterMap Diagnostic.fix).Pairwise
        (fun a b => a.span.start ≠ b.span.start) ∧
      Shuffled.falling.Perm Shuffled.shuffled ∧
      applyFixes Shuffled.source Shuffled.shuffled = ⟨"é.b.c".toList, some 2, 2, 2⟩ := by
  have perm : Shuffled.falling.Perm Shuffled.shuffled := by decide
  have same := (applyFixes_of_perm Shuffled.source Shuffled.distinct_falling).1 _ perm
  exact ⟨Shuffled.distinct_falling, perm, same.trans Shuffled.applyFixes_falling⟩

end ConditionLint.Lint
