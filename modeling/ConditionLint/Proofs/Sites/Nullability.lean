import ConditionLint.Analysis.Nullish
import ConditionLint.Analysis.OptionalStep

/-!
# Findings about nullability

What the checks of nullish operands and of optional steps find, and when they do.
-/

set_option autoImplicit false

namespace ConditionLint

/-- What a type fixes about an operand of `??`, whose value may be missing or not. -/
inductive Table.FixesNullish (t : Table) (type : TypeId) (missing : Bool) : Verdict → Prop where
  | never : t.isNever type = true → FixesNullish t type missing .never
  | neverNullish :
      t.isNever type = false → t.isPossiblyNullish type = false → missing = false →
      FixesNullish t type missing .neverNullish
  | alwaysNullish :
      t.isNever type = false → t.isPossiblyNullish type = true → t.isAlwaysNullish type = true →
      FixesNullish t type missing .alwaysNullish

namespace Program

variable {p : Program} {e : Expr} {f : Finding} {tokens : TokenStream}

theorem judgeNullish_finding?_eq_some_iff :
    (p.judgeNullish e).finding? = some f ↔
      ∃ type verdict, p.constrainedType? e = some type ∧ p.table.isIndeterminate type = false ∧
        p.table.FixesNullish type (p.mayBeMissing e) verdict ∧
        f = ⟨verdict, e.span, some type⟩ := by
  constructor
  · intro found
    cases typed : p.constrainedType? e with
    | none => simp [judgeNullish, typed, Judgement.silent, Judgement.finding?] at found
    | some type =>
        cases decidable : p.table.isIndeterminate type with
        | true =>
            simp [judgeNullish, typed, decidable, Judgement.doubtful, Judgement.finding?] at found
        | false =>
            refine ⟨type, f.verdict, rfl, decidable, ?_⟩
            simp only [judgeNullish, typed, decidable] at found
            cases inhabited : p.table.isNever type with
            | true =>
                simp only [inhabited] at found
                cases found
                exact ⟨.never inhabited, rfl⟩
            | false =>
                simp only [inhabited] at found
                cases nullish : p.table.isPossiblyNullish type with
                | false =>
                    simp only [nullish] at found
                    cases missing : p.mayBeMissing e with
                    | true => simp [missing, Judgement.doubtful, Judgement.finding?] at found
                    | false =>
                        simp only [missing] at found
                        cases found
                        exact ⟨.neverNullish inhabited nullish rfl, rfl⟩
                | true =>
                    simp only [nullish] at found
                    cases always : p.table.isAlwaysNullish type with
                    | false => simp [always, Judgement.silent, Judgement.finding?] at found
                    | true =>
                        simp only [always] at found
                        cases found
                        exact ⟨.alwaysNullish inhabited nullish always, rfl⟩
  · rintro ⟨type, verdict, typed, decidable, fixes, rfl⟩
    unfold judgeNullish
    cases fixes with
    | never never => simp [typed, decidable, never, Judgement.finding?]
    | neverNullish inhabited notNullish present =>
        simp [typed, decidable, inhabited, notNullish, present, Judgement.finding?]
    | alwaysNullish inhabited nullish always =>
        simp [typed, decidable, inhabited, nullish, always, Judgement.finding?]

/-- A step stays undecided whatever the tokens are, or it is redundant and depends on them. -/
theorem judgeStep_cases (p : Program) (tokens : TokenStream) (e : Expr) :
    (∃ doubt, p.judgeStep tokens e = .ok (.undecided doubt)) ∨
      ∃ base replacement type, e.optionalStep? = some (base, replacement) ∧
        p.passesElement e = false ∧ p.constrainedType? base = some type ∧
        p.isOptionable base type = false ∧
        p.judgeStep tokens e = judgeRedundantStep tokens base type replacement := by
  unfold judgeStep
  cases optional : e.optionalStep? with
  | none => exact .inl ⟨none, rfl⟩
  | some found =>
      obtain ⟨base, replacement⟩ := found
      cases passes : p.passesElement e with
      | true => exact .inl ⟨_, rfl⟩
      | false =>
          cases typed : p.constrainedType? base with
          | none => exact .inl ⟨some (.untypedBase base.span), by simp [typed, Judgement.doubtful]⟩
          | some type =>
              cases optionable : p.isOptionable base type with
              | true => exact .inl ⟨none, by simp [typed, optionable, Judgement.silent]⟩
              | false =>
                  exact .inr ⟨base, replacement, type, rfl, rfl, typed, optionable,
                    by simp [typed, optionable]⟩

/-- Any other outcome of a step is that of the search for its token. -/
theorem judgeStep_eq_iff {outcome : Except MissingOperator Judgement}
    (settled : ∀ doubt, outcome ≠ .ok (.undecided doubt)) :
    p.judgeStep tokens e = outcome ↔
      ∃ base replacement type, e.optionalStep? = some (base, replacement) ∧
        p.passesElement e = false ∧ p.constrainedType? base = some type ∧
        p.isOptionable base type = false ∧
        judgeRedundantStep tokens base type replacement = outcome := by
  constructor
  · intro judged
    rcases p.judgeStep_cases tokens e with
      ⟨doubt, silent⟩ | ⟨base, replacement, type, optional, passes, typed, optionable, redundant⟩
    · exact absurd (judged.symm.trans silent) (settled doubt)
    · exact ⟨base, replacement, type, optional, passes, typed, optionable,
        redundant.symm.trans judged⟩
  · rintro ⟨base, replacement, type, optional, passes, typed, optionable, rfl⟩
    simp [judgeStep, optional, passes, typed, optionable]

theorem judgeRedundantStep_eq_decided_iff {base : Expr} {type : TypeId} {replacement : String} :
    judgeRedundantStep tokens base type replacement = .ok (.decided f) ↔
      ∃ token, tokens.tokenAfter? base.span.stop (·.isPunctuator "?.") = some token ∧
        f = ⟨.redundantStep token.span replacement, token.span, some type⟩ := by
  unfold judgeRedundantStep
  cases tokens.tokenAfter? base.span.stop (·.isPunctuator "?.") <;> simp [eq_comm]

theorem judgeRedundantStep_eq_error_iff {base : Expr} {type : TypeId} {replacement : String}
    {fault : MissingOperator} :
    judgeRedundantStep tokens base type replacement = .error fault ↔
      tokens.tokenAfter? base.span.stop (·.isPunctuator "?.") = none ∧ fault = ⟨base.span⟩ := by
  unfold judgeRedundantStep
  cases tokens.tokenAfter? base.span.stop (·.isPunctuator "?.") <;> simp [eq_comm]

/-- An optional step is found to be redundant exactly if no element is passed on the way to it, its
base is not optionable, and the tokens hold it. -/
theorem judgeStep_eq_decided_iff :
    p.judgeStep tokens e = .ok (.decided f) ↔
      ∃ base replacement type token, e.optionalStep? = some (base, replacement) ∧
        p.passesElement e = false ∧ p.constrainedType? base = some type ∧
        p.isOptionable base type = false ∧
        tokens.tokenAfter? base.span.stop (·.isPunctuator "?.") = some token ∧
        f = ⟨.redundantStep token.span replacement, token.span, some type⟩ := by
  rw [judgeStep_eq_iff (by simp)]
  simp only [judgeRedundantStep_eq_decided_iff, exists_and_left]

end Program

end ConditionLint
