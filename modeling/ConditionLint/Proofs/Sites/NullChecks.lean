import ConditionLint.Proofs.Chains.Element
import ConditionLint.Proofs.Sites.Findings

/-!
# Judgements without strict null checks

Whether `null` and `undefined` are types of their own is asked in one place only: a comparison is
not found to be without overlap where they are not. Everything else is judged the same.
-/

set_option autoImplicit false

namespace ConditionLint

namespace Program

def withNullChecks (p : Program) (strict : Bool) : Program :=
  { p with strictNullChecks := strict }

variable {p : Program} {strict : Bool}

@[simp] theorem withNullChecks_table : (p.withNullChecks strict).table = p.table := rfl

@[simp] theorem withNullChecks_strictNullChecks :
    (p.withNullChecks strict).strictNullChecks = strict := rfl

@[simp] theorem constrainedType?_withNullChecks (e : Expr) :
    (p.withNullChecks strict).constrainedType? e = p.constrainedType? e := rfl

@[simp] theorem isConstantTrue_withNullChecks (e : Expr) :
    (p.withNullChecks strict).isConstantTrue e = p.isConstantTrue e := rfl

@[simp] theorem readsElement_withNullChecks (e : Expr) :
    (p.withNullChecks strict).readsElement e = p.readsElement e := rfl

@[simp] theorem passesElement_withNullChecks (e : Expr) :
    (p.withNullChecks strict).passesElement e = p.passesElement e := by
  fun_induction p.passesElement e with
  | case1 node base key optional ih => rw [passesElement, ih, readsElement_withNullChecks]
  | case2 node base arguments optional ih => rw [passesElement, ih, readsElement_withNullChecks]
  | case3 e notMember notCall =>
      unfold passesElement
      split
      · exact absurd rfl (notMember _ _ _ _)
      · exact absurd rfl (notCall _ _ _ _)
      · rfl

theorem judgeConditionUnder_withNullChecks (negated : Bool) (e : Expr) :
    (p.withNullChecks strict).judgeConditionUnder negated e = p.judgeConditionUnder negated e := by
  rw [judgeConditionUnder_eq, judgeConditionUnder_eq]
  rfl

@[simp] theorem judgeCondition_withNullChecks (e : Expr) :
    (p.withNullChecks strict).judgeCondition e = p.judgeCondition e :=
  judgeConditionUnder_withNullChecks false e

@[simp] theorem mayBeMissing_withNullChecks (e : Expr) :
    (p.withNullChecks strict).mayBeMissing e = p.mayBeMissing e := by
  cases e with
  | chain node inner =>
      simp only [mayBeMissing, readsElement_withNullChecks, passesElement_withNullChecks]
  | _ => rfl

@[simp] theorem judgeNullish_withNullChecks (e : Expr) :
    (p.withNullChecks strict).judgeNullish e = p.judgeNullish e := by
  unfold judgeNullish
  simp only [mayBeMissing_withNullChecks]
  rfl

@[simp] theorem judgePredicateCall_withNullChecks (callee : Expr) (arguments : List Expr) :
    (p.withNullChecks strict).judgePredicateCall callee arguments =
      p.judgePredicateCall callee arguments := by
  have callback (e : Expr) : (p.withNullChecks strict).judgeCallback e = p.judgeCallback e := by
    unfold judgeCallback
    split
    · exact judgeCondition_withNullChecks _
    · rfl
  unfold judgePredicateCall
  simp only [callback]
  rfl

@[simp] theorem judgeStep_withNullChecks (tokens : TokenStream) (e : Expr) :
    (p.withNullChecks strict).judgeStep tokens e = p.judgeStep tokens e := by
  unfold judgeStep
  simp only [passesElement_withNullChecks]
  rfl

theorem judge_withNullChecks {site : Site} (other : site.comparison? = none)
    (tokens : TokenStream) :
    (p.withNullChecks strict).judge tokens site = p.judge tokens site := by
  cases site with
  | comparison => cases other
  | _ => simp [judge]

theorem comparisonVerdict?_withNullChecks (enabled : p.strictNullChecks = true)
    (operator : BinaryOperator) (left right : TypeId) :
    (p.withNullChecks strict).comparisonVerdict? operator left right =
      (p.comparisonVerdict? operator left right).filter fun verdict =>
        strict || verdict != .noOverlap := by
  unfold comparisonVerdict?
  rw [withNullChecks_table, withNullChecks_strictNullChecks, enabled]
  cases p.table.isBareLiteral left && p.table.isBareLiteral right <;>
    cases p.table.cannotOverlap operator.isLooseEquality left right <;> cases strict <;> rfl

/-- Without strict null checks, a comparison that would be found to have no overlap is not. -/
theorem judgeComparison_withNullChecks (enabled : p.strictNullChecks = true) (node : Node)
    (operator : BinaryOperator) (left right : Expr) :
    ((p.withNullChecks strict).judgeComparison node operator left right).finding? =
      (p.judgeComparison node operator left right).finding?.filter fun f =>
        strict || f.verdict != .noOverlap := by
  unfold judgeComparison
  cases operator.isComparison with
  | false => rfl
  | true =>
      simp only [constrainedType?_withNullChecks, if_true]
      cases p.constrainedType? left with
      | none => rfl
      | some leftType =>
          cases p.constrainedType? right with
          | none => rfl
          | some rightType =>
              simp only [comparisonVerdict?_withNullChecks enabled]
              cases p.comparisonVerdict? operator leftType rightType with
              | none => rfl
              | some verdict =>
                  cases kept : strict || verdict != .noOverlap <;>
                    simp [Option.filter, kept, Judgement.finding?, Judgement.silent]

theorem judge_verdict_ne_noOverlap {tokens : TokenStream} {site : Site} {f : Finding}
    (other : site.comparison? = none) (judged : p.judge tokens site = .ok (.decided f)) :
    f.verdict ≠ .noOverlap := by
  intro isNoOverlap
  cases judge_found judged rfl with
  | step isStep =>
      rw [isNoOverlap] at isStep
      cases isStep
  | comparison isComparison =>
      rw [other] at isComparison
      cases isComparison
  | subject _ about =>
      have noComparison := about.noComparison
      rw [isNoOverlap] at noComparison
      cases noComparison

/-- Without strict null checks the same is found, but no comparison without overlap. -/
theorem judge_finding?_withNullChecks (enabled : p.strictNullChecks = true)
    (tokens : TokenStream) (site : Site) :
    ((p.withNullChecks strict).judge tokens site).map Judgement.finding? =
      (p.judge tokens site).map fun judgement =>
        judgement.finding?.filter fun f => strict || f.verdict != .noOverlap := by
  cases compared : site.comparison? with
  | some node =>
      cases site with
      | comparison node operator left right =>
          exact congrArg Except.ok (judgeComparison_withNullChecks enabled node operator left right)
      | _ => cases compared
  | none =>
      rw [judge_withNullChecks compared]
      cases judged : p.judge tokens site with
      | error fault => rfl
      | ok judgement =>
          cases judgement with
          | undecided doubt => rfl
          | decided f =>
              have different : (f.verdict != .noOverlap) = true :=
                bne_iff_ne.mpr (judge_verdict_ne_noOverlap compared judged)
              simp [Except.map, Judgement.finding?, Option.filter, different]

end Program

end ConditionLint
