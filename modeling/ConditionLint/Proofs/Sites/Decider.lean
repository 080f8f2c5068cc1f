import ConditionLint.Analysis.Condition

/-!
# The deciding expression of a condition

A condition is judged by one expression inside it, which is reached through negations and the
right operands of `&&` and `||`. Its verdict is swapped if an odd number of negations stands
between it and the nearest of these operators.
-/

set_option autoImplicit false

namespace ConditionLint

namespace Expr

/-- The expression that decides a condition. -/
def decider : Expr → Expr
  | .unary _ .not operand => operand.decider
  | .logical _ .and _ right | .logical _ .or _ right => right.decider
  | e => e

/-- The expression is no negation and no `&&` or `||`. -/
def isDecider : Expr → Bool
  | .unary _ .not _ | .logical _ .and _ _ | .logical _ .or _ _ => false
  | _ => true

/-- The verdict on the deciding expression is swapped. -/
def swaps (negated : Bool) : Expr → Bool
  | .unary _ .not operand => operand.swaps (!negated)
  | .logical _ .and _ right | .logical _ .or _ right => right.swaps false
  | _ => negated

theorem isDecider_of_plain {e : Expr}
    (notNegation : ∀ node operand, e = .unary node .not operand → False)
    (notAnd : ∀ node left right, e = .logical node .and left right → False)
    (notOr : ∀ node left right, e = .logical node .or left right → False) :
    e.isDecider = true := by
  unfold isDecider
  split
  · exact (notNegation _ _ rfl).elim
  · exact (notAnd _ _ _ rfl).elim
  · exact (notOr _ _ _ rfl).elim
  · rfl

theorem decider_of_isDecider {e : Expr} (plain : e.isDecider = true) : e.decider = e := by
  unfold decider
  split <;> simp_all [isDecider]

theorem swaps_of_isDecider {e : Expr} (plain : e.isDecider = true) (negated : Bool) :
    e.swaps negated = negated := by
  unfold swaps
  split <;> simp_all [isDecider]

end Expr

theorem Table.truthVerdict?_cases {t : Table} {type : TypeId} {verdict : Verdict}
    (fixed : t.truthVerdict? type = some verdict) :
    verdict = .never ∨ verdict = .alwaysFalsy ∨ verdict = .alwaysTruthy := by
  unfold truthVerdict? at fixed
  split at fixed
  · exact .inl (Option.some.inj fixed).symm
  · split at fixed
    · exact .inr (.inl (Option.some.inj fixed).symm)
    · split at fixed
      · exact .inr (.inr (Option.some.inj fixed).symm)
      · cases fixed

namespace Program

/-- Judging a condition is judging its deciding expression. -/
theorem judgeConditionUnder_eq (p : Program) (negated : Bool) (e : Expr) :
    p.judgeConditionUnder negated e =
      if p.readsElement e.decider then .doubtful (.missingElement e.decider.span)
      else p.judgeTruth e.decider (e.swaps negated) := by
  fun_induction judgeConditionUnder p negated e with
  | case1 negated _ operand ih => exact ih
  | case2 _ _ _ right ih => exact ih
  | case3 _ _ _ right ih => exact ih
  | case4 negated e notNegation notAnd notOr reads =>
      have plain := Expr.isDecider_of_plain notNegation notAnd notOr
      rw [Expr.decider_of_isDecider plain, if_pos reads]
  | case5 negated e notNegation notAnd notOr stays =>
      have plain := Expr.isDecider_of_plain notNegation notAnd notOr
      rw [Expr.decider_of_isDecider plain, Expr.swaps_of_isDecider plain, if_neg stays]

theorem judgeTruth_finding?_eq_some_iff {p : Program} {e : Expr} {negated : Bool} {f : Finding} :
    (p.judgeTruth e negated).finding? = some f ↔
      ∃ type verdict, p.constrainedType? e = some type ∧ p.table.isIndeterminate type = false ∧
        p.table.truthVerdict? type = some verdict ∧
        f = ⟨if negated then verdict.negate else verdict, e.span, some type⟩ := by
  unfold judgeTruth
  cases typed : p.constrainedType? e with
  | none => simp [Judgement.silent, Judgement.finding?]
  | some type =>
      cases undecidable : p.table.isIndeterminate type with
      | true => simp [undecidable, Judgement.doubtful, Judgement.finding?]
      | false =>
          cases fixed : p.table.truthVerdict? type <;>
            simp [undecidable, fixed, Judgement.silent, Judgement.finding?, @eq_comm _ f]

/-- A condition is decided exactly if the type of its deciding expression fixes a verdict, and the
expression reads no element. -/
theorem judgeCondition_finding?_eq_some_iff {p : Program} {e : Expr} {f : Finding} :
    (p.judgeCondition e).finding? = some f ↔
      p.readsElement e.decider = false ∧
        (p.judgeTruth e.decider (e.swaps false)).finding? = some f := by
  rw [judgeCondition, judgeConditionUnder_eq]
  cases reads : p.readsElement e.decider <;> simp [Judgement.doubtful, Judgement.finding?]

theorem verdict_of_judgeCondition {p : Program} {e : Expr} {f : Finding}
    (found : (p.judgeCondition e).finding? = some f) :
    f.verdict = .never ∨ f.verdict = .alwaysFalsy ∨ f.verdict = .alwaysTruthy := by
  obtain ⟨_, found⟩ := judgeCondition_finding?_eq_some_iff.mp found
  obtain ⟨type, verdict, _, _, fixed, rfl⟩ := judgeTruth_finding?_eq_some_iff.mp found
  rcases Table.truthVerdict?_cases fixed with rfl | rfl | rfl <;> cases e.swaps false <;>
    simp [Verdict.negate]

end Program

end ConditionLint
