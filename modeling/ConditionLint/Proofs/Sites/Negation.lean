import ConditionLint.Proofs.Sites.Undecidable
import ConditionLint.Proofs.Table.Builders

/-!
# Negated conditions

A negation is judged by the same expression as its operand, with the same type. The verdict is
swapped if what stands under the negations is judged as it is. It is not swapped if that is an `&&`
or `||`, whose right operand is judged without regard to the negations before it.
-/

set_option autoImplicit false

namespace ConditionLint

theorem Verdict.negate_negate (verdict : Verdict) : verdict.negate.negate = verdict := by
  cases verdict <;> rfl

def Finding.negate (f : Finding) : Finding :=
  { f with verdict := f.verdict.negate }

theorem Finding.negate_eq_self_iff {f : Finding} : f.negate = f ↔ f.verdict.negate = f.verdict :=
  ⟨congrArg Finding.verdict, fun same => congrArg (Finding.mk · f.span f.type) same⟩

/-- What stands under the negations is an `&&` or `||`. -/
def Expr.combines : Expr → Bool
  | .unary _ .not operand => operand.combines
  | .logical _ .and _ _ | .logical _ .or _ _ => true
  | _ => false

/-- One more negation swaps the verdict, but an `&&` or `||` forgets the negations before it. -/
theorem Expr.swaps_not (e : Expr) (negated : Bool) :
    e.swaps (!negated) = if e.combines then e.swaps negated else !e.swaps negated := by
  fun_induction combines e generalizing negated with
  | case1 _ operand ih => exact ih (!negated)
  | case2 | case3 => rfl
  | case4 e notNegation notAnd notOr =>
      have plain := isDecider_of_plain notNegation notAnd notOr
      rw [swaps_of_isDecider plain, swaps_of_isDecider plain]
      rfl

namespace Program

variable {p : Program} {e : Expr} {f : Finding}

theorem judgeTruth_not (p : Program) (e : Expr) (negated : Bool) :
    (p.judgeTruth e (!negated)).finding? =
      (p.judgeTruth e negated).finding?.map Finding.negate := by
  unfold judgeTruth
  cases p.constrainedType? e with
  | none => rfl
  | some type =>
      cases undecidable : p.table.isIndeterminate type with
      | true => simp [undecidable, Judgement.doubtful, Judgement.finding?]
      | false =>
          cases fixed : p.table.truthVerdict? type with
          | none => simp [undecidable, fixed, Judgement.silent, Judgement.finding?]
          | some verdict =>
              cases negated <;>
                simp [undecidable, fixed, Judgement.finding?, Finding.negate, Verdict.negate_negate]

theorem judgeConditionUnder_not (p : Program) (e : Expr) (negated : Bool) :
    (p.judgeConditionUnder (!negated) e).finding? =
      (p.judgeConditionUnder negated e).finding?.map
        fun f => if e.combines then f else f.negate := by
  rw [judgeConditionUnder_eq, judgeConditionUnder_eq, Expr.swaps_not]
  cases p.readsElement e.decider with
  | true => rfl
  | false =>
      cases e.combines with
      | true => exact Option.map_id'.symm
      | false => exact judgeTruth_not p e.decider (e.swaps negated)

private theorem negate_eq_self_iff_of_found (found : (p.judgeCondition e).finding? = some f) :
    f.negate = f ↔ f.verdict = .never := by
  rw [Finding.negate_eq_self_iff]
  rcases verdict_of_judgeCondition found with same | same | same <;> rw [same] <;> decide

end Program

/-- The finding on a negation is that on its operand with the opposite verdict, unless the operand
is an `&&` or `||` under any negations; then it is the same finding. So the verdict is swapped,
unless it is "always truthy" or "always falsy" on the right operand of an `&&` or `||`. -/
theorem judgeCondition_not (p : Program) (node : Node) (e : Expr) :
    (p.judgeCondition (.unary node .not e)).finding? =
        (p.judgeCondition e).finding?.map (fun f => if e.combines then f else f.negate) ∧
      ((p.judgeCondition (.unary node .not e)).finding? =
          (p.judgeCondition e).finding?.map Finding.negate ↔
        e.combines = false ∨
          ∀ f, (p.judgeCondition e).finding? = some f → f.verdict = .never) := by
  have negated : (p.judgeCondition (.unary node .not e)).finding? =
      (p.judgeCondition e).finding?.map (fun f => if e.combines then f else f.negate) :=
    p.judgeConditionUnder_not e false
  refine ⟨negated, ?_⟩
  rw [negated]
  cases combined : e.combines with
  | false => simp
  | true =>
      cases found : (p.judgeCondition e).finding? with
      | none => simp
      | some f =>
          have same := Program.negate_eq_self_iff_of_found found
          simp [same, @eq_comm _ f]

namespace Guard

/-!
The condition `!(a && b)`, where `b` is an object.
-/

def left : Expr :=
  .identifier ⟨⟨⟨0⟩, ⟨6, 7, 1, 7⟩⟩, "a"⟩

def right : Expr :=
  .identifier ⟨⟨⟨1⟩, ⟨11, 12, 1, 12⟩⟩, "b"⟩

def both : Expr :=
  .logical ⟨⟨2⟩, ⟨6, 12, 1, 7⟩⟩ .and left right

def negation : Expr :=
  .unary ⟨⟨3⟩, ⟨4, 13, 1, 5⟩⟩ .not both

def program : Program :=
  Program.record ⟨.ofList wellKnown, ∅, true⟩ right.id .object

private theorem accepted : Table.ofDescriptors? wellKnown = .ok program.table :=
  Table.ofDescriptors?_eq_ok_iff.mpr ⟨List.prefix_refl _, by decide, rfl⟩

private theorem judgeCondition_both :
    (program.judgeCondition both).finding? = some ⟨.alwaysTruthy, right.span, some .object⟩ := by
  have recorded : program.typeOf? right.id = some .object := by simp [program]
  have typed : program.constrainedType? right = some .object := by
    rw [Program.constrainedType?_of_typeOf? recorded]
    decide
  rw [Program.judgeCondition_finding?_eq_some_iff, Program.judgeTruth_finding?_eq_some_iff]
  exact ⟨rfl, .object, .alwaysTruthy, typed, by decide, by decide, rfl⟩

end Guard

/-- Both `a && b` and its negation are found to be always truthy. -/
theorem not_forall_negation_swaps :
    ¬ ∀ (ds : List Descriptor) (p : Program) (node : Node) (e : Expr),
      Table.ofDescriptors? ds = .ok p.table →
      (p.judgeCondition (.unary node .not e)).finding? =
        (p.judgeCondition e).finding?.map Finding.negate := by
  intro swapped
  have same : (Guard.program.judgeCondition Guard.negation).finding? =
      (Guard.program.judgeCondition Guard.both).finding?.map id :=
    Guard.program.judgeConditionUnder_not Guard.both false
  have opposite := swapped _ _ Guard.negation.node Guard.both Guard.accepted
  rw [Guard.judgeCondition_both] at same opposite
  cases same.symm.trans opposite

end ConditionLint
