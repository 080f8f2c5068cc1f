import ConditionLint.Analysis.Site
import ConditionLint.Proofs.Sites.Decider
import ConditionLint.Proofs.TypedSource.Loading
import ConditionLint.Proofs.Syntax.Renaming
import ConditionLint.Proofs.Table.Embedding

/-!
# Renamed sites

A program whose types and nodes have other ids is judged the same: the judgement of a renamed site
is the renamed judgement. Only the types that judgements show differ, by their ids.
-/

set_option autoImplicit false

namespace ConditionLint

def Finding.rename (f : TypeId → TypeId) (finding : Finding) : Finding :=
  { finding with type := finding.type.map f }

def Doubt.rename (f : TypeId → TypeId) : Doubt → Doubt
  | .openCondition condition type => .openCondition condition (f type)
  | doubt => doubt

def Judgement.rename (f : TypeId → TypeId) : Judgement → Judgement
  | .decided finding => .decided (finding.rename f)
  | .undecided doubt => .undecided (doubt.map (Doubt.rename f))

def Site.rename (g : NodeId → NodeId) : Site → Site
  | .condition test => .condition (test.rename g)
  | .loopCondition test => .loopCondition (test.rename g)
  | .nullish operand => .nullish (operand.rename g)
  | .comparison node operator left right =>
    .comparison (node.rename g) operator (left.rename g) (right.rename g)
  | .predicateCall callee arguments =>
    .predicateCall (callee.rename g) (renameExprs g arguments)
  | .step e => .step (e.rename g)

/-- The second program knows what the first one knows, its types and nodes renamed. -/
structure Program.Renames (f : TypeId → TypeId) (g : NodeId → NodeId) (p q : Program) : Prop where
  consistent : p.Consistent
  embeds : p.table.Embeds f q.table
  strictNullChecks : q.strictNullChecks = p.strictNullChecks
  recorded : ∀ node, q.typeOf? (g node) = (p.typeOf? node).map f

variable {f : TypeId → TypeId} {g : NodeId → NodeId} {p q : Program} {type : TypeId}

/-!
## Shapes of expressions
-/

theorem Expr.isLiteral_rename (e : Expr) : (e.rename g).isLiteral = e.isLiteral := by
  cases e <;> rfl

theorem Expr.isIdentifier_rename (e : Expr) : (e.rename g).isIdentifier = e.isIdentifier := by
  cases e <;> rfl

theorem Expr.isNonNull_rename (e : Expr) : (e.rename g).isNonNull = e.isNonNull := by
  cases e <;> rfl

theorem MemberKey.spelledName?_rename (key : MemberKey) :
    (key.rename g).spelledName? = key.spelledName? := by
  cases key with
  | named name => rfl
  | computed key =>
      cases key with
      | literal node value => cases value <;> rfl
      | _ => rfl

theorem Expr.isDecider_rename (e : Expr) : (e.rename g).isDecider = e.isDecider := by
  cases e with
  | unary node operator operand => cases operator <;> rfl
  | logical node operator left right => cases operator <;> rfl
  | _ => rfl

theorem Expr.decider_rename (e : Expr) : (e.rename g).decider = e.decider.rename g := by
  fun_induction decider e with
  | case1 _ _ ih | case2 _ _ _ ih | case3 _ _ _ ih => exact ih
  | case4 e notNegation notAnd notOr =>
      have plain := isDecider_of_plain notNegation notAnd notOr
      exact decider_of_isDecider (e.isDecider_rename.trans plain)

theorem Expr.swaps_rename (e : Expr) (negated : Bool) :
    (e.rename g).swaps negated = e.swaps negated := by
  fun_induction swaps negated e with
  | case1 _ _ _ ih | case2 _ _ _ _ ih | case3 _ _ _ _ ih => exact ih
  | case4 negated e notNegation notAnd notOr =>
      have plain := isDecider_of_plain notNegation notAnd notOr
      exact swaps_of_isDecider (e.isDecider_rename.trans plain) negated

theorem FunctionExpr.returned?_rename (definition : FunctionExpr) :
    (definition.rename g).returned? = definition.returned?.map (Expr.rename g) := by
  rcases definition with ⟨params, ⟨value⟩ | ⟨statements, span⟩, isArrow⟩
  · rfl
  · rcases statements with _ | ⟨s, rest⟩
    · rfl
    · cases s with
      | returning value span => cases value <;> cases rest <;> rfl
      | _ => cases rest <;> rfl

theorem Expr.inlineResult?_rename (e : Expr) :
    (e.rename g).inlineResult? = e.inlineResult?.map (Expr.rename g) := by
  cases e with
  | function node definition => exact definition.returned?_rename
  | _ => rfl

theorem Expr.optionalStep?_rename (e : Expr) :
    (e.rename g).optionalStep? =
      e.optionalStep?.map fun step => (step.1.rename g, step.2) := by
  cases e with
  | member node object key optional => cases key <;> cases optional <;> rfl
  | call node callee arguments optional => cases optional <;> rfl
  | _ => rfl

namespace Program.Renames

theorem constrainedType? (renames : Renames f g p q) (e : Expr) :
    q.constrainedType? (e.rename g) = (p.constrainedType? e).map f := by
  rw [Program.constrainedType?, Program.constrainedType?, Expr.id_rename, renames.recorded]
  cases typed : p.typeOf? e.id with
  | none => rfl
  | some type =>
      exact congrArg some (renames.embeds.constrained (renames.consistent.recorded typed))

/-- The constrained type of a renamed expression, with what is known about the original. -/
theorem typed (renames : Renames f g p q) (e : Expr) :
    (p.constrainedType? e = none ∧ q.constrainedType? (e.rename g) = none) ∨
      ∃ type, p.constrainedType? e = some type ∧ p.table.contains type = true ∧
        q.constrainedType? (e.rename g) = some (f type) := by
  have renamed := renames.constrainedType? e
  cases typed : p.constrainedType? e with
  | none => exact .inl ⟨rfl, by rw [renamed, typed]; rfl⟩
  | some type =>
      refine .inr ⟨type, rfl, ?_, by rw [renamed, typed]; rfl⟩
      exact renames.consistent.contains_constrainedType? typed

theorem any_constrainedType? (renames : Renames f g p q) {question : Table → TypeId → Bool}
    (keeps : Table.Keeps f p.table q.table question) (e : Expr) :
    (q.constrainedType? (e.rename g)).any (question q.table) =
      (p.constrainedType? e).any (question p.table) := by
  rcases renames.typed e with ⟨before, after⟩ | ⟨type, before, contained, after⟩
  · rw [before, after]
    rfl
  · rw [before, after]
    exact keeps type contained

theorem isConstantTrue (renames : Renames f g p q) (e : Expr) :
    q.isConstantTrue (e.rename g) = p.isConstantTrue e :=
  renames.any_constrainedType? renames.embeds.isTrueLiteral e

/-!
## Elements
-/

theorem readsElement (renames : Renames f g p q) (e : Expr) :
    q.readsElement (e.rename g) = p.readsElement e := by
  cases e with
  | member node object key optional =>
      cases key with
      | named name => rfl
      | computed key =>
          simp only [Expr.rename, MemberKey.rename, Program.readsElement, Expr.isLiteral_rename]
          rcases renames.typed object with ⟨before, after⟩ | ⟨type, before, contained, after⟩
          · rw [before, after]
          · rw [before, after]
            have array := renames.embeds.constrainedUnionParts.any renames.embeds.isArray
            have tuple := renames.embeds.constrainedUnionParts.any renames.embeds.isTuple
            exact congrArg₂ (fun array tuple => array || (!key.isLiteral && tuple))
              (array type contained) (tuple type contained)
  | _ => rfl

theorem passesElement (renames : Renames f g p q) : (e : Expr) →
    q.passesElement (e.rename g) = p.passesElement e
  | .member _ base _ optional | .call _ base _ optional =>
      congrArg₂ (fun reads passes => (optional && reads) || passes)
        (renames.readsElement base) (renames.passesElement base)
  | .identifier _ | .literal _ _ | .unary _ _ _ | .binary _ _ _ _ | .logical _ _ _ _
  | .assignment _ _ _ _ | .conditional _ _ _ _ | .chain _ _ | .nonNull _ _ | .function _ _
  | .other _ _ => rfl

/-!
## Nullability
-/

theorem declaresNullish? (renames : Renames f g p q) (contained : p.table.contains type = true)
    (key : MemberKey) :
    q.declaresNullish? (f type) (key.rename g) = p.declaresNullish? type key := by
  have parts := renames.embeds.unionParts
  cases key with
  | named name =>
      exact congrArg some (parts.any (renames.embeds.nameMayBeNullish name.name) type contained)
  | computed key =>
      simp only [MemberKey.rename, Program.declaresNullish?, Expr.isIdentifier_rename]
      rcases renames.typed key with ⟨before, after⟩ | ⟨keyType, before, keyContained, after⟩
      · rw [before, after]
        rfl
      · have answers : (q.table.unionParts (f type)).any
              (q.table.someKeyMayBeNullish · (f keyType)) =
            (p.table.unionParts type).any (p.table.someKeyMayBeNullish · keyType) := by
          rw [parts.map type contained]
          exact Table.any_map_of_agree fun part included =>
            renames.embeds.someKeyMayBeNullish (parts.inside type contained part included)
              keyContained
        rw [before, after, Option.map_some, Option.map_some, answers]

theorem inheritsFromObject (renames : Renames f g p q) (object : Expr) (key : MemberKey) :
    q.inheritsFromObject (object.rename g) (key.rename g) = p.inheritsFromObject object key := by
  unfold Program.inheritsFromObject
  rcases renames.typed object with ⟨before, after⟩ | ⟨type, before, contained, after⟩
  · rw [before, after]
  · rw [before, after]
    simp only [renames.embeds.isUnion type contained, renames.declaresNullish? contained,
      renames.embeds.isNullable type contained]

theorem returnsNullish (renames : Renames f g p q) (contained : p.table.contains type = true) :
    q.returnsNullish (f type) = p.returnsNullish type := by
  have parts := renames.embeds.unionParts
  have inside {part : TypeId} (included : part ∈ p.table.unionParts type) :
      p.table.contains part = true := parts.inside type contained part included
  have signatures : (q.table.unionParts (f type)).flatMap q.table.callSignatures =
      ((p.table.unionParts type).flatMap p.table.callSignatures).map (Signature.rename f) := by
    rw [parts.map type contained, List.flatMap_map, List.map_flatMap]
    exact List.flatMap_congr fun part included => renames.embeds.callSignatures (inside included)
  rw [Program.returnsNullish, Program.returnsNullish, signatures]
  refine Table.any_map_of_agree fun signature included => ?_
  obtain ⟨part, member, listed⟩ := List.mem_flatMap.mp included
  exact renames.embeds.isNullable _
    (renames.embeds.source.contains_returnType (inside member) listed)

theorem inheritsFromCallee (renames : Renames f g p q) (callee : Expr) :
    q.inheritsFromCallee (callee.rename g) = p.inheritsFromCallee callee := by
  unfold Program.inheritsFromCallee
  rcases renames.typed callee with ⟨before, after⟩ | ⟨type, before, contained, after⟩
  · rw [before, after]
  · rw [before, after]
    simp only [renames.embeds.isUnion type contained, renames.returnsNullish contained,
      renames.embeds.isNullable type contained]

theorem isOwnNullability (renames : Renames f g p q) (e : Expr) :
    q.isOwnNullability (e.rename g) = p.isOwnNullability e := by
  cases e with
  | member node object key optional => exact congrArg (!·) (renames.inheritsFromObject object key)
  | call node callee arguments optional => exact congrArg (!·) (renames.inheritsFromCallee callee)
  | _ => rfl

theorem isOptionable (renames : Renames f g p q) (base : Expr)
    (contained : p.table.contains type = true) :
    q.isOptionable (base.rename g) (f type) = p.isOptionable base type := by
  simp only [Program.isOptionable, renames.isOwnNullability,
    renames.embeds.hasKind contained, renames.embeds.isNullable type contained]

theorem mayBeMissing (renames : Renames f g p q) (e : Expr) :
    q.mayBeMissing (e.rename g) = p.mayBeMissing e := by
  unfold Program.mayBeMissing
  rw [renames.readsElement]
  cases e with
  | chain node inner =>
      simp only [Expr.rename, Expr.isNonNull_rename, renames.passesElement]
  | member node object key optional =>
      exact congrArg (_ || ·) (renames.inheritsFromObject object key)
  | _ => rfl

/-!
## Judgements
-/

theorem judgeTruth (renames : Renames f g p q) (e : Expr) (negated : Bool) :
    q.judgeTruth (e.rename g) negated = (p.judgeTruth e negated).rename f := by
  unfold Program.judgeTruth
  rcases renames.typed e with ⟨before, after⟩ | ⟨type, before, contained, after⟩
  · rw [before, after]
    rfl
  · rw [before, after]
    simp only [renames.embeds.isIndeterminate type contained,
      renames.embeds.truthVerdict? type contained, Expr.span_rename]
    cases p.table.isIndeterminate type with
    | true => rfl
    | false => cases p.table.truthVerdict? type <;> rfl

theorem judgeCondition (renames : Renames f g p q) (e : Expr) :
    q.judgeCondition (e.rename g) = (p.judgeCondition e).rename f := by
  rw [Program.judgeCondition, Program.judgeCondition, judgeConditionUnder_eq,
    judgeConditionUnder_eq, Expr.decider_rename, Expr.swaps_rename, renames.readsElement,
    renames.judgeTruth, Expr.span_rename]
  cases p.readsElement e.decider <;> rfl

theorem judgeNullish (renames : Renames f g p q) (e : Expr) :
    q.judgeNullish (e.rename g) = (p.judgeNullish e).rename f := by
  unfold Program.judgeNullish
  rcases renames.typed e with ⟨before, after⟩ | ⟨type, before, contained, after⟩
  · rw [before, after]
    rfl
  · rw [before, after]
    simp only [renames.embeds.isIndeterminate type contained, renames.embeds.isNever type contained,
      renames.embeds.isPossiblyNullish type contained, renames.mayBeMissing,
      renames.embeds.isAlwaysNullish type contained, Expr.span_rename]
    split_ifs <;> rfl

theorem judgeComparison (renames : Renames f g p q) (node : Node) (operator : BinaryOperator)
    (left right : Expr) :
    q.judgeComparison (node.rename g) operator (left.rename g) (right.rename g) =
      (p.judgeComparison node operator left right).rename f := by
  have verdict {one other : TypeId} (contained : p.table.contains one = true)
      (otherContained : p.table.contains other = true) :
      q.comparisonVerdict? operator (f one) (f other) =
        p.comparisonVerdict? operator one other := by
    rw [Program.comparisonVerdict?, Program.comparisonVerdict?, renames.strictNullChecks,
      renames.embeds.isBareLiteral one contained,
      renames.embeds.isBareLiteral other otherContained,
      renames.embeds.cannotOverlap contained otherContained]
  unfold Program.judgeComparison
  cases operator.isComparison with
  | false => rfl
  | true =>
      rcases renames.typed left with ⟨before, after⟩ | ⟨type, before, contained, after⟩
      · rw [before, after]
        rfl
      · rw [before, after]
        rcases renames.typed right with ⟨before, after⟩ | ⟨other, before, otherContained, after⟩
        · rw [before, after]
          rfl
        · rw [before, after]
          simp only [verdict contained otherContained]
          cases p.comparisonVerdict? operator type other <;> rfl

theorem isPredicateMethod (renames : Renames f g p q) (callee : Expr) :
    q.isPredicateMethod (callee.rename g) = p.isPredicateMethod callee := by
  cases callee with
  | member node object key optional =>
      simp only [Expr.rename, Program.isPredicateMethod, MemberKey.spelledName?_rename]
      exact congrArg (_ && ·) (renames.any_constrainedType? renames.embeds.mayBeList object)
  | _ => rfl

theorem judgeSignatures (renames : Renames f g p q) (callback : Expr) :
    q.judgeSignatures (callback.rename g) = (p.judgeSignatures callback).rename f := by
  unfold Program.judgeSignatures
  rcases renames.typed callback with ⟨before, after⟩ | ⟨type, before, contained, after⟩
  · rw [before, after]
    rfl
  · rw [before, after]
    simp only [renames.embeds.callSignatures contained, Expr.span_rename]
    cases listed : p.table.callSignatures type with
    | nil => rfl
    | cons signature rest =>
        have returned : ((signature :: rest).map (Signature.rename f)).map Signature.returnType =
            ((signature :: rest).map Signature.returnType).map f := by
          rw [List.map_map, List.map_map]
          rfl
        have inside : ∀ target ∈ (signature :: rest).map Signature.returnType,
            p.table.contains target = true := by
          intro target included
          obtain ⟨one, member, rfl⟩ := List.mem_map.mp included
          exact renames.embeds.source.contains_returnType contained (listed ▸ member)
        have verdict := renames.embeds.callbackVerdict? inside
        rw [← returned] at verdict
        simp only [List.map_cons] at verdict ⊢
        rw [verdict]
        split <;> rfl

theorem judgeCallback (renames : Renames f g p q) (callback : Expr) :
    q.judgeCallback (callback.rename g) = (p.judgeCallback callback).rename f := by
  rw [Program.judgeCallback, Program.judgeCallback, Expr.inlineResult?_rename]
  cases callback.inlineResult? with
  | none => exact renames.judgeSignatures callback
  | some result => exact renames.judgeCondition result

theorem judgePredicateCall (renames : Renames f g p q) (callee : Expr) (arguments : List Expr) :
    q.judgePredicateCall (callee.rename g) (renameExprs g arguments) =
      (p.judgePredicateCall callee arguments).rename f := by
  unfold Program.judgePredicateCall
  rw [renames.isPredicateMethod]
  cases p.isPredicateMethod callee with
  | false => rfl
  | true =>
      cases arguments with
      | nil => rfl
      | cons callback rest => exact renames.judgeCallback callback

theorem judgeStep (renames : Renames f g p q) (tokens : TokenStream) (e : Expr) :
    q.judgeStep tokens (e.rename g) = (p.judgeStep tokens e).map (Judgement.rename f) := by
  unfold Program.judgeStep
  rw [Expr.optionalStep?_rename]
  cases e.optionalStep? with
  | none => rfl
  | some step =>
      obtain ⟨base, replacement⟩ := step
      simp only [Option.map_some, renames.passesElement, Expr.span_rename]
      cases p.passesElement e with
      | true => rfl
      | false =>
          rcases renames.typed base with ⟨before, after⟩ | ⟨type, before, contained, after⟩
          · rw [before, after]
            rfl
          · rw [before, after]
            simp only [renames.isOptionable base contained]
            cases p.isOptionable base type with
            | true => rfl
            | false =>
                simp only [judgeRedundantStep, Expr.span_rename]
                cases tokens.tokenAfter? base.span.stop (·.isPunctuator "?.") <;> rfl

/-- The judgement of a renamed site is the renamed judgement. -/
theorem judge (renames : Renames f g p q) (tokens : TokenStream) (site : Site) :
    q.judge tokens (site.rename g) = (p.judge tokens site).map (Judgement.rename f) := by
  cases site with
  | condition test | loopCondition test => exact congrArg Except.ok (renames.judgeCondition test)
  | nullish operand => exact congrArg Except.ok (renames.judgeNullish operand)
  | comparison node operator left right =>
      exact congrArg Except.ok (renames.judgeComparison node operator left right)
  | predicateCall callee arguments =>
      exact congrArg Except.ok (renames.judgePredicateCall callee arguments)
  | step e => exact renames.judgeStep tokens e

end Program.Renames

end ConditionLint
