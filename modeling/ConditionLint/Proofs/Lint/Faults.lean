import ConditionLint.Proofs.Chains.Element
import ConditionLint.Proofs.Lint.FlaggedSteps
import ConditionLint.Proofs.Lint.Nodes
import ConditionLint.Proofs.Tokens.Search

/-!
# Faults of runs

A run is ended by an optional step that is to be reported but has no `?.` token, and by nothing
else: types and places may be anything, and nodes may have no type. The first such step in the
order of the walk is the one that is told.
-/

set_option autoImplicit false

namespace ConditionLint

/-- The optional step can take no effect, and no `?.` token starts behind its base. -/
structure Expr.LacksOperator (p : Program) (tokens : TokenStream) (step base : Expr) : Prop where
  optional : step.step? = some (base, true)
  whole : ¬ step.BreaksOff p
  redundant : ∃ type, p.constrainedType? base = some type ∧ p.isOptionable base type = false
  unspelled : ∀ token ∈ tokens.toList, token.isPunctuator "?." = true →
    token.span.start < base.span.stop

variable {p : Program} {tokens : TokenStream} {fault : MissingOperator}

theorem TokenStream.tokenAfter?_eq_none_iff {offset : Nat} {condition : Token → Bool} :
    tokens.tokenAfter? offset condition = none ↔
      ∀ token ∈ tokens.toList, condition token = true → token.span.start < offset := by
  rw [tokenAfter?_eq_find?, List.find?_eq_none]
  simp only [Bool.and_eq_true, decide_eq_true_eq, not_and']
  exact forall₂_congr fun token _ => imp_congr_right fun _ => Nat.not_le

/-!
## Steps and sites
-/

theorem Expr.step?_eq_optional_iff {e base : Expr} :
    e.step? = some (base, true) ↔ ∃ replacement, e.optionalStep? = some (base, replacement) := by
  cases e with
  | member node object key optional =>
      cases key <;> cases optional <;> simp [step?, optionalStep?]
  | call node callee arguments optional =>
      cases optional <;> simp [step?, optionalStep?]
  | _ => simp [step?, optionalStep?]

theorem Program.judgeStep_eq_error_iff {e : Expr} :
    p.judgeStep tokens e = .error fault ↔
      ∃ base, e.LacksOperator p tokens base ∧ fault = ⟨base.span⟩ := by
  rw [judgeStep_eq_iff (by simp)]
  constructor
  · rintro ⟨base, replacement, type, optional, passes, typed, optionable, faulted⟩
    obtain ⟨unspelled, rfl⟩ := judgeRedundantStep_eq_error_iff.mp faulted
    refine ⟨base, ⟨?_, ?_, ⟨type, typed, optionable⟩, ?_⟩, rfl⟩
    · exact Expr.step?_eq_optional_iff.mpr ⟨replacement, optional⟩
    · rw [← passesElement_iff, passes]
      exact Bool.false_ne_true
    · exact TokenStream.tokenAfter?_eq_none_iff.mp unspelled
  · rintro ⟨base, lacks, rfl⟩
    obtain ⟨replacement, optional⟩ := Expr.step?_eq_optional_iff.mp lacks.optional
    obtain ⟨type, typed, optionable⟩ := lacks.redundant
    have passes : p.passesElement e = false :=
      Bool.eq_false_iff.mpr (mt passesElement_iff.mp lacks.whole)
    have unspelled := TokenStream.tokenAfter?_eq_none_iff.mpr lacks.unspelled
    exact ⟨base, replacement, type, optional, passes, typed, optionable,
      judgeRedundantStep_eq_error_iff.mpr ⟨unspelled, rfl⟩⟩

/-- The sites of an expression are judged without fault, up to the one where it is a step. -/
private theorem Expr.sites_eq_of_step? {e base : Expr} {optional : Bool}
    (step : e.step? = some (base, optional)) :
    ∃ calls, e.sites = calls ++ [.step e] ∧
      ∀ site ∈ calls, ∃ callee arguments, site = .predicateCall callee arguments := by
  cases e with
  | member => exact ⟨[], rfl, by simp⟩
  | call node callee arguments optional =>
      exact ⟨[.predicateCall callee arguments], rfl, by simp⟩
  | _ => cases step

private theorem TreeNode.eq_of_step_mem {node : TreeNode} {e : Expr}
    (member : Site.step e ∈ node.visit.sites) : node = .expression e := by
  cases node with
  | statement s =>
      cases s with
      | forLoop init test update body span =>
          cases test <;> simp [visit, Visit.sites, Stmt.sites, Stmt.loopTest?] at member
      | _ => simp [visit, Visit.sites, Stmt.sites, Stmt.loopTest?] at member
  | expression other =>
      cases other with
      | logical node operator =>
          cases operator <;> simp [visit, Visit.sites, Expr.sites] at member
      | assignment node operator =>
          cases operator <;> simp [visit, Visit.sites, Expr.sites] at member
      | member | call =>
          simp only [visit, Visit.sites, Expr.sites, List.mem_cons, List.not_mem_nil, or_false,
            false_or, reduceCtorEq, Site.step.injEq] at member
          rw [member]
      | _ => simp [visit, Visit.sites, Expr.sites] at member

namespace Lint

variable {options : Options}

theorem checkSite_eq_error_iff {site : Site} :
    checkSite options p tokens site = .error fault ↔
      ∃ e base, site = .step e ∧ e.LacksOperator p tokens base ∧ fault = ⟨base.span⟩ := by
  cases site with
  | step e =>
      have judged : checkSite options p tokens (.step e) = .error fault ↔
          p.judgeStep tokens e = .error fault := by
        simp only [checkSite, exemption?, Program.judge]
        cases p.judgeStep tokens e <;> simp [Except.map]
      rw [judged, Program.judgeStep_eq_error_iff]
      constructor
      · rintro ⟨base, lacks, rfl⟩
        exact ⟨e, base, rfl, lacks, rfl⟩
      · rintro ⟨other, base, same, lacks, rfl⟩
        cases same
        exact ⟨base, lacks, rfl⟩
  | _ =>
      constructor
      · intro checked
        unfold checkSite at checked
        split at checked <;> cases checked
      · rintro ⟨e, base, same, _⟩
        cases same

theorem checkNode_eq_error_iff {node : TreeNode} :
    checkNode options p tokens node = .error fault ↔
      ∃ e base, node = .expression e ∧ e.LacksOperator p tokens base ∧ fault = ⟨base.span⟩ := by
  rw [checkNode_eq, collect_eq_error_iff]
  constructor
  · rintro ⟨before, site, after, split, _, isFault⟩
    obtain ⟨e, base, rfl, lacks, rfl⟩ := checkSite_eq_error_iff.mp isFault
    have member : Site.step e ∈ node.visit.sites := by simp [split]
    exact ⟨e, base, TreeNode.eq_of_step_mem member, lacks, rfl⟩
  · rintro ⟨e, base, rfl, lacks, rfl⟩
    -- a call is checked for a callback before it is checked as a step, and that raises nothing
    obtain ⟨calls, split, harmless⟩ := Expr.sites_eq_of_step? lacks.optional
    refine ⟨calls, .step e, [], split, fun site member => ?_,
      checkSite_eq_error_iff.mpr ⟨e, base, rfl, lacks, rfl⟩⟩
    obtain ⟨callee, arguments, rfl⟩ := harmless site member
    exact ⟨_, rfl⟩

theorem exists_checkNode_eq_ok_iff {node : TreeNode} :
    (∃ found, checkNode options p tokens node = .ok found) ↔
      ∀ e base, node = .expression e → ¬ e.LacksOperator p tokens base := by
  cases checked : checkNode options p tokens node with
  | error fault =>
      obtain ⟨e, base, isStep, lacks, _⟩ := checkNode_eq_error_iff.mp checked
      refine iff_of_false ?_ fun intact => intact e base isStep lacks
      rintro ⟨found, impossible⟩
      cases impossible
  | ok found =>
      refine iff_of_true ⟨found, rfl⟩ fun e base isStep lacks => ?_
      cases checked.symm.trans (checkNode_eq_error_iff.mpr ⟨e, base, isStep, lacks, rfl⟩)

/-- A run ends with the first step that lacks its operator. -/
theorem Config.outcome_lint_eq_error_iff (c : Config) (file : SourceFile) (p : Program) :
    (c.lint file p).outcome = .error fault ↔
      c.isDisabled fixedConditionRule.name = false ∧
        ∃ before step base after, file.tree.nodes = before ++ .expression step :: after ∧
          (∀ earlier other, .expression earlier ∈ before →
            ¬ earlier.LacksOperator p file.tokens other) ∧
          step.LacksOperator p file.tokens base ∧ fault = ⟨base.span⟩ := by
  rw [outcome_lint]
  cases disabled : c.isDisabled fixedConditionRule.name with
  | true => simp
  | false =>
      have mapped (form : List Diagnostic → List Diagnostic)
          (result : Except MissingOperator (List Diagnostic)) :
          result.map form = .error fault ↔ result = .error fault := by
        cases result <;> simp [Except.map]
      simp only [Bool.false_eq_true, if_false, true_and]
      rw [mapped, collect_eq_error_iff]
      constructor
      · rintro ⟨before, node, after, split, intact, isFault⟩
        obtain ⟨step, base, rfl, lacks, rfl⟩ := checkNode_eq_error_iff.mp isFault
        refine ⟨before, step, base, after, split, fun earlier other member => ?_, lacks, rfl⟩
        exact exists_checkNode_eq_ok_iff.mp (intact _ member) earlier other rfl
      · rintro ⟨before, step, base, after, split, intact, lacks, rfl⟩
        refine ⟨before, .expression step, after, split, fun node member => ?_,
          checkNode_eq_error_iff.mpr ⟨step, base, rfl, lacks, rfl⟩⟩
        refine exists_checkNode_eq_ok_iff.mpr ?_
        rintro earlier other rfl
        exact intact earlier other member

theorem Config.exists_outcome_lint_eq_error_iff (c : Config) (file : SourceFile) (p : Program) :
    (∃ fault, (c.lint file p).outcome = .error fault) ↔
      c.isDisabled fixedConditionRule.name = false ∧
        ∃ step base, .expression step ∈ file.tree.nodes ∧
          step.LacksOperator p file.tokens base := by
  constructor
  · rintro ⟨fault, ended⟩
    obtain ⟨enabled, before, step, base, after, split, _, lacks, _⟩ :=
      (c.outcome_lint_eq_error_iff file p).mp ended
    exact ⟨enabled, step, base, by simp [split], lacks⟩
  · rintro ⟨enabled, step, base, member, lacks⟩
    rw [outcome_lint, enabled]
    cases collected : collect (checkNode c.options p file.tokens) file.tree.nodes with
    | error fault => exact ⟨fault, rfl⟩
    | ok found =>
        have intact := exists_checkNode_eq_ok_iff.mp (exists_eq_ok_of_collect collected _ member)
        exact absurd lacks (intact step base rfl)

end Lint

open Lint

/-- A run ends with a fault exactly if the rule is in force and some step lacks its operator. The
fault tells the place of the base of the first such step. -/
theorem lint_faults_at_first_unspelled (c : Config) (file : SourceFile) (p : Program) :
    (∀ fault, (c.lint file p).outcome = .error fault ↔
      c.isDisabled fixedConditionRule.name = false ∧
        ∃ before step base after, file.tree.nodes = before ++ .expression step :: after ∧
          (∀ earlier other, .expression earlier ∈ before →
            ¬ earlier.LacksOperator p file.tokens other) ∧
          step.LacksOperator p file.tokens base ∧ fault = ⟨base.span⟩ ∧
          fault.message = "missing `?.` token after the optional chain base at " ++
            (toString base.span.line ++ ":" ++ toString base.span.column)) ∧
      ((∃ fault, (c.lint file p).outcome = .error fault) ↔
        c.isDisabled fixedConditionRule.name = false ∧
          ∃ step base, .expression step ∈ file.tree.nodes ∧
            step.LacksOperator p file.tokens base) ∧
      ((∀ step base, .expression step ∈ file.tree.nodes → step.step? = some (base, true) →
          ∃ token ∈ file.tokens.toList, token.isPunctuator "?." = true ∧
            base.span.stop ≤ token.span.start) →
        ∃ ds, (c.lint file p).outcome = .ok ds) := by
  refine ⟨fun fault => ?_, c.exists_outcome_lint_eq_error_iff file p, fun spelled => ?_⟩
  · rw [c.outcome_lint_eq_error_iff file p]
    constructor
    · rintro ⟨enabled, before, step, base, after, split, intact, lacks, rfl⟩
      exact ⟨enabled, before, step, base, after, split, intact, lacks, rfl, rfl⟩
    · rintro ⟨enabled, before, step, base, after, split, intact, lacks, isFault, _⟩
      exact ⟨enabled, before, step, base, after, split, intact, lacks, isFault⟩
  · cases ended : (c.lint file p).outcome with
    | ok ds => exact ⟨ds, rfl⟩
    | error fault =>
        obtain ⟨_, step, base, member, lacks⟩ :=
          (c.exists_outcome_lint_eq_error_iff file p).mp ⟨fault, ended⟩
        obtain ⟨token, included, punctuator, behind⟩ := spelled step base member lacks.optional
        exact absurd (lacks.unspelled token included punctuator) (Nat.not_lt.mpr behind)

/-- The chain `o?.p?.[0]` without tokens. -/
def Twice.untokenized : SourceFile :=
  { Twice.file with tokens := .ofList [] }

theorem untokenized_faults :
    ∃ fault, (Config.default.lint Twice.untokenized Twice.program).outcome = .error fault ∧
      fault.message = "missing `?.` token after the optional chain base at 1:1" := by
  have whole : ¬ Twice.outer.BreaksOff Twice.program := by
    rw [← Program.passesElement_iff]
    exact Bool.false_ne_true
  have lacks : Twice.outer.LacksOperator Twice.program Twice.untokenized.tokens Twice.inner :=
    ⟨rfl, whole, ⟨.object, Twice.constrainedType?_inner, Twice.isOptionable_object _⟩,
      fun token member => by
        simp [Twice.untokenized, TokenStream.ofList, TokenStream.toList] at member⟩
  have first : ∃ before after, Twice.untokenized.tree.nodes =
      before ++ .expression Twice.outer :: after ∧ ∀ earlier other,
        .expression earlier ∈ before →
          ¬ earlier.LacksOperator Twice.program Twice.untokenized.tokens other :=
    ⟨[.statement (.expression Twice.outer ⟨0, 10, 1, 1⟩)], _, rfl, by simp⟩
  obtain ⟨before, after, split, intact⟩ := first
  refine ⟨⟨Twice.inner.span⟩, ?_, by decide +kernel⟩
  exact ((lint_faults_at_first_unspelled _ _ _).1 _).mpr
    ⟨rfl, before, Twice.outer, Twice.inner, after, split, intact, lacks, rfl, rfl⟩

end ConditionLint
