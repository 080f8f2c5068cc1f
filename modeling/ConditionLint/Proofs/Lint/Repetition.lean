import ConditionLint.Proofs.Lint.Outcome
import ConditionLint.Proofs.Sites.Findings
import ConditionLint.Proofs.Table.Regular
import Mathlib.Data.List.Nodup
import Mathlib.Data.List.Pairwise

/-!
# No site is judged twice

In a tree whose expressions have different spans, no expression is the subject of two sites, and
no two diagnostics of a completed run agree in span and message unless they are about optional
steps. A chain may have the span of what it wraps, because nothing that a chain wraps is judged.
-/

set_option autoImplicit false

namespace ConditionLint

/-- The first expression is a chain around the second, at any depth. -/
inductive Expr.Wraps : Expr → Expr → Prop where
  | direct {node : Node} {inner : Expr} : Wraps (.chain node inner) inner
  | deep {node : Node} {middle inner : Expr} :
      Wraps middle inner → Wraps (.chain node middle) inner

private theorem Expr.Wraps.ne {outer inner : Expr} (wraps : outer.Wraps inner) : outer ≠ inner := by
  have smaller : sizeOf inner < sizeOf outer := by
    induction wraps with
    | direct =>
        rw [Expr.chain.sizeOf_spec]
        omega
    | deep _ ih =>
        rw [Expr.chain.sizeOf_spec]
        omega
  rintro rfl
  omega

/-- Two expressions have the same span only if one is a chain around the other. -/
def SyntaxTree.DistinctSpans (tree : SyntaxTree) : Prop :=
  tree.expressions.Pairwise fun outer inner => outer.span = inner.span → outer.Wraps inner

/-- The node of a comparison among expressions. -/
def Expr.comparison? : Expr → Option Node
  | .binary node _ _ _ => some node
  | _ => none

/-- Two sites are not about the same span in the same way. -/
structure Site.Apart (p : Program) (first second : Site) : Prop where
  subjects : ∀ {e e' : Expr}, first.subject? p = some e → second.subject? p = some e' →
    e.span ≠ e'.span
  comparisons : ∀ {node node' : Node}, first.comparison? = some node →
    second.comparison? = some node' → node.span ≠ node'.span

namespace SyntaxTree

variable {tree : SyntaxTree} {p : Program}

/-- The expressions that chains of a tree wrap. -/
def wrapped (tree : SyntaxTree) : List Expr :=
  tree.expressions.filterMap Expr.wrapped?

def subjects (tree : SyntaxTree) (p : Program) : List Expr :=
  tree.sites.filterMap (Site.subject? p)

theorem claimsIn_eq (visits : List Visit) :
    claimsIn p visits =
      ((visits.flatMap Visit.sites).filterMap (Site.subject? p) ++
        (visits.filterMap Visit.expression?).filterMap Expr.wrapped? : List Expr) := by
  rw [List.filterMap_flatMap, List.filterMap_filterMap, List.filterMap_eq_flatMap_toList]
  exact (Multiset.coe_eq_coe.mpr (List.flatMap_append_perm visits _ _)).symm

/-- Subjects and wrapped expressions are different occurrences of expressions. -/
theorem subjects_append_wrapped_subperm (tree : SyntaxTree) (p : Program) :
    (tree.subjects p ++ tree.wrapped).Subperm tree.expressions := by
  have below : claimsIn p tree.visits ≤ expressionsIn tree.visits :=
    claimsIn_cons_le [] rfl rfl (by simpa using claimsOfStmts_le p tree.statements)
  rw [claimsIn_eq] at below
  exact Multiset.coe_le.mp below

/-!
## Different spans
-/

theorem nodup_expressions (distinct : tree.DistinctSpans) : tree.expressions.Nodup := by
  refine distinct.imp ?_
  rintro outer _ wraps rfl
  exact (wraps rfl).ne rfl

/-- What is wrapped at any depth by a chain of the tree is wrapped by one directly. -/
private theorem mem_wrapped {outer inner : Expr} (member : outer ∈ tree.expressions)
    (wraps : outer.Wraps inner) : inner ∈ tree.wrapped := by
  induction wraps with
  | direct => exact List.mem_filterMap.mpr ⟨_, member, rfl⟩
  | deep _ ih =>
      apply ih
      have middle : _ ∈ tree.wrapped := List.mem_filterMap.mpr ⟨_, member, rfl⟩
      exact (subjects_append_wrapped_subperm tree .empty).subset
        (List.mem_append_right _ middle)

private theorem wraps_of_span_eq (distinct : tree.DistinctSpans) {first second : Expr}
    (memberFirst : first ∈ tree.expressions) (memberSecond : second ∈ tree.expressions)
    (different : first ≠ second) (same : first.span = second.span) :
    first.Wraps second ∨ second.Wraps first := by
  have : Std.Symm fun first second : Expr =>
      first.span = second.span → first.Wraps second ∨ second.Wraps first :=
    ⟨fun _ _ wraps same => (wraps same.symm).symm⟩
  have either : tree.expressions.Pairwise fun first second =>
      first.span = second.span → first.Wraps second ∨ second.Wraps first :=
    distinct.imp fun wraps same => .inl (wraps same)
  exact either.forall memberFirst memberSecond different same

theorem nodup_subjects_append_wrapped (distinct : tree.DistinctSpans) :
    (tree.subjects p ++ tree.wrapped).Nodup := by
  obtain ⟨claims, same, sublist⟩ := subjects_append_wrapped_subperm tree p
  exact same.nodup_iff.mp ((nodup_expressions distinct).sublist sublist)

/-- Different subjects have different spans. -/
theorem nodup_spans_subjects (distinct : tree.DistinctSpans) :
    ((tree.subjects p).map Expr.span).Nodup := by
  have unique := nodup_subjects_append_wrapped (p := p) distinct
  have included : ∀ e ∈ tree.subjects p, e ∈ tree.expressions := fun e member =>
    (subjects_append_wrapped_subperm tree p).subset (List.mem_append_left _ member)
  refine unique.of_append_left.map_on fun first memberFirst second memberSecond same => ?_
  by_contra different
  -- One of the two would be wrapped, and no wrapped expression is a subject.
  rcases wraps_of_span_eq distinct (included first memberFirst) (included second memberSecond)
    different same with wraps | wraps
  · exact unique.disjoint memberSecond (mem_wrapped (included first memberFirst) wraps)
  · exact unique.disjoint memberFirst (mem_wrapped (included second memberSecond) wraps)

theorem comparisons_eq (tree : SyntaxTree) :
    tree.sites.filterMap Site.comparison? = tree.expressions.filterMap Expr.comparison? := by
  have ofVisit : ∀ visit : Visit, visit.sites.filterMap Site.comparison? =
      (visit.expression?.bind Expr.comparison?).toList := by
    intro visit
    cases visit with
    | expression e =>
        cases e with
        | logical _ operator | assignment _ operator => cases operator <;> rfl
        | _ => rfl
    | statement s =>
        cases s with
        | forLoop _ test => cases test <;> rfl
        | _ => rfl
    | _ => rfl
  calc tree.sites.filterMap Site.comparison?
      = tree.visits.flatMap fun visit => visit.sites.filterMap Site.comparison? :=
        List.filterMap_flatMap
    _ = tree.visits.flatMap fun visit => (visit.expression?.bind Expr.comparison?).toList := by
        simp only [ofVisit]
    _ = (tree.visits.filterMap Visit.expression?).filterMap Expr.comparison? := by
        rw [List.filterMap_filterMap, List.filterMap_eq_flatMap_toList]

/-- Different comparisons have different spans, since no comparison wraps another expression. -/
private theorem comparisons_pairwise (distinct : tree.DistinctSpans) :
    (tree.sites.filterMap Site.comparison?).Pairwise fun first second =>
      first.span ≠ second.span := by
  rw [comparisons_eq, List.pairwise_filterMap]
  refine distinct.imp ?_
  intro outer inner wraps first isFirst second isSecond same
  have spans : ∀ {e : Expr} {node : Node}, e.comparison? = some node → e.span = node.span := by
    intro e node isNode
    cases e with
    | binary => cases isNode; rfl
    | _ => cases isNode
  have wrapped := wraps ((spans isFirst).trans (same.trans (spans isSecond).symm))
  cases wrapped <;> cases isFirst

/-- Two sites of a tree are never about the same span in the same way. -/
private theorem sites_pairwise (distinct : tree.DistinctSpans) :
    tree.sites.Pairwise (Site.Apart p) := by
  have subjects := nodup_spans_subjects (p := p) distinct
  have comparisons := comparisons_pairwise distinct
  rw [List.Nodup, List.pairwise_map, SyntaxTree.subjects, List.pairwise_filterMap] at subjects
  rw [List.pairwise_filterMap] at comparisons
  refine (subjects.and comparisons).imp ?_
  rintro first second ⟨subjects, comparisons⟩
  exact ⟨fun one other => subjects _ one _ other, fun one other => comparisons _ one _ other⟩

end SyntaxTree

/-!
## Diagnostics
-/

namespace Lint

variable {options : Options} {p : Program} {tokens : TokenStream} {tree : SyntaxTree}

private theorem found_of_findingAt? {site : Site} {f : Finding}
    (found : findingAt? options p tokens site = some f) : FoundAt p site f := by
  unfold findingAt? at found
  split at found
  · rename_i judgement _ judged
    exact Program.judge_found judged found
  · cases found

/-- The two findings agree in span and message only if both are about optional steps. -/
def Finding.Differ (first second : Finding) : Prop :=
  first.span = second.span → first.verdict.message = second.verdict.message →
    first.verdict.isStep = true ∧ second.verdict.isStep = true

theorem findings_differ {one other : Site} (apart : one.Apart p other) {first second : Finding}
    (foundFirst : FoundAt p one first) (foundSecond : FoundAt p other second) :
    Finding.Differ first second := by
  intro sameSpan sameMessage
  rcases Verdict.eq_or_isStep_of_message_eq sameMessage with sameVerdict | steps
  · have sameStep := congrArg Verdict.isStep sameVerdict
    have sameComparison := congrArg Verdict.isComparison sameVerdict
    cases foundFirst with
    | step isStep => exact ⟨isStep, sameStep.symm.trans isStep⟩
    | comparison isNode span isComparison =>
        cases foundSecond with
        | step isStep => exact ⟨sameStep.trans isStep, isStep⟩
        | comparison isNode' span' _ =>
            exact absurd (span.symm.trans (sameSpan.trans span')) (apart.comparisons isNode isNode')
        | subject _ about =>
            rw [isComparison, about.noComparison] at sameComparison
            cases sameComparison
    | subject isSubject about =>
        cases foundSecond with
        | step isStep => exact ⟨sameStep.trans isStep, isStep⟩
        | comparison _ _ isComparison =>
            rw [isComparison, about.noComparison] at sameComparison
            cases sameComparison
        | subject isSubject' about' =>
            exact absurd (about.span.symm.trans (sameSpan.trans about'.span))
              (apart.subjects isSubject isSubject')
  · exact steps

private theorem findings_pairwise (distinct : tree.DistinctSpans) :
    (tree.sites.filterMap (findingAt? options p tokens)).Pairwise Finding.Differ := by
  rw [List.pairwise_filterMap]
  refine (SyntaxTree.sites_pairwise (p := p) distinct).imp ?_
  intro one other apart first foundFirst second foundSecond
  exact findings_differ apart (found_of_findingAt? foundFirst) (found_of_findingAt? foundSecond)

/-- The two diagnostics agree in span and message only if both are about optional steps, which
alone have a fix. -/
def Diagnostic.Differ (first second : Diagnostic) : Prop :=
  first.span = second.span → first.message = second.message →
    first.isFixable = true ∧ second.isFixable = true

private theorem isFixable_ofFinding (table : Table) (f : Finding) :
    (Diagnostic.ofFinding table f).isFixable = f.verdict.isStep := by
  obtain ⟨verdict, span, type⟩ := f
  cases verdict <;> rfl

theorem Finding.Differ.ofFinding {first second : Finding} (differ : Finding.Differ first second)
    (table : Table) :
    Diagnostic.Differ (.ofFinding table first) (.ofFinding table second) := by
  intro sameSpan sameMessage
  rw [isFixable_ofFinding, isFixable_ofFinding]
  exact differ sameSpan sameMessage

theorem fileDiagnostics_differ {d : Diagnostic} (file : d ∈ fileDiagnostics options p)
    (table : Table) (f : Finding) : Diagnostic.Differ d (.ofFinding table f) := by
  intro _ sameMessage
  unfold fileDiagnostics at file
  split at file
  · cases file
  · cases List.mem_singleton.mp file
    exact absurd sameMessage.symm f.verdict.message_ne_looseNullChecksMessage

private theorem fileDiagnostics_pairwise :
    (fileDiagnostics options p).Pairwise Diagnostic.Differ := by
  unfold fileDiagnostics
  split
  · exact .nil
  · exact List.pairwise_singleton _ _

private theorem Config.relabel_pairwise {c : Config} {ds : List Diagnostic}
    (differ : ds.Pairwise Diagnostic.Differ) : (c.relabel ds).Pairwise Diagnostic.Differ := by
  refine List.Pairwise.filter _ (List.pairwise_map.mpr (differ.imp ?_))
  intro first second differ
  exact differ

/-- The expressions that a run judges, in the order of the walk: the subjects of the sites that
the options do not exempt. -/
def judged (options : Options) (p : Program) (tree : SyntaxTree) : List Expr :=
  (tree.sites.filter fun site => (exemption? options p site).isNone).filterMap (Site.subject? p)

theorem judged_sublist : (judged options p tree).Sublist (tree.subjects p) :=
  List.filter_sublist.filterMap _

end Lint

open Lint in
/-- A completed run judges different occurrences of expressions, which all have different spans,
and no two of its diagnostics agree in span and message unless both are about optional steps. -/
theorem lint_judges_once {c : Config} {file : SourceFile} {p : Program} {ds : List Diagnostic}
    (distinct : file.tree.DistinctSpans) (completed : (c.lint file p).outcome = .ok ds) :
    (judged c.options p file.tree).Subperm file.tree.expressions ∧
      (judged c.options p file.tree).Nodup ∧
      ((judged c.options p file.tree).map Expr.span).Nodup ∧
      ds.Pairwise Diagnostic.Differ := by
  have sublist : (judged c.options p file.tree).Sublist (file.tree.subjects p) := judged_sublist
  have spans : ((judged c.options p file.tree).map Expr.span).Nodup :=
    (SyntaxTree.nodup_spans_subjects distinct).sublist (sublist.map _)
  have below := (List.sublist_append_left _ _).subperm.trans
    (SyntaxTree.subjects_append_wrapped_subperm file.tree p)
  refine ⟨sublist.subperm.trans below, spans.of_map _, spans, ?_⟩
  unfold Config.lint at completed
  split at completed
  · cases completed
    exact .nil
  · cases outcome : (trailOfTree c.options p file.tokens file.tree).outcome with
    | error fault => simp [Trail.map, outcome, Except.map] at completed
    | ok findings =>
        simp only [Trail.map, outcome, Except.map, Except.ok.injEq] at completed
        subst completed
        have differ : findings.Pairwise Finding.Differ := by
          rw [(trailOfTree_outcome.mp outcome).2]
          exact findings_pairwise distinct
        refine Config.relabel_pairwise (List.pairwise_append.mpr ⟨fileDiagnostics_pairwise, ?_, ?_⟩)
        · exact List.pairwise_map.mpr (differ.imp fun each => each.ofFinding p.table)
        · intro d isFile other isFinding
          obtain ⟨f, _, rfl⟩ := List.mem_map.mp isFinding
          exact fileDiagnostics_differ isFile p.table f

namespace Guarded

/-!
The statement `if (o?.p && q);`, where the name `q` has the type `true` and nothing else has a
type. The chain has the span of the step that it wraps.
-/

def base : Expr :=
  .identifier ⟨⟨⟨0⟩, ⟨4, 5, 1, 5⟩⟩, "o"⟩

def step : Expr :=
  .member ⟨⟨1⟩, ⟨4, 8, 1, 5⟩⟩ base (.named ⟨⟨⟨2⟩, ⟨7, 8, 1, 8⟩⟩, "p"⟩) true

def guard : Expr :=
  .chain ⟨⟨3⟩, ⟨4, 8, 1, 5⟩⟩ step

def flag : Expr :=
  .identifier ⟨⟨⟨4⟩, ⟨12, 13, 1, 13⟩⟩, "q"⟩

def test : Expr :=
  .logical ⟨⟨5⟩, ⟨4, 13, 1, 5⟩⟩ .and guard flag

def file : SourceFile where
  path := "guarded.ts"
  source := "if (o?.p && q);"
  tree := ⟨[.ifElse test (.empty ⟨14, 15, 1, 15⟩) none ⟨0, 15, 1, 1⟩], ⟨0, 15, 1, 1⟩⟩
  tokens := .ofList []

def program : Program :=
  Program.record ⟨.ofList wellKnown, ∅, true⟩ flag.id .true

def finding : Finding :=
  ⟨.alwaysTruthy, flag.span, some .true⟩

private theorem distinctSpans_tree : file.tree.DistinctSpans := by
  have expressions : file.tree.expressions = [test, guard, step, base, flag] := rfl
  rw [SyntaxTree.DistinctSpans, expressions]
  simp [test, guard, step, base, flag, Expr.span, Expr.node, Expr.Wraps.direct]

private theorem constrainedType?_flag : program.constrainedType? flag = some .true := by
  have typed : program.typeOf? flag.id = some .true := by
    simp [program, Program.typeOf?, Program.record]
  rw [Program.constrainedType?, typed]
  decide +kernel

private theorem constrainedType?_of_ne {e : Expr} (other : flag.id ≠ e.id) :
    program.constrainedType? e = none := by
  have untyped : program.typeOf? e.id = none := by
    simp [program, Program.typeOf?, Program.record, other]
  rw [Program.constrainedType?, untyped]
  rfl

private theorem judgeCondition_test : program.judgeCondition test = .decided finding := by
  have decides : program.judgeCondition test = program.judgeTruth flag false := rfl
  have decidable : program.table.isIndeterminate .true = false := by decide +kernel
  have fixed : program.table.truthVerdict? .true = some .alwaysTruthy := by decide +kernel
  rw [decides, Program.judgeTruth, constrainedType?_flag]
  simp [decidable, fixed, finding]

private theorem judgeCondition_guard : program.judgeCondition guard = .silent := by
  have decides : program.judgeCondition guard = program.judgeTruth guard false := rfl
  rw [decides, Program.judgeTruth, constrainedType?_of_ne (by decide)]

private theorem judgeStep_step :
    program.judgeStep file.tokens step = .ok (.doubtful (.untypedBase base.span)) := by
  have optional : step.optionalStep? = some (base, ".") := rfl
  have stays : program.passesElement step = false := rfl
  have untyped : program.constrainedType? base = none := constrainedType?_of_ne (by decide)
  simp [Program.judgeStep, optional, stays, untyped]

private theorem lint_outcome :
    (Lint.Config.default.lint file program).outcome =
      .ok [Lint.Diagnostic.ofFinding program.table finding] := by
  have sites : file.tree.sites = [.condition test, .condition guard, .step step] := rfl
  have outcome :
      (Lint.trailOfTree .default program file.tokens file.tree).outcome = .ok [finding] := by
    rw [Lint.trailOfTree_outcome, sites]
    simp [Lint.faultAt?, Lint.findingAt?, Lint.exemption?, Program.judge, judgeCondition_test,
      judgeCondition_guard, judgeStep_step, Judgement.finding?, Judgement.silent,
      Judgement.doubtful]
  have enabled : Lint.Config.default.isDisabled Lint.fixedConditionRule.name = false := rfl
  have options : Lint.Config.default.options = .default := rfl
  rw [Lint.Config.lint, enabled, options]
  simp only [Lint.Trail.map, outcome]
  rfl

end Guarded

theorem guarded_judged_once :
    Lint.judged .default Guarded.program Guarded.file.tree = [Guarded.flag, Guarded.guard] ∧
      ([Guarded.flag, Guarded.guard].map Expr.span).Nodup ∧
      [Lint.Diagnostic.ofFinding Guarded.program.table Guarded.finding].Pairwise
        Lint.Diagnostic.Differ := by
  obtain ⟨_, _, spans, differ⟩ :=
    lint_judges_once Guarded.distinctSpans_tree Guarded.lint_outcome
  exact ⟨rfl, spans, differ⟩

end ConditionLint
