import ConditionLint.Proofs.Lint.Nodes
import ConditionLint.Proofs.Sites.NullChecks
import ConditionLint.Proofs.Table.Regular
import Mathlib.Tactic.Choose

/-!
# Runs under a configuration

A configuration makes no diagnostics of its own but the one about the file. It leaves out those of
the default run that a switch is about, and sets the severity of the others.
-/

set_option autoImplicit false

namespace ConditionLint

variable {p : Program} {tokens : TokenStream} {strict : Bool}

/-- The statement is a loop whose condition has the type `true`. -/
def TreeNode.isConstantLoop (p : Program) : TreeNode → Bool
  | .statement s => s.loopTest?.any p.isConstantTrue
  | .expression _ => false

namespace Lint

variable {options : Options}

def Config.severity (c : Config) : Severity :=
  c.severityOf fixedConditionRule.name fixedConditionRule.severity

def Diagnostic.withSeverity (severity : Severity) (d : Diagnostic) : Diagnostic :=
  { d with severity := severity }

/-- The diagnostic is not about types without overlap, or null checks are strict. -/
def Diagnostic.outlasts (strict : Bool) (d : Diagnostic) : Bool :=
  strict || d.message != Verdict.noOverlap.message

/-!
## Severities
-/

theorem Config.isDisabled_iff (c : Config) :
    c.isDisabled fixedConditionRule.name = true ↔ c.severity = .off := by
  rw [isDisabled, severity, severityOf]
  cases c.overrides.lookup fixedConditionRule.name with
  | none => decide
  | some inForce => simp

/-- The diagnostic is made by the rule. -/
structure Diagnostic.IsOfRule (d : Diagnostic) : Prop where
  rule : d.rule = fixedConditionRule.name
  severity : d.severity = fixedConditionRule.severity

private theorem Diagnostic.isOfRule_looseNullChecks : looseNullChecks.IsOfRule := ⟨rfl, rfl⟩

theorem Diagnostic.isOfRule_ofFinding (table : Table) (f : Finding) :
    (ofFinding table f).IsOfRule := ⟨rfl, rfl⟩

theorem Config.relabel_eq (c : Config) {ds : List Diagnostic} (made : ∀ d ∈ ds, d.IsOfRule)
    (active : c.severity ≠ .off) :
    c.relabel ds = ds.map (Diagnostic.withSeverity c.severity) := by
  have labels : ds.map (fun d => { d with severity := c.severityOf d.rule d.severity }) =
      ds.map (Diagnostic.withSeverity c.severity) := by
    refine List.map_congr_left fun d member => ?_
    have inForce : c.severityOf d.rule d.severity = c.severity := by
      rw [(made d member).rule, (made d member).severity, severity]
    rw [inForce, Diagnostic.withSeverity]
  rw [relabel, labels, List.filter_eq_self]
  intro d member
  obtain ⟨other, _, rfl⟩ := List.mem_map.mp member
  simpa [Diagnostic.withSeverity] using active

private theorem withSeverity_of_isOfRule {d : Diagnostic} (made : d.IsOfRule) :
    d.withSeverity fixedConditionRule.severity = d := by
  rw [← made.severity]
  rfl

/-!
## Sites
-/

private theorem loopCondition_not_mem_sites (e : Expr) (test : Expr) :
    Site.loopCondition test ∉ e.sites := by
  cases e with
  | logical node operator left right => cases operator <;> simp [Expr.sites]
  | assignment node operator left right => cases operator <;> simp [Expr.sites]
  | _ => simp [Expr.sites]

private theorem isSome_exemption? {node : TreeNode} {site : Site}
    (member : site ∈ node.visit.sites) :
    (exemption? options p site).isSome =
      (options.allowConstantLoops && node.isConstantLoop p) := by
  cases node with
  | expression e =>
      rw [TreeNode.isConstantLoop, Bool.and_false]
      cases site with
      | loopCondition test => exact absurd member (loopCondition_not_mem_sites e test)
      | _ => rfl
  | statement s =>
      have loop {test : Expr} (isTest : s.loopTest? = some test) :
          (exemption? options p (.loopCondition test)).isSome =
            (options.allowConstantLoops && (TreeNode.statement s).isConstantLoop p) := by
        rw [TreeNode.isConstantLoop, isTest, Option.any_some, exemption?]
        cases options.allowConstantLoops && p.isConstantTrue test <;> rfl
      cases s with
      | ifElse condition thenBranch elseBranch span =>
          cases List.mem_singleton.mp member
          exact (Bool.and_false _).symm
      | whileLoop condition body span | doWhileLoop body condition span =>
          cases List.mem_singleton.mp member
          exact loop rfl
      | forLoop init test update body span =>
          cases test with
          | none => cases member
          | some test =>
              cases List.mem_singleton.mp member
              exact loop rfl
      | _ => cases member

theorem Diagnostic.outlasts_ofFinding (table : Table) (f : Finding) :
    (ofFinding table f).outlasts strict = (strict || f.verdict != .noOverlap) := by
  have same : f.verdict.message = Verdict.noOverlap.message ↔ f.verdict = .noOverlap := by
    constructor
    · intro message
      rcases Verdict.eq_or_isStep_of_message_eq message with verdict | ⟨_, impossible⟩
      · exact verdict
      · cases impossible
    · rintro verdict
      rw [verdict]
  have differs : (f.verdict.message != Verdict.noOverlap.message) =
      (f.verdict != .noOverlap) := by
    rw [Bool.eq_iff_iff, bne_iff_ne, bne_iff_ne]
    exact not_congr same
  exact congrArg (strict || ·) differs

private theorem exemption?_default (site : Site) : exemption? .default p site = none := by
  cases site <;> rfl

theorem checkSite_configured (enabled : p.strictNullChecks = true) (site : Site) :
    checkSite options (p.withNullChecks strict) tokens site =
      (checkSite .default p tokens site).map (List.filter fun d =>
        !(exemption? options p site).isSome && d.outlasts strict) := by
  have general : exemption? options (p.withNullChecks strict) site = exemption? options p site := by
    cases site <;> rfl
  rw [checkSite, checkSite, general, exemption?_default]
  cases exempt : exemption? options p site with
  | some span =>
      cases site with
      | loopCondition test => simp [Program.judge, Except.map]
      | _ => cases exempt
  | none =>
      let shown (found : Option Finding) : List Diagnostic :=
        (found.map (Diagnostic.ofFinding p.table)).toList
      have filtered (found : Option Finding) :
          shown (found.filter fun f => strict || f.verdict != .noOverlap) =
            (shown found).filter (·.outlasts strict) := by
        cases found with
        | none => rfl
        | some f =>
            have same : (Diagnostic.ofFinding p.table f).outlasts strict =
                (strict || f.verdict != .noOverlap) := Diagnostic.outlasts_ofFinding p.table f
            cases kept : strict || f.verdict != .noOverlap <;>
              simp [shown, Option.filter, kept, same]
      calc
        ((p.withNullChecks strict).judge tokens site).map (reports p.table)
          = (((p.withNullChecks strict).judge tokens site).map Judgement.finding?).map shown :=
            (map_map _ Judgement.finding? shown).symm
        _ = (p.judge tokens site).map fun judgement =>
              shown (judgement.finding?.filter fun f => strict || f.verdict != .noOverlap) := by
            rw [Program.judge_finding?_withNullChecks enabled, map_map]
        _ = ((p.judge tokens site).map (reports p.table)).map
              (List.filter (·.outlasts strict)) := by
            simp only [filtered, map_map]
            rfl

/-!
## Nodes
-/

theorem checkNode_configured (enabled : p.strictNullChecks = true) (node : TreeNode) :
    checkNode options (p.withNullChecks strict) tokens node =
      (checkNode .default p tokens node).map (List.filter fun d =>
        !(options.allowConstantLoops && node.isConstantLoop p) && d.outlasts strict) := by
  rw [checkNode_eq, checkNode_eq,
    collect_map_of_append _ List.filter_nil (fun _ _ => List.filter_append ..)]
  refine collect_congr fun site member => ?_
  rw [checkSite_configured enabled, isSome_exemption? member]

theorem isOfRule_of_checkNode {node : TreeNode} {ds : List Diagnostic}
    (checked : checkNode options p tokens node = .ok ds) : ∀ d ∈ ds, d.IsOfRule := by
  unfold checkNode at checked
  cases outcome : (trailOfVisit options p tokens node.visit).outcome with
  | error fault =>
      rw [outcome] at checked
      cases checked
  | ok findings =>
      rw [outcome] at checked
      cases checked
      intro d member
      obtain ⟨f, _, rfl⟩ := List.mem_map.mp member
      exact Diagnostic.isOfRule_ofFinding p.table f

private theorem fileDiagnostics_isOfRule : ∀ d ∈ fileDiagnostics options p, d.IsOfRule := by
  intro d member
  unfold fileDiagnostics at member
  split at member
  · cases member
  · obtain rfl := List.mem_singleton.mp member
    exact Diagnostic.isOfRule_looseNullChecks

/-- A run without fault reports what its nodes come to, at the severity in force. -/
theorem Config.outcome_lint_eq_ok {c : Config} {file : SourceFile}
    {found : TreeNode → List Diagnostic}
    (each : ∀ node ∈ file.tree.nodes, checkNode c.options p file.tokens node = .ok (found node)) :
    (c.lint file p).outcome = .ok
      (if c.severity = .off then []
      else
        List.map (Diagnostic.withSeverity c.severity)
          (fileDiagnostics c.options p ++ file.tree.nodes.flatMap found)) := by
  rw [outcome_lint]
  by_cases off : c.severity = .off
  · rw [if_pos (c.isDisabled_iff.mpr off), if_pos off]
  · rw [if_neg (mt c.isDisabled_iff.mp off), if_neg off, collect_eq_ok each]
    refine congrArg Except.ok (c.relabel_eq (fun d member => ?_) off)
    rcases List.mem_append.mp member with general | ofNode
    · exact fileDiagnostics_isOfRule d general
    · obtain ⟨node, inTree, ofNode⟩ := List.mem_flatMap.mp ofNode
      exact isOfRule_of_checkNode (each node inTree) d ofNode

private theorem Config.lookup_setSeverity_of_ne {rule other : String} (differs : other ≠ rule)
    (c : Config)
    (severity : Severity) :
    (c.setSeverity rule severity).overrides.lookup other = c.overrides.lookup other := by
  rw [setSeverity, List.lookup_cons, beq_false_of_ne differs]

/-- The severity of another rule changes nothing. -/
theorem Config.lint_setSeverity_of_ne {rule : String} (other : rule ≠ fixedConditionRule.name)
    (c : Config) (severity : Severity) (file : SourceFile) (p : Program) :
    (c.setSeverity rule severity).lint file p = c.lint file p := by
  have sameLookup := c.lookup_setSeverity_of_ne other.symm severity
  have sameSwitch : (c.setSeverity rule severity).isDisabled fixedConditionRule.name =
      c.isDisabled fixedConditionRule.name := by
    rw [isDisabled, isDisabled, sameLookup]
  have sameLabels {ds : List Diagnostic} (made : ∀ d ∈ ds, d.IsOfRule) :
      (c.setSeverity rule severity).relabel ds = c.relabel ds := by
    refine congrArg (List.filter _) (List.map_congr_left fun d member => ?_)
    rw [severityOf, severityOf, (made d member).rule, sameLookup]
  rw [lint, lint, sameSwitch]
  refine if_congr Iff.rfl rfl (congrArg (Trail.map · _) (funext fun findings => ?_))
  refine sameLabels fun d member => ?_
  rcases List.mem_append.mp member with general | found
  · exact fileDiagnostics_isOfRule d general
  · obtain ⟨f, _, rfl⟩ := List.mem_map.mp found
    exact Diagnostic.isOfRule_ofFinding p.table f

end Lint

open Lint

/-- The default run under strict null checks decides what any other run reports: nothing where the
rule is off, else the diagnostic about the file where it applies, and then node by node the same
diagnostics at the severity in force, without those that a switch leaves out. -/
theorem lint_filters_default_run {file : SourceFile} {p : Program} {reported : List Diagnostic}
    (enabled : p.strictNullChecks = true)
    (completed : (Config.default.lint file p).outcome = .ok reported) :
    ∃ found : TreeNode → List Diagnostic,
      (∀ node ∈ file.tree.nodes, checkNode .default p file.tokens node = .ok (found node)) ∧
      reported = file.tree.nodes.flatMap found ∧
      (∀ (c : Config) (strict : Bool),
        (c.lint file (p.withNullChecks strict)).outcome = .ok
          (if c.severity = .off then []
          else
            List.map (Diagnostic.withSeverity c.severity)
              ((if strict || c.options.allowLooseNullChecks then []
                else [Diagnostic.looseNullChecks]) ++
                file.tree.nodes.flatMap fun node =>
                  if c.options.allowConstantLoops && node.isConstantLoop p then []
                  else (found node).filter (Diagnostic.outlasts strict)))) ∧
      ∀ (c : Config) (q : Program) (rule : String) (severity : Severity),
        rule ≠ fixedConditionRule.name →
          (c.setSeverity rule severity).lint file q = c.lint file q := by
  have decided : ∀ node ∈ file.tree.nodes,
      ∃ ds, checkNode .default p file.tokens node = .ok ds := by
    rw [Config.outcome_lint] at completed
    cases collected : collect (checkNode .default p file.tokens) file.tree.nodes with
    | ok ds => exact exists_eq_ok_of_collect collected
    | error fault =>
        have ended := (congrArg (Except.map _) collected).symm.trans completed
        cases ended
  choose! found each using decided
  refine ⟨found, each, ?_, fun c strict => ?_, fun c q rule severity other => ?_⟩
  · -- strict null checks leave the default run nothing to say about the file
    have whole : reported =
        (fileDiagnostics .default p ++ file.tree.nodes.flatMap found).map
          (Diagnostic.withSeverity fixedConditionRule.severity) :=
      Except.ok.inj (completed.symm.trans (Config.outcome_lint_eq_ok each))
    have silent : fileDiagnostics .default p = [] := by
      rw [fileDiagnostics, enabled]
      rfl
    rw [whole, silent, List.nil_append]
    refine (List.map_congr_left fun d member => ?_).trans (List.map_id _)
    obtain ⟨node, inTree, ofNode⟩ := List.mem_flatMap.mp member
    exact withSeverity_of_isOfRule (isOfRule_of_checkNode (each node inTree) d ofNode)
  · -- the switches act within a node, so any other run differs node by node
    refine Config.outcome_lint_eq_ok fun node inTree => ?_
    rw [checkNode_configured enabled, each node inTree]
    refine congrArg Except.ok ?_
    cases c.options.allowConstantLoops && node.isConstantLoop p with
    | true => simp
    | false => simp
  · exact Config.lint_setSeverity_of_ne other c severity file q

namespace Polling

/-!
The loop `while (true) o === null;`, where `o` is an object. Its condition and the comparison are
both reported by default.
-/

def condition : Expr :=
  .literal ⟨⟨0⟩, ⟨7, 11, 1, 8⟩⟩ (.boolean true)

def subject : Expr :=
  .identifier ⟨⟨⟨1⟩, ⟨13, 14, 1, 14⟩⟩, "o"⟩

def nothing : Expr :=
  .literal ⟨⟨2⟩, ⟨19, 23, 1, 20⟩⟩ .null

def node : Node :=
  ⟨⟨3⟩, ⟨13, 23, 1, 14⟩⟩

def body : Stmt :=
  .expression (.binary node .strictEqual subject nothing) ⟨13, 24, 1, 14⟩

def loop : Stmt :=
  .whileLoop condition body ⟨0, 24, 1, 1⟩

def file : SourceFile where
  path := "polling.ts"
  source := "while (true) o === null;"
  tree := ⟨[loop], ⟨0, 24, 1, 1⟩⟩
  tokens := .ofList []

def program : Program :=
  (Program.record ⟨.ofList wellKnown, ∅, true⟩ condition.id .true).record subject.id .object
    |>.record nothing.id .null

private theorem constrainedType?_condition : program.constrainedType? condition = some .true := by
  have recorded : program.typeOf? condition.id = some .true := by
    simp [program, condition, subject, nothing, Expr.id, Expr.node]
  rw [Program.constrainedType?, recorded]
  decide +kernel

private theorem constrainedType?_subject : program.constrainedType? subject = some .object := by
  have recorded : program.typeOf? subject.id = some .object := by
    simp [program, subject, nothing, Expr.id, Expr.node]
  rw [Program.constrainedType?, recorded]
  decide +kernel

private theorem constrainedType?_nothing : program.constrainedType? nothing = some .null := by
  have recorded : program.typeOf? nothing.id = some .null := by
    simp [program]
  rw [Program.constrainedType?, recorded]
  decide +kernel

def endless : Finding :=
  ⟨.alwaysTruthy, condition.span, some .true⟩

def apart : Finding :=
  ⟨.noOverlap, node.span, none⟩

private theorem judgeCondition_condition : program.judgeCondition condition = .decided endless := by
  have decides : program.judgeCondition condition = program.judgeTruth condition false := rfl
  have decidable : program.table.isIndeterminate .true = false := by decide +kernel
  have fixed : program.table.truthVerdict? .true = some .alwaysTruthy := by decide +kernel
  rw [decides, Program.judgeTruth, constrainedType?_condition]
  simp [decidable, fixed, endless]

private theorem judgeComparison_node :
    program.judgeComparison node .strictEqual subject nothing = .decided apart := by
  have strict : program.strictNullChecks = true := rfl
  have bare : program.table.isBareLiteral .object = false := by decide +kernel
  have disjoint : program.table.cannotOverlap false .object .null = true := by decide +kernel
  have verdict : program.comparisonVerdict? .strictEqual .object .null = some .noOverlap := by
    simp [Program.comparisonVerdict?, strict, bare, disjoint, BinaryOperator.isLooseEquality]
  simp [Program.judgeComparison, constrainedType?_subject, constrainedType?_nothing, verdict,
    BinaryOperator.isComparison, apart]

def found : TreeNode → List Diagnostic
  | .statement (.whileLoop _ _ _) => [.ofFinding program.table endless]
  | .expression (.binary _ _ _ _) => [.ofFinding program.table apart]
  | _ => []

private theorem nodes_tree :
    file.tree.nodes = [.statement loop, .expression condition, .statement body,
    .expression (.binary node .strictEqual subject nothing), .expression subject,
    .expression nothing] := rfl

private theorem checkNode_eq_found :
    ∀ node ∈ file.tree.nodes, checkNode .default program file.tokens node = .ok (found node) := by
  have alone {site : Site} {ds : List Diagnostic}
      (checked : checkSite .default program file.tokens site = .ok ds) :
      collect (checkSite .default program file.tokens) [site] = .ok ds := by
    rw [collect_cons, checked]
    exact congrArg Except.ok (List.append_nil ds)
  have atLoop : checkSite .default program file.tokens (.loopCondition condition) =
      .ok [.ofFinding program.table endless] := by
    simp [checkSite, exemption?_default, Program.judge, judgeCondition_condition, Except.map]
  have atComparison :
      checkSite .default program file.tokens (.comparison node .strictEqual subject nothing) =
        .ok [.ofFinding program.table apart] := by
    simp [checkSite, exemption?_default, Program.judge, judgeComparison_node, Except.map]
  simp only [nodes_tree, List.forall_mem_cons, List.not_mem_nil, false_implies, implies_true,
    and_true, checkNode_eq]
  exact ⟨alone atLoop, rfl, rfl, alone atComparison, rfl, rfl⟩

private theorem lint_outcome : (Config.default.lint file program).outcome =
    .ok [.ofFinding program.table endless, .ofFinding program.table apart] := by
  rw [Config.outcome_lint_eq_ok (c := .default) checkNode_eq_found, nodes_tree]
  rfl

def config : Config :=
  ⟨[(fixedConditionRule.name, .error)], ⟨true, false⟩⟩

end Polling

theorem polling_filtered :
    (Config.default.lint Polling.file Polling.program).outcome =
        .ok [.ofFinding Polling.program.table Polling.endless,
          .ofFinding Polling.program.table Polling.apart] ∧
      (Polling.config.lint Polling.file (Polling.program.withNullChecks false)).outcome =
        .ok [Diagnostic.looseNullChecks.withSeverity .error] := by
  refine ⟨Polling.lint_outcome, ?_⟩
  obtain ⟨found, each, _, configured, _⟩ := lint_filters_default_run rfl Polling.lint_outcome
  have same : ∀ node ∈ Polling.file.tree.nodes, found node = Polling.found node :=
    fun node inTree =>
      Except.ok.inj ((each node inTree).symm.trans (Polling.checkNode_eq_found node inTree))
  have constant : (TreeNode.statement Polling.loop).isConstantLoop Polling.program = true := by
    have isTest : Polling.loop.loopTest? = some Polling.condition := rfl
    rw [TreeNode.isConstantLoop, isTest, Option.any_some, Program.isConstantTrue,
      Polling.constrainedType?_condition]
    decide +kernel
  have nothing : (Polling.file.tree.nodes.flatMap fun node =>
      if Polling.config.options.allowConstantLoops && node.isConstantLoop Polling.program then []
      else (found node).filter (Diagnostic.outlasts false)) = [] := by
    refine List.flatMap_eq_nil_iff.mpr fun node inTree => ?_
    rw [same node inTree]
    rw [Polling.nodes_tree] at inTree
    simp only [List.mem_cons, List.not_mem_nil, or_false] at inTree
    rcases inTree with rfl | rfl | rfl | rfl | rfl | rfl
    · rw [constant]
      rfl
    · rfl
    · rfl
    · simp [Polling.found, Diagnostic.outlasts_ofFinding, Polling.apart, TreeNode.isConstantLoop]
    · rfl
    · rfl
  rw [configured, nothing]
  rfl

end ConditionLint
