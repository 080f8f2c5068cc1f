import ConditionLint.Proofs.Lint.Nodes
import ConditionLint.Proofs.Lint.Outcome
import ConditionLint.Proofs.Sites.Renaming
import ConditionLint.Proofs.TypedSource.Closed

/-!
# Runs over renamed nodes

A run over a tree with other node ids, on a program with other ids of types and nodes, reports the
same. The diagnostic of a finding shows its type as text, which has no id in it.
-/

set_option autoImplicit false

namespace ConditionLint

variable {f : TypeId → TypeId} {g : NodeId → NodeId} {p q : Program}

/-!
## Sites of nodes
-/

theorem Expr.sites_rename (e : Expr) : (e.rename g).sites = e.sites.map (Site.rename g) := by
  cases e with
  | logical node operator left right => cases operator <;> rfl
  | assignment node operator left right => cases operator <;> rfl
  | _ => rfl

theorem Stmt.sites_rename (s : Stmt) : (s.rename g).sites = s.sites.map (Site.rename g) := by
  cases s with
  | forLoop init test update body span => cases test <;> rfl
  | _ => rfl

theorem TreeNode.sites_rename (node : TreeNode) :
    (node.rename g).visit.sites = node.visit.sites.map (Site.rename g) := by
  cases node with
  | statement s => exact s.sites_rename
  | expression e => exact e.sites_rename

namespace Lint

theorem exemption?_rename (renames : p.Renames f g q) (options : Options) (site : Site) :
    exemption? options q (site.rename g) = exemption? options p site := by
  cases site with
  | loopCondition test =>
      simp only [Site.rename, exemption?, renames.isConstantTrue, Expr.span_rename]
  | _ => rfl

theorem ofFinding_rename {finding : Finding} {t u : Table}
    (text : ∀ type, finding.type = some type → u.display (f type) = t.display type) :
    Diagnostic.ofFinding u (finding.rename f) = Diagnostic.ofFinding t finding := by
  have notes : (finding.type.map f).map (fun type => "type is `" ++ u.display type ++ "`") =
      finding.type.map (fun type => "type is `" ++ t.display type ++ "`") := by
    rw [Option.map_map]
    refine Option.map_congr fun type shown => ?_
    rw [Function.comp_apply, text type shown]
  rw [Diagnostic.ofFinding, Diagnostic.ofFinding, Finding.rename, notes]

theorem reports_rename (renames : p.Renames f g q) {tokens : TokenStream} {site : Site}
    {judgement : Judgement} (judged : p.judge tokens site = .ok judgement) :
    reports q.table (judgement.rename f) = reports p.table judgement := by
  cases judgement with
  | undecided doubt => rw [Judgement.rename, reports_undecided, reports_undecided]
  | decided finding =>
      rw [Judgement.rename, reports_decided, reports_decided, ofFinding_rename]
      intro type shown
      obtain ⟨e, typed⟩ := Program.judge_type judged shown
      exact renames.embeds.display type (renames.consistent.contains_constrainedType? typed)

theorem checkSite_rename (renames : p.Renames f g q) (options : Options) (tokens : TokenStream)
    (site : Site) :
    checkSite options q tokens (site.rename g) = checkSite options p tokens site := by
  rw [checkSite, checkSite, exemption?_rename renames]
  cases exemption? options p site with
  | some span => rfl
  | none =>
      rw [renames.judge]
      cases judged : p.judge tokens site with
      | error fault => simp only [Except.map]
      | ok judgement => exact congrArg Except.ok (reports_rename renames judged)

theorem checkNode_rename (renames : p.Renames f g q) (options : Options) (tokens : TokenStream)
    (node : TreeNode) :
    checkNode options q tokens (node.rename g) = checkNode options p tokens node := by
  have same : checkSite options q tokens ∘ Site.rename g = checkSite options p tokens :=
    funext (checkSite_rename renames options tokens)
  rw [checkNode_eq, checkNode_eq, TreeNode.sites_rename, collect_of_map, same]

theorem Config.outcome_lint_rename (renames : p.Renames f g q) (c : Config) (file : SourceFile) :
    (c.lint { file with tree := file.tree.rename g } q).outcome = (c.lint file p).outcome := by
  have same : checkNode c.options q file.tokens ∘ TreeNode.rename g =
      checkNode c.options p file.tokens :=
    funext (checkNode_rename renames c.options file.tokens)
  have general : fileDiagnostics c.options q = fileDiagnostics c.options p := by
    rw [fileDiagnostics, fileDiagnostics, renames.strictNullChecks]
  rw [Config.outcome_lint, Config.outcome_lint, general, SyntaxTree.nodes_rename, collect_of_map,
    same]

end Lint

end ConditionLint
