import ConditionLint.Analysis.Site
import ConditionLint.Lint.Config
import ConditionLint.Lint.Diagnostic
import ConditionLint.TypedSource

/-!
# Runs

A run judges the sites of a tree in the order of the walk. It leaves a trail: what was remarked on
the way, and the findings, unless an optional step without its token ended it. The sites of one
visit are all judged before their findings are reported.
-/

set_option autoImplicit false

namespace ConditionLint.Lint

inductive Remark where
  | doubt (doubt : Doubt)
  | comparison (finding : Finding)
  /-- A constant loop condition was left alone. -/
  | allowedLoop (test : Span)
  | reported (finding : Finding)
deriving DecidableEq, Repr, Inhabited

/-- The remarks of a part of a run and what it came to. -/
structure Trail (α : Type) where
  remarks : List Remark
  outcome : Except MissingOperator α

namespace Trail

def empty : Trail (List Finding) :=
  ⟨[], .ok []⟩

/-- One part after the other; after a fault there is no other. -/
def append (first second : Trail (List Finding)) : Trail (List Finding) :=
  match first.outcome with
  | .ok findings => ⟨first.remarks ++ second.remarks, second.outcome.map (findings ++ ·)⟩
  | .error _ => first

def concat (parts : List (Trail (List Finding))) : Trail (List Finding) :=
  parts.foldr append empty

/-- Report the findings of a part. -/
def report (part : Trail (List Finding)) : Trail (List Finding) :=
  match part.outcome with
  | .ok findings => { part with remarks := part.remarks ++ findings.map .reported }
  | .error _ => part

def map {α β : Type} (f : α → β) (part : Trail α) : Trail β :=
  ⟨part.remarks, part.outcome.map f⟩

end Trail

/-- The remark that a finding is worth at once. -/
def remarkOn (f : Finding) : List Remark :=
  match f.verdict with
  | .literalComparison | .noOverlap => [.comparison f]
  | _ => []

def trailOfJudgement : Judgement → Trail (List Finding)
  | .decided finding => ⟨remarkOn finding, .ok [finding]⟩
  | .undecided doubt => ⟨(doubt.map Remark.doubt).toList, .ok []⟩

/-- A site that the options exempt, with the place it is at. -/
def exemption? (options : Options) (p : Program) : Site → Option Span
  | .loopCondition test =>
    if options.allowConstantLoops && p.isConstantTrue test then some test.span else none
  | _ => none

def trailOfSite (options : Options) (p : Program) (tokens : TokenStream) (site : Site) :
    Trail (List Finding) :=
  match exemption? options p site with
  | some test => ⟨[.allowedLoop test], .ok []⟩
  | none =>
    match p.judge tokens site with
    | .ok judgement => trailOfJudgement judgement
    | .error fault => ⟨[], .error fault⟩

def trailOfVisit (options : Options) (p : Program) (tokens : TokenStream) (visit : Visit) :
    Trail (List Finding) :=
  (Trail.concat (visit.sites.map (trailOfSite options p tokens))).report

def trailOfTree (options : Options) (p : Program) (tokens : TokenStream) (tree : SyntaxTree) :
    Trail (List Finding) :=
  .concat (tree.visits.map (trailOfVisit options p tokens))

/-- The diagnostics about a file as a whole. -/
def fileDiagnostics (options : Options) (p : Program) : List Diagnostic :=
  if p.strictNullChecks || options.allowLooseNullChecks then [] else [.looseNullChecks]

namespace Config

/-- Give each diagnostic the severity that is in force for its rule, and drop those turned off. -/
def relabel (c : Config) (ds : List Diagnostic) : List Diagnostic :=
  (ds.map fun d => { d with severity := c.severityOf d.rule d.severity }).filter
    (·.severity != .off)

def activeRules (c : Config) : Nat :=
  if c.isDisabled fixedConditionRule.name then 0 else 1

def lint (c : Config) (file : SourceFile) (p : Program) : Trail (List Diagnostic) :=
  if c.isDisabled fixedConditionRule.name then ⟨[], .ok []⟩
  else
    (trailOfTree c.options p file.tokens file.tree).map fun findings =>
      c.relabel
        (fileDiagnostics c.options p ++ findings.map (Diagnostic.ofFinding p.table))

end Config

end ConditionLint.Lint
