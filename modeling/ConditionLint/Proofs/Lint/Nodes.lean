import ConditionLint.Proofs.Lint.Outcome
import ConditionLint.Proofs.Syntax.Preorder

/-!
# A run checks every node once

What a run reports is what each statement and each expression of the tree comes to by itself, in
the order of their places, after what is said about the file as a whole. Other constructs have
nothing to check.
-/

set_option autoImplicit false

namespace ConditionLint

def TreeNode.visit : TreeNode → Visit
  | statement s => .statement s
  | expression e => .expression e

namespace Lint

variable {options : Options} {p : Program} {tokens : TokenStream}

/-!
## Lists of results
-/

section Flatten

variable {α β γ ε : Type} {check : α → Except ε (List β)}

theorem map_map {δ : Type} (result : Except ε α) (first : α → γ) (second : γ → δ) :
    (result.map first).map second = result.map (fun value => second (first value)) := by
  cases result <;> rfl

/-- The first fault of a list, or what all of it comes to in order. -/
def collect (check : α → Except ε (List β)) (items : List α) : Except ε (List β) :=
  (items.mapM check).map List.flatten

theorem collect_cons (check : α → Except ε (List β)) (item : α) (rest : List α) :
    collect check (item :: rest) =
      (check item).bind fun first => (collect check rest).map (first ++ ·) := by
  rw [collect, collect, List.mapM_cons]
  cases check item with
  | error fault => rfl
  | ok first =>
      cases rest.mapM check with
      | error fault => rfl
      | ok parts => rfl

private theorem collect_filterMap {select : α → Option γ} {other : γ → Except ε (List β)}
    (kept : ∀ item chosen, select item = some chosen → check item = other chosen)
    (dropped : ∀ item, select item = none → check item = .ok []) (items : List α) :
    collect check items = collect other (items.filterMap select) := by
  induction items with
  | nil => rfl
  | cons item rest ih =>
      cases selected : select item with
      | none =>
          rw [List.filterMap_cons_none selected, collect_cons, dropped item selected, ← ih]
          cases collect check rest <;> rfl
      | some chosen =>
          rw [List.filterMap_cons_some selected, collect_cons, collect_cons,
            kept item chosen selected, ih]

theorem collect_congr {other : α → Except ε (List β)} {items : List α}
    (same : ∀ item ∈ items, check item = other item) :
    collect check items = collect other items := by
  induction items with
  | nil => rfl
  | cons item rest ih =>
      obtain ⟨first, others⟩ := List.forall_mem_cons.mp same
      rw [collect_cons, collect_cons, first, ih others]

/-- What is done to the whole of the results can be done to each at once, if it is done to the parts
of a list one by one. -/
theorem collect_map_of_append (check : α → Except ε (List β)) {form : List β → List γ}
    (nil : form [] = [])
    (append : ∀ first others, form (first ++ others) = form first ++ form others)
    (items : List α) :
    (collect check items).map form = collect (fun item => (check item).map form) items := by
  induction items with
  | nil => exact congrArg Except.ok nil
  | cons item rest ih =>
      rw [collect_cons, collect_cons, ← ih]
      cases check item with
      | error fault => rfl
      | ok first =>
          cases collect check rest with
          | error fault => rfl
          | ok others => exact congrArg Except.ok (append first others)

private theorem collect_map (check : α → Except ε (List β)) (form : β → γ) (items : List α) :
    (collect check items).map (List.map form) =
      collect (fun item => (check item).map (List.map form)) items :=
  collect_map_of_append check List.map_nil (fun _ _ => List.map_append) items

theorem collect_of_map (check : γ → Except ε (List β)) (form : α → γ) (items : List α) :
    collect check (items.map form) = collect (check ∘ form) items := by
  rw [collect, List.mapM_map]
  rfl

theorem collect_eq_error_iff {items : List α} {fault : ε} :
    collect check items = .error fault ↔
      ∃ before item after, items = before ++ item :: after ∧
        (∀ other ∈ before, ∃ found, check other = .ok found) ∧ check item = .error fault := by
  induction items with
  | nil =>
      constructor
      · intro collected
        cases collected
      · rintro ⟨before, item, after, split, _⟩
        cases before <;> cases split
  | cons item rest ih =>
      rw [collect_cons]
      cases checked : check item with
      | error other =>
          constructor
          · intro same
            exact ⟨[], item, rest, rfl, fun _ member => absurd member List.not_mem_nil,
              checked.trans same⟩
          · rintro ⟨before, faulty, after, split, intact, isFault⟩
            cases before with
            | nil =>
                cases split
                exact checked.symm.trans isFault
            | cons first others =>
                cases split
                obtain ⟨found, isFound⟩ := intact item List.mem_cons_self
                cases checked.symm.trans isFound
      | ok first =>
          have here : ((collect check rest).map (first ++ ·)) = .error fault ↔
              collect check rest = .error fault := by
            cases collect check rest <;> simp [Except.map]
          refine here.trans (ih.trans ?_)
          constructor
          · rintro ⟨before, faulty, after, rfl, intact, isFault⟩
            exact ⟨item :: before, faulty, after, rfl,
              List.forall_mem_cons.mpr ⟨⟨first, checked⟩, intact⟩, isFault⟩
          · rintro ⟨before, faulty, after, split, intact, isFault⟩
            cases before with
            | nil =>
                cases split
                cases checked.symm.trans isFault
            | cons other others =>
                cases split
                exact ⟨others, faulty, after, rfl, (List.forall_mem_cons.mp intact).2, isFault⟩

theorem collect_eq_ok {found : α → List β} {items : List α}
    (each : ∀ item ∈ items, check item = .ok (found item)) :
    collect check items = .ok (items.flatMap found) := by
  induction items with
  | nil => rfl
  | cons item rest ih =>
      obtain ⟨first, others⟩ := List.forall_mem_cons.mp each
      rw [collect_cons, first, ih others]
      rfl

theorem exists_eq_ok_of_collect {items : List α} {found : List β}
    (collected : collect check items = .ok found) :
    ∀ item ∈ items, ∃ part, check item = .ok part := by
  induction items generalizing found with
  | nil => simp
  | cons item rest ih =>
      rw [collect_cons] at collected
      cases checked : check item with
      | error fault =>
          rw [checked] at collected
          cases collected
      | ok first =>
          rw [checked] at collected
          cases others : collect check rest with
          | error fault =>
              rw [others] at collected
              cases collected
          | ok further => exact List.forall_mem_cons.mpr ⟨⟨first, checked⟩, ih others⟩

end Flatten

theorem Trail.outcome_concat_map {α : Type} (trail : α → Trail (List Finding)) (items : List α) :
    (Trail.concat (items.map trail)).outcome =
      collect (fun item => (trail item).outcome) items := by
  induction items with
  | nil => rfl
  | cons item rest ih =>
      have first : (Trail.concat ((item :: rest).map trail)).outcome =
          ((trail item).append (Trail.concat (rest.map trail))).outcome := rfl
      rw [first, collect_cons, ← ih, Trail.append]
      cases outcome : (trail item).outcome with
      | error fault => exact outcome
      | ok findings => rfl

/-!
## Sites
-/

/-- What is reported of a judgement. -/
def reports (table : Table) (judgement : Judgement) : List Diagnostic :=
  (judgement.finding?.map (Diagnostic.ofFinding table)).toList

@[simp] theorem reports_decided (table : Table) (finding : Finding) :
    reports table (.decided finding) = [Diagnostic.ofFinding table finding] := rfl

@[simp] theorem reports_undecided (table : Table) (doubt : Option Doubt) :
    reports table (.undecided doubt) = [] := rfl

/-- What is reported of a site. -/
def checkSite (options : Options) (p : Program) (tokens : TokenStream) (site : Site) :
    Except MissingOperator (List Diagnostic) :=
  match exemption? options p site with
  | some _ => .ok []
  | none => (p.judge tokens site).map (reports p.table)

theorem outcome_trailOfSite (options : Options) (p : Program) (tokens : TokenStream)
    (site : Site) :
    (trailOfSite options p tokens site).outcome.map (List.map (Diagnostic.ofFinding p.table)) =
      checkSite options p tokens site := by
  rw [trailOfSite, checkSite]
  cases exemption? options p site with
  | some span => rfl
  | none =>
      cases p.judge tokens site with
      | error fault => rfl
      | ok judgement => cases judgement <;> rfl

/-!
## Nodes
-/

/-- What is reported of a statement or an expression itself. -/
def checkNode (options : Options) (p : Program) (tokens : TokenStream) (node : TreeNode) :
    Except MissingOperator (List Diagnostic) :=
  (trailOfVisit options p tokens node.visit).outcome.map (List.map (Diagnostic.ofFinding p.table))

theorem checkNode_eq (options : Options) (p : Program) (tokens : TokenStream) (node : TreeNode) :
    checkNode options p tokens node = collect (checkSite options p tokens) node.visit.sites := by
  rw [checkNode, trailOfVisit, Trail.outcome_report, Trail.outcome_concat_map, collect_map]
  exact congrArg (fun check => collect check node.visit.sites)
    (funext (outcome_trailOfSite options p tokens))

private theorem outcome_trailOfVisit_of_other {visit : Visit} (other : visit.node? = none) :
    (trailOfVisit options p tokens visit).outcome = .ok [] := by
  cases visit with
  | statement => cases other
  | expression => cases other
  | _ => rfl

theorem outcome_trailOfTree (tree : SyntaxTree) :
    (trailOfTree options p tokens tree).outcome =
      collect (fun node => (trailOfVisit options p tokens node.visit).outcome) tree.nodes := by
  rw [trailOfTree, Trail.outcome_concat_map]
  refine collect_filterMap (fun visit node made => ?_)
    (fun visit other => outcome_trailOfVisit_of_other other) tree.visits
  cases visit <;> cases made <;> rfl

theorem Config.outcome_lint (c : Config) (file : SourceFile) (p : Program) :
    (c.lint file p).outcome =
      if c.isDisabled fixedConditionRule.name then .ok []
      else
        (collect (checkNode c.options p file.tokens) file.tree.nodes).map fun ds =>
          c.relabel (fileDiagnostics c.options p ++ ds) := by
  let finish (ds : List Diagnostic) : List Diagnostic :=
    c.relabel (fileDiagnostics c.options p ++ ds)
  rw [Config.lint]
  split
  · rfl
  · calc
      (trailOfTree c.options p file.tokens file.tree).outcome.map
            (fun findings => finish (findings.map (Diagnostic.ofFinding p.table)))
        = ((trailOfTree c.options p file.tokens file.tree).outcome.map
            (List.map (Diagnostic.ofFinding p.table))).map finish := (map_map _ _ _).symm
      _ = (collect (checkNode c.options p file.tokens) file.tree.nodes).map finish := by
          rw [outcome_trailOfTree, collect_map]
          rfl

/-- A run reports what is said about the file and then what each statement and expression comes to.
The list of these has every place of the tree once, in order. -/
theorem lint_checks_each_node (c : Config) (file : SourceFile) (p : Program) :
    (∃ places, ListsPlaces file.tree.children places file.tree.nodes) ∧
      (c.lint file p).outcome =
        if c.isDisabled fixedConditionRule.name then .ok []
        else
          (file.tree.nodes.mapM (checkNode c.options p file.tokens)).map fun parts =>
            c.relabel (fileDiagnostics c.options p ++ parts.flatten) := by
  refine ⟨file.tree.exists_places, ?_⟩
  rw [Config.outcome_lint, collect, map_map]

end Lint

end ConditionLint
