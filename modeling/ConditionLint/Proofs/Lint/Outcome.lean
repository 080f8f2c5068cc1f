import ConditionLint.Lint.Run
import Mathlib.Data.List.Basic

/-!
# Outcomes of runs

A run that is not ended by a fault finds, in the order of the walk, what its sites come to one by
one; the diagnostics are made of these findings.
-/

set_option autoImplicit false

namespace ConditionLint

def SyntaxTree.sites (tree : SyntaxTree) : List Site :=
  tree.visits.flatMap Visit.sites

namespace Lint

variable {options : Options} {p : Program} {tokens : TokenStream}

/-- What a site that is not exempt is found to be. -/
def findingAt? (options : Options) (p : Program) (tokens : TokenStream) (site : Site) :
    Option Finding :=
  match exemption? options p site, p.judge tokens site with
  | none, .ok judgement => judgement.finding?
  | _, _ => none

/-- The fault that a site which is not exempt ends a run with. -/
def faultAt? (options : Options) (p : Program) (tokens : TokenStream) (site : Site) :
    Option MissingOperator :=
  match exemption? options p site, p.judge tokens site with
  | none, .error fault => some fault
  | _, _ => none

theorem trailOfSite_outcome {site : Site} {findings : List Finding} :
    (trailOfSite options p tokens site).outcome = .ok findings ↔
      faultAt? options p tokens site = none ∧
        findings = (findingAt? options p tokens site).toList := by
  unfold trailOfSite findingAt? faultAt?
  cases exempt : exemption? options p site with
  | some test => simp [eq_comm]
  | none =>
      cases judged : p.judge tokens site with
      | error fault => simp
      | ok judgement =>
          cases judgement <;> simp [trailOfJudgement, Judgement.finding?, eq_comm]

theorem Trail.outcome_append {first second : Trail (List Finding)} {findings : List Finding} :
    (first.append second).outcome = .ok findings ↔
      ∃ before after, first.outcome = .ok before ∧ second.outcome = .ok after ∧
        findings = before ++ after := by
  unfold Trail.append
  cases start : first.outcome with
  | error fault => simp [start]
  | ok before => cases rest : second.outcome <;> simp [Except.map, eq_comm]

theorem Trail.outcome_concat {α : Type} {trail : α → Trail (List Finding)} {intact : α → Prop}
    {found : α → List Finding} {items : List α} {findings : List Finding}
    (each : ∀ item part, (trail item).outcome = .ok part ↔ intact item ∧ part = found item) :
    (Trail.concat (items.map trail)).outcome = .ok findings ↔
      (∀ item ∈ items, intact item) ∧ findings = items.flatMap found := by
  induction items generalizing findings with
  | nil =>
      have nothing : (Trail.concat (List.map trail [])).outcome = .ok [] := rfl
      rw [nothing]
      simp [eq_comm]
  | cons item rest ih =>
      have split : Trail.concat ((item :: rest).map trail) =
          (trail item).append (Trail.concat (rest.map trail)) := rfl
      rw [split, Trail.outcome_append]
      constructor
      · rintro ⟨before, after, start, finish, rfl⟩
        obtain ⟨intactItem, rfl⟩ := (each item before).mp start
        obtain ⟨intactRest, rfl⟩ := ih.mp finish
        exact ⟨List.forall_mem_cons.mpr ⟨intactItem, intactRest⟩, List.flatMap_cons.symm⟩
      · rintro ⟨intact, rfl⟩
        obtain ⟨intactItem, intactRest⟩ := List.forall_mem_cons.mp intact
        exact ⟨found item, rest.flatMap found, (each item _).mpr ⟨intactItem, rfl⟩,
          ih.mpr ⟨intactRest, rfl⟩, List.flatMap_cons⟩

@[simp] theorem Trail.outcome_report (part : Trail (List Finding)) :
    part.report.outcome = part.outcome := by
  unfold Trail.report
  split <;> simp_all

theorem trailOfVisit_outcome {visit : Visit} {findings : List Finding} :
    (trailOfVisit options p tokens visit).outcome = .ok findings ↔
      (∀ site ∈ visit.sites, faultAt? options p tokens site = none) ∧
        findings = visit.sites.filterMap (findingAt? options p tokens) := by
  rw [trailOfVisit, Trail.outcome_report, List.filterMap_eq_flatMap_toList]
  exact Trail.outcome_concat fun _ _ => trailOfSite_outcome

/-- A run is completed if no site ends it, and it finds what its sites are found to be, one after
the other. -/
theorem trailOfTree_outcome {tree : SyntaxTree} {findings : List Finding} :
    (trailOfTree options p tokens tree).outcome = .ok findings ↔
      (∀ site ∈ tree.sites, faultAt? options p tokens site = none) ∧
        findings = tree.sites.filterMap (findingAt? options p tokens) := by
  rw [trailOfTree, SyntaxTree.sites, List.filterMap_flatMap,
    Trail.outcome_concat fun _ _ => trailOfVisit_outcome]
  simp only [List.mem_flatMap, forall_exists_index, and_imp]
  refine and_congr_left fun _ => ⟨?_, ?_⟩
  · intro all site visit member belongs
    exact all visit member site belongs
  · intro all visit member site belongs
    exact all site visit member belongs

end Lint

end ConditionLint
