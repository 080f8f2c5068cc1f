import ConditionLint.Proofs.Sites.Nullability
import ConditionLint.Proofs.Sites.Subjects
import ConditionLint.Lint.Rule
import Mathlib.Data.List.Nodup

/-!
# What is found at a site

A finding at a site is about its subject, about a comparison as a whole, or about an optional
step. The three differ in their verdicts and so in their messages.
-/

set_option autoImplicit false

namespace ConditionLint

namespace Verdict

def isStep : Verdict → Bool
  | redundantStep _ _ => true
  | _ => false

def isComparison : Verdict → Bool
  | literalComparison | noOverlap => true
  | _ => false

/-- One verdict for each message. -/
def samples : List Verdict :=
  [alwaysTruthy, alwaysFalsy, callbackAlwaysTruthy, callbackAlwaysFalsy, alwaysNullish,
    neverNullish, never, literalComparison, noOverlap, redundantStep default ""]

theorem nodup_messages :
    (Lint.looseNullChecksMessage :: samples.map message).Nodup := by
  decide +kernel

/-- A verdict has a sample, which is the verdict itself unless that is about an optional step. -/
theorem exists_sample (verdict : Verdict) :
    ∃ sample ∈ samples, sample.message = verdict.message ∧
      (sample = verdict ∨ (sample.isStep = true ∧ verdict.isStep = true)) := by
  cases verdict with
  | redundantStep => exact ⟨.redundantStep default "", by simp [samples], rfl, .inr ⟨rfl, rfl⟩⟩
  | _ => exact ⟨_, by simp [samples], rfl, .inl rfl⟩

/-- Verdicts with the same message are equal or both about optional steps. -/
theorem eq_or_isStep_of_message_eq {first second : Verdict}
    (same : first.message = second.message) :
    first = second ∨ (first.isStep = true ∧ second.isStep = true) := by
  obtain ⟨one, oneSample, oneMessage, oneIs⟩ := first.exists_sample
  obtain ⟨other, otherSample, otherMessage, otherIs⟩ := second.exists_sample
  have equal : one = other :=
    List.inj_on_of_nodup_map nodup_messages.of_cons oneSample otherSample
      (oneMessage.trans (same.trans otherMessage.symm))
  subst equal
  rcases oneIs with rfl | ⟨step, firstStep⟩ <;> rcases otherIs with rfl | ⟨_, secondStep⟩
  · exact .inl rfl
  · exact .inr ⟨‹_›, secondStep⟩
  · exact .inr ⟨firstStep, step⟩
  · exact .inr ⟨firstStep, secondStep⟩

theorem message_ne_looseNullChecksMessage (verdict : Verdict) :
    verdict.message ≠ Lint.looseNullChecksMessage := by
  obtain ⟨sample, member, message, _⟩ := verdict.exists_sample
  intro same
  have included : Lint.looseNullChecksMessage ∈ samples.map Verdict.message :=
    List.mem_map.mpr ⟨sample, member, message.trans same⟩
  exact (List.nodup_cons.mp nodup_messages).1 included

end Verdict

def Site.comparison? : Site → Option Node
  | .comparison node _ _ _ => some node
  | _ => none

/-- The finding says what one expression can be. -/
structure Finding.IsAbout (f : Finding) (e : Expr) : Prop where
  span : f.span = e.span
  noStep : f.verdict.isStep = false
  noComparison : f.verdict.isComparison = false

/-- What a finding at a site is about. -/
inductive FoundAt (p : Program) (site : Site) (f : Finding) : Prop where
  | step : f.verdict.isStep = true → FoundAt p site f
  | comparison {node : Node} :
      site.comparison? = some node → f.span = node.span → f.verdict.isComparison = true →
      FoundAt p site f
  | subject {e : Expr} : site.subject? p = some e → f.IsAbout e → FoundAt p site f

namespace Program

variable {p : Program} {e : Expr} {f : Finding}

theorem judgeCondition_isAbout (found : (p.judgeCondition e).finding? = some f) :
    f.IsAbout e.decider := by
  have plain := verdict_of_judgeCondition found
  obtain ⟨_, found⟩ := judgeCondition_finding?_eq_some_iff.mp found
  obtain ⟨type, verdict, _, _, _, rfl⟩ := judgeTruth_finding?_eq_some_iff.mp found
  refine ⟨rfl, ?_, ?_⟩ <;> rcases plain with same | same | same <;> rw [same] <;> rfl

theorem judgeNullish_isAbout (found : (p.judgeNullish e).finding? = some f) :
    f.IsAbout e := by
  obtain ⟨type, verdict, _, _, fixes, rfl⟩ := judgeNullish_finding?_eq_some_iff.mp found
  cases fixes <;> exact ⟨rfl, rfl, rfl⟩

theorem judgeSignatures_isAbout (found : (p.judgeSignatures e).finding? = some f) :
    f.IsAbout e := by
  unfold judgeSignatures at found
  split at found
  · cases found
  · split at found
    · cases found
    · split at found
      · rename_i verdict fixed
        cases found
        unfold Table.callbackVerdict? at fixed
        split at fixed
        · cases fixed
        · split at fixed
          · cases fixed
            exact ⟨rfl, rfl, rfl⟩
          · split at fixed
            · cases fixed
              exact ⟨rfl, rfl, rfl⟩
            · cases fixed
      · cases found

theorem judgeCallback_isAbout (found : (p.judgeCallback e).finding? = some f) :
    f.IsAbout e.callbackSubject := by
  unfold judgeCallback at found
  unfold Expr.callbackSubject
  cases inline : e.inlineResult? with
  | some result =>
      rw [inline] at found
      exact judgeCondition_isAbout found
  | none =>
      rw [inline] at found
      exact judgeSignatures_isAbout found

theorem judgeComparison_found {node : Node} {operator : BinaryOperator} {left right : Expr}
    (found : (p.judgeComparison node operator left right).finding? = some f) :
    f.span = node.span ∧ f.verdict.isComparison = true := by
  unfold judgeComparison at found
  split at found
  · split at found
    · split at found
      · rename_i verdict fixed
        cases found
        unfold comparisonVerdict? at fixed
        split at fixed
        · cases fixed
          exact ⟨rfl, rfl⟩
        · split at fixed
          · cases fixed
            exact ⟨rfl, rfl⟩
          · cases fixed
      · cases found
    · cases found
  · cases found

theorem judgeStep_found {tokens : TokenStream} {judgement : Judgement}
    (judged : p.judgeStep tokens e = .ok judgement) (found : judgement.finding? = some f) :
    f.verdict.isStep = true := by
  cases judgement with
  | undecided => cases found
  | decided =>
      cases found
      obtain ⟨_, _, _, _, _, _, _, _, _, rfl⟩ := judgeStep_eq_decided_iff.mp judged
      rfl

/-- A finding is about the subject of its site, or about a comparison or an optional step. -/
theorem judge_found {tokens : TokenStream} {site : Site} {judgement : Judgement}
    (judged : p.judge tokens site = .ok judgement) (found : judgement.finding? = some f) :
    FoundAt p site f := by
  cases site with
  | condition test | loopCondition test =>
      cases judged
      exact .subject rfl (judgeCondition_isAbout found)
  | nullish operand =>
      cases judged
      exact .subject rfl (judgeNullish_isAbout found)
  | comparison node operator left right =>
      cases judged
      obtain ⟨span, verdict⟩ := judgeComparison_found found
      exact .comparison rfl span verdict
  | predicateCall callee arguments =>
      cases judged
      unfold judgePredicateCall at found
      split at found
      · rename_i callback rest predicate
        exact .subject (by simp [Site.subject?, predicate]) (judgeCallback_isAbout found)
      · cases found
  | step e => exact .step (judgeStep_found judged found)

end Program

end ConditionLint
