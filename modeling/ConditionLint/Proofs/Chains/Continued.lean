import ConditionLint.Proofs.Chains.Element

/-!
# Chains that go on after an element

A chain is an expression with steps made on it one after the other. The chains that can break off
are those that start with an optional step on an element, whatever follows; none of their steps is
judged, and as an operand of `??` they are never found to be never nullish.
-/

set_option autoImplicit false

namespace ConditionLint

/-- A step of a chain, without the base that it is made on. -/
inductive ChainStep where
  | member (node : Node) (key : MemberKey) (optional : Bool)
  | call (node : Node) (arguments : List Expr) (optional : Bool)

namespace ChainStep

def isOptional : ChainStep → Bool
  | member _ _ optional | call _ _ optional => optional

def on (base : Expr) : ChainStep → Expr
  | member node key optional => .member node base key optional
  | call node arguments optional => .call node base arguments optional

@[simp] theorem step?_on (base : Expr) (step : ChainStep) :
    (step.on base).step? = some (base, step.isOptional) := by
  cases step <;> rfl

end ChainStep

/-- The expression with further steps made on it, the first one innermost. -/
def Expr.continued (e : Expr) (steps : List ChainStep) : Expr :=
  steps.foldl ChainStep.on e

private theorem Expr.continued_concat (e : Expr) (steps : List ChainStep) (last : ChainStep) :
    e.continued (steps ++ [last]) = last.on (e.continued steps) := by
  unfold continued
  rw [List.foldl_append]
  rfl

private theorem Expr.exists_eq_on {e base : Expr} {optional : Bool}
    (step : e.step? = some (base, optional)) :
    ∃ last : ChainStep, last.isOptional = optional ∧ e = last.on base := by
  cases e with
  | member node _ key =>
      cases step
      exact ⟨.member node key optional, rfl, rfl⟩
  | call node _ arguments =>
      cases step
      exact ⟨.call node arguments optional, rfl, rfl⟩
  | _ => cases step

namespace Expr.BreaksOff

variable {p : Program} {e : Expr}

theorem continued (breaksOff : e.BreaksOff p) (steps : List ChainStep) :
    (e.continued steps).BreaksOff p := by
  induction steps generalizing e with
  | nil => exact breaksOff
  | cons step rest ih =>
      apply ih
      exact .before (step.step?_on e) breaksOff

/-- The chains that can break off are those that go on after an optional step on an element. -/
theorem iff_continued :
    e.BreaksOff p ↔
      ∃ base first rest, p.readsElement base = true ∧ first.isOptional = true ∧
        e = base.continued (first :: rest) := by
  constructor
  · intro breaksOff
    induction breaksOff with
    | @here e base step reads =>
        obtain ⟨first, optional, rfl⟩ := exists_eq_on step
        exact ⟨base, first, [], reads, optional, rfl⟩
    | before step _ ih =>
        obtain ⟨last, _, rfl⟩ := exists_eq_on step
        obtain ⟨base, first, rest, reads, optional, rfl⟩ := ih
        refine ⟨base, first, rest ++ [last], reads, optional, ?_⟩
        exact (continued_concat base (first :: rest) last).symm
  · intro chain
    obtain ⟨base, first, rest, reads, optional, rfl⟩ := chain
    have started : (first.on base).BreaksOff p := by
      apply BreaksOff.here _ reads
      rw [first.step?_on, optional]
    exact started.continued rest

end Expr.BreaksOff

/-- After an optional step on an element no step is found to be redundant and none fails, whatever
the tokens and the types on the way are. As an operand of `??` the chain is found to be never or
always nullish at most by its own type, but not to be never nullish. -/
theorem steps_after_element {p : Program} {base : Expr} (reads : p.readsElement base = true)
    {first : ChainStep} (optional : first.isOptional = true) (rest : List ChainStep) :
    (∀ tokens, p.judgeStep tokens (base.continued (first :: rest)) =
        .ok (.undecided ((base.continued (first :: rest)).optionalStep?.map fun _ =>
          .afterElement (base.continued (first :: rest)).span))) ∧
      ∀ node f, (p.judgeNullish (.chain node (base.continued (first :: rest)))).finding? = some f →
        f.verdict = .never ∨ f.verdict = .alwaysNullish := by
  have breaksOff : (base.continued (first :: rest)).BreaksOff p :=
    Expr.BreaksOff.iff_continued.mpr ⟨base, first, rest, reads, optional, rfl⟩
  constructor
  · exact Program.judgeStep_eq_of_breaksOff breaksOff
  · intro node f found
    exact Program.judgeNullish_of_missing (Program.mayBeMissing_chain breaksOff) found

namespace Roster

def ownerStep : ChainStep :=
  .member ⟨⟨4⟩, ⟨4, 18, 1, 5⟩⟩ (.named ⟨⟨⟨3⟩, ⟨13, 18, 1, 14⟩⟩, "owner"⟩) true

def laterSteps : List ChainStep :=
  [.member ⟨⟨6⟩, ⟨4, 27, 1, 5⟩⟩ (.named ⟨⟨⟨5⟩, ⟨19, 27, 1, 20⟩⟩, "describe"⟩) false,
    .call ⟨⟨7⟩, ⟨4, 29, 1, 5⟩⟩ [] false]

private theorem continued_element : element.continued (ownerStep :: laterSteps) = description := rfl

private theorem constrainedType?_descriptionChain :
    program.constrainedType? descriptionChain = some ⟨14⟩ := by
  rw [Program.constrainedType?, typeOf?_descriptionChain, Option.map_some, constrained_record]

private theorem present_record :
    program.table.isNever ⟨14⟩ = false ∧ program.table.isPossiblyNullish ⟨14⟩ = false := by
  decide +kernel

end Roster

/-- The chain `list[i]?.owner.describe()` is left undecided although its type has no nullish
member. -/
theorem description_undecided :
    Roster.program.readsElement Roster.element = true ∧ Roster.ownerStep.isOptional = true ∧
      (∀ tokens, Roster.program.judgeStep tokens Roster.description = .ok (.undecided none)) ∧
      (Roster.program.judgeNullish Roster.descriptionChain).finding? = none := by
  have reads := Roster.readsElement_element
  have optional : Roster.ownerStep.isOptional = true := rfl
  have chain := steps_after_element reads optional Roster.laterSteps
  rw [Roster.continued_element] at chain
  obtain ⟨steps, operand⟩ := chain
  refine ⟨reads, optional, steps, ?_⟩
  cases found : (Roster.program.judgeNullish Roster.descriptionChain).finding? with
  | none => rfl
  | some f =>
      obtain ⟨type, verdict, typed, _, fixes, rfl⟩ :=
        Program.judgeNullish_finding?_eq_some_iff.mp found
      obtain ⟨inhabited, present⟩ := Roster.present_record
      have judged := operand _ _ found
      rw [Roster.constrainedType?_descriptionChain] at typed
      cases typed
      cases fixes with
      | never never => exact absurd (never.symm.trans inhabited) Bool.true_eq_false.mp
      | alwaysNullish _ nullish => exact absurd (nullish.symm.trans present) Bool.true_eq_false.mp
      | neverNullish => simp at judged

end ConditionLint
