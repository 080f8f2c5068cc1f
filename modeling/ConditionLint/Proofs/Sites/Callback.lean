import ConditionLint.Analysis.Callback
import ConditionLint.Proofs.Sites.Undecidable

/-!
# Callbacks whose result can be anything

A callback that is no function in place is judged by its return types, of which only the members
`any` and `unknown` keep it from being judged. A return type that can be anything for another reason
is never found to be falsy, but it passes for truthy.
-/

set_option autoImplicit false

namespace ConditionLint

namespace Table

private theorem callbackVerdict?_of_isPossiblyTruthy {t : Table} {signatures : List Signature}
    {signature : Signature} (included : signature ∈ signatures)
    (truthy : t.isPossiblyTruthy signature.returnType = true) :
    t.callbackVerdict? (signatures.map Signature.returnType) =
      if (∃ other ∈ signatures, t.hasKind other.returnType [.any, .unknown] = true) ∨
          ∃ other ∈ signatures, t.isPossiblyFalsy other.returnType = true then none
      else some .callbackAlwaysTruthy := by
  have someTruthy : signatures.any (t.isPossiblyTruthy ·.returnType) = true :=
    List.any_eq_true.mpr ⟨signature, included, truthy⟩
  have any : ∀ question : TypeId → Bool,
      (signatures.map Signature.returnType).any question =
        signatures.any (question ·.returnType) := fun question => List.any_map
  unfold callbackVerdict?
  simp only [any, someTruthy, Bool.not_true, Bool.false_eq_true, if_false, ← List.any_eq_true]
  cases signatures.any (t.hasKind ·.returnType [.any, .unknown]) with
  | true => simp
  | false => cases signatures.any (t.isPossiblyFalsy ·.returnType) <;> simp

end Table

namespace Program

variable {p : Program} {callee callback : Expr} {rest : List Expr} {type : TypeId}

theorem judgePredicateCall_eq (predicate : p.isPredicateMethod callee = true)
    (named : callback.inlineResult? = none) :
    p.judgePredicateCall callee (callback :: rest) = p.judgeSignatures callback := by
  simp [judgePredicateCall, predicate, judgeCallback, named]

private theorem judgeSignatures_finding? (typed : p.constrainedType? callback = some type) :
    (p.judgeSignatures callback).finding? =
      if p.table.callSignatures type = [] then none
      else (p.table.callbackVerdict? ((p.table.callSignatures type).map Signature.returnType)).map
        (⟨·, callback.span, none⟩) := by
  unfold judgeSignatures
  rw [typed]
  cases callable : p.table.callSignatures type with
  | nil => simp [callable, Judgement.doubtful, Judgement.finding?]
  | cons signature others =>
      cases fixed : p.table.callbackVerdict? ((signature :: others).map Signature.returnType) <;>
        simp_all [Judgement.silent, Judgement.finding?]

end Program

/-- A callback with a return type that can be anything is passed over exactly if some return type
has a member `any` or `unknown` or may be falsy. Otherwise it is found to be always truthy, and it
is never found to be always falsy. -/
theorem predicate_callback_open {ds : List Descriptor} {p : Program}
    (accepted : Table.ofDescriptors? ds = .ok p.table) {callee callback : Expr}
    (predicate : p.isPredicateMethod callee = true) (named : callback.inlineResult? = none)
    {type : TypeId} (typed : p.constrainedType? callback = some type)
    {signature : Signature} (callable : signature ∈ p.table.callSignatures type)
    {target : TypeId} (resolves : p.table.ResolvesTo signature.returnType target)
    (isOpen : p.table.IsOpen target) (rest : List Expr) :
    ((p.judgePredicateCall callee (callback :: rest)).finding? = none ↔
      (∃ other ∈ p.table.callSignatures type,
          p.table.hasKind other.returnType [.any, .unknown] = true) ∨
        ∃ other ∈ p.table.callSignatures type,
          p.table.isPossiblyFalsy other.returnType = true) ∧
      ∀ f, (p.judgePredicateCall callee (callback :: rest)).finding? = some f →
        f = ⟨.callbackAlwaysTruthy, callback.span, none⟩ := by
  have regular := (Table.wellFormed_of_ofDescriptors? accepted).toRegular
  have truthy := resolves.isPossiblyTruthy regular isOpen
  have verdict := Table.callbackVerdict?_of_isPossiblyTruthy callable truthy
  rw [Program.judgePredicateCall_eq predicate named, Program.judgeSignatures_finding? typed,
    if_neg (List.ne_nil_of_mem callable), verdict]
  split
  · rename_i escapes
    exact ⟨iff_of_true rfl escapes, by simp⟩
  · rename_i judged
    refine ⟨iff_of_false (by simp) judged, fun f found => ?_⟩
    simpa [eq_comm] using found

namespace Keep

/-!
The call `list.filter(keep)`, where `list` is an array of numbers and `keep` returns a type
parameter of which nothing is known.
-/

def descriptors : List Descriptor :=
  wellKnown ++
    [.array .number, .typeParameter "T" none, .object ⟨[], [], [⟨[.number], ⟨15⟩⟩]⟩]

def list : Expr :=
  .identifier ⟨⟨⟨0⟩, ⟨0, 4, 1, 1⟩⟩, "list"⟩

def callee : Expr :=
  .member ⟨⟨2⟩, ⟨0, 11, 1, 1⟩⟩ list (.named ⟨⟨⟨1⟩, ⟨5, 11, 1, 6⟩⟩, "filter"⟩) false

def callback : Expr :=
  .identifier ⟨⟨⟨3⟩, ⟨12, 16, 1, 13⟩⟩, "keep"⟩

def program : Program :=
  (Program.record ⟨.ofList descriptors, ∅, true⟩ list.id ⟨14⟩).record callback.id ⟨16⟩

private theorem ofDescriptors?_descriptors : Table.ofDescriptors? descriptors = .ok program.table :=
  Table.ofDescriptors?_eq_ok_iff.mpr ⟨⟨_, rfl⟩, by decide, rfl⟩

private theorem isPredicateMethod_callee : program.isPredicateMethod callee = true := by
  have recorded : program.typeOf? list.id = some ⟨14⟩ := by
    simp [program, list, callback, Expr.id, Expr.node]
  rw [callee, Program.isPredicateMethod, Program.constrainedType?_of_typeOf? recorded]
  decide

private theorem constrainedType?_callback : program.constrainedType? callback = some ⟨16⟩ := by
  have recorded : program.typeOf? callback.id = some ⟨16⟩ := by simp [program]
  rw [Program.constrainedType?_of_typeOf? recorded]
  decide

private theorem callSignatures_keep : program.table.callSignatures ⟨16⟩ = [⟨[.number], ⟨15⟩⟩] := by
  decide

private theorem isOpen_parameter : program.table.IsOpen ⟨15⟩ := by
  have entry : program.table.get? ⟨15⟩ = some (.typeParameter "T" none) := by decide
  exact .parameter entry

private theorem notFalsy_parameter : program.table.isPossiblyFalsy ⟨15⟩ = false := by
  decide

private theorem notAny_parameter : program.table.hasKind ⟨15⟩ [.any, .unknown] = false := by
  decide

end Keep

theorem keep_alwaysTruthy :
    Keep.program.isPredicateMethod Keep.callee = true ∧ Keep.callback.inlineResult? = none ∧
      Keep.program.table.callSignatures ⟨16⟩ = [⟨[.number], ⟨15⟩⟩] ∧
      Keep.program.table.IsOpen ⟨15⟩ ∧
      (Keep.program.judgePredicateCall Keep.callee [Keep.callback]).finding? =
        some ⟨.callbackAlwaysTruthy, Keep.callback.span, none⟩ := by
  have callable : ⟨[.number], ⟨15⟩⟩ ∈ Keep.program.table.callSignatures ⟨16⟩ := by
    rw [Keep.callSignatures_keep]
    exact List.mem_singleton.mpr rfl
  obtain ⟨passedOver, only⟩ := predicate_callback_open Keep.ofDescriptors?_descriptors
    Keep.isPredicateMethod_callee rfl Keep.constrainedType?_callback callable .self
    Keep.isOpen_parameter []
  refine ⟨Keep.isPredicateMethod_callee, rfl, Keep.callSignatures_keep, Keep.isOpen_parameter, ?_⟩
  cases found : (Keep.program.judgePredicateCall Keep.callee [Keep.callback]).finding? with
  | some f => rw [only f found]
  | none =>
      have escapes := passedOver.mp found
      simp [Keep.callSignatures_keep, Keep.notAny_parameter, Keep.notFalsy_parameter] at escapes

/-- A callback is judged although what it returns can be anything. -/
theorem not_forall_open_callback_undecided :
    ¬ ∀ (ds : List Descriptor) (p : Program) (callee callback : Expr) (rest : List Expr)
      (type : TypeId) (signature : Signature) (target : TypeId),
      Table.ofDescriptors? ds = .ok p.table → p.isPredicateMethod callee = true →
      callback.inlineResult? = none → p.constrainedType? callback = some type →
      signature ∈ p.table.callSignatures type →
      p.table.ResolvesTo signature.returnType target → p.table.IsOpen target →
      (p.judgePredicateCall callee (callback :: rest)).finding? = none := by
  intro undecided
  have callable : ⟨[.number], ⟨15⟩⟩ ∈ Keep.program.table.callSignatures ⟨16⟩ := by
    rw [Keep.callSignatures_keep]
    exact List.mem_singleton.mpr rfl
  have silent := undecided _ _ _ _ [] _ _ _ Keep.ofDescriptors?_descriptors
    Keep.isPredicateMethod_callee rfl Keep.constrainedType?_callback callable .self
    Keep.isOpen_parameter
  rw [Program.judgePredicateCall_eq Keep.isPredicateMethod_callee rfl,
    Program.judgeSignatures_finding? Keep.constrainedType?_callback, Keep.callSignatures_keep]
    at silent
  simp [Table.callbackVerdict?, Keep.notAny_parameter, Keep.notFalsy_parameter] at silent

end ConditionLint
