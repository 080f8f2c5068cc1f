import ConditionLint.Proofs.Sites.Undecidable
import ConditionLint.Proofs.Values.Instance

/-!
# Conditions on instances of generic intersections

What is reported on a condition whose type is an intersection with a type parameter, compared with
what is reported on a condition whose type is an instance of it.
-/

set_option autoImplicit false

namespace ConditionLint

namespace Program

/-- The verdict that is reported on a condition. -/
def conditionVerdict? (p : Program) (e : Expr) : Option Verdict :=
  (p.judgeCondition e).finding?.map Finding.verdict

/-- As a condition, the expression is judged by the type that is recorded for it. -/
structure JudgedBy (p : Program) (e : Expr) (type : TypeId) : Prop where
  plain : e.isDecider = true
  noElement : p.readsElement e = false
  recorded : p.typeOf? e.id = some type

/-- The verdict on a condition is that on the type of its deciding expression, or its opposite. -/
theorem conditionVerdict?_eq_of_typeOf? {p : Program} {e : Expr} {type : TypeId}
    (recorded : p.typeOf? e.decider.id = some type) :
    p.conditionVerdict? e =
      if p.readsElement e.decider then none
      else (p.table.conditionVerdict? type).map fun verdict =>
        if e.swaps false then verdict.negate else verdict := by
  have typed := constrainedType?_of_typeOf? recorded
  rw [conditionVerdict?, judgeCondition, judgeConditionUnder_eq]
  cases reads : p.readsElement e.decider with
  | true => simp [Judgement.doubtful, Judgement.finding?]
  | false =>
      rw [judgeTruth, typed, Table.conditionVerdict?]
      cases undecidable : p.table.isIndeterminate (p.table.constrained type) with
      | true => simp [undecidable, Judgement.doubtful, Judgement.finding?]
      | false =>
          cases fixed : p.table.truthVerdict? (p.table.constrained type) <;>
            simp [undecidable, fixed, Judgement.silent, Judgement.finding?]

theorem JudgedBy.conditionVerdict?_eq {p : Program} {e : Expr} {type : TypeId}
    (judged : p.JudgedBy e type) : p.conditionVerdict? e = p.table.conditionVerdict? type := by
  have itself := Expr.decider_of_isDecider judged.plain
  have recorded : p.typeOf? e.decider.id = some type := by
    rw [itself]
    exact judged.recorded
  rw [conditionVerdict?_eq_of_typeOf? recorded, itself, judged.noElement,
    Expr.swaps_of_isDecider judged.plain]
  simp

end Program

/-- The verdict on an intersection with a type parameter, compared with the verdict on its instance,
the intersection with a type in place of the parameter. "Always falsy" is kept, unless `any` takes
the instance over, or the parameter was all that was left and more is left of the instance than the
type, none of whose constituents is falsy. "Always truthy" is kept by an instance that is an
intersection exactly if all constituents of the type are solid. It is kept by any other instance
that is the type in place of the parameter alone, or in which nothing hides what it can be. -/
theorem conditionVerdict?_instance {t first second : Table} {p : Program} (reached : t.Reached)
    {parameter type : TypeId} (stands : t.StandsFor type parameter) {others : List TypeId}
    (contained : ∀ member ∈ others, t.contains member = true) {generic fixed : TypeId}
    (joined : t.intersection (parameter :: others) = (first, generic))
    (replaced : first.intersection (type :: others) = (second, fixed))
    (grows : second.Grows p.table) {e e' : Expr} (judged : p.JudgedBy e generic)
    (judged' : p.JudgedBy e' fixed) :
    (p.conditionVerdict? e = some .alwaysFalsy →
      ((p.conditionVerdict? e' = some .alwaysFalsy ∨ p.conditionVerdict? e' = some .never) ↔
        fixed ≠ .any ∧ (generic = parameter → fixed = type ∨
          ∃ part ∈ p.table.intersectionParts type,
            p.table.isFalsy (p.table.constrained part) = true))) ∧
    (p.conditionVerdict? e = some .alwaysTruthy →
      (∀ parts, p.table.get? fixed = some (.intersection parts) →
        ((p.conditionVerdict? e' = some .alwaysTruthy ∨ p.conditionVerdict? e' = some .never) ↔
          ∀ part ∈ p.table.intersectionParts type,
            p.table.Solid (p.table.constrained part))) ∧
      ((∀ parts, p.table.get? fixed ≠ some (.intersection parts)) →
        (generic = parameter ∧ fixed = type) ∨
          p.table.hasKind (p.table.constrained fixed) Table.hidingKinds = false →
        p.conditionVerdict? e' = some .alwaysTruthy ∨ p.conditionVerdict? e' = some .never)) := by
  have same := reached.instance stands contained joined replaced grows
  rw [judged.conditionVerdict?_eq, judged'.conditionVerdict?_eq]
  refine ⟨same.alwaysFalsy_iff, fun truthy => ⟨fun parts entry => ?_, ?_⟩⟩
  · exact same.alwaysTruthy_iff truthy entry
  · exact same.alwaysTruthy_of_single truthy

namespace Tagged

/-!
The names `x` of `T & { k: number }` and `y` of `string & { brand: true } & { k: number }`, where
`T` is under `string & { brand: true }`; and `u` of `U & { k: number }` and `v` of
`"a" & { k: number }`, where `U` is under `"a"`.
-/

def descriptors : List Descriptor :=
  wellKnown ++
    [.object ⟨[⟨"brand", .true⟩], [], []⟩, .object ⟨[⟨"k", .number⟩], [], []⟩,
      .intersection [.string, ⟨14⟩], .typeParameter "T" (some ⟨16⟩), .intersection [⟨15⟩, ⟨17⟩],
      .intersection [.string, ⟨14⟩, ⟨15⟩], .literal (.string "a"), .typeParameter "U" (some ⟨20⟩),
      .intersection [⟨15⟩, ⟨21⟩], .intersection [⟨15⟩, ⟨20⟩]]

def x : Expr :=
  .identifier ⟨⟨⟨0⟩, ⟨4, 5, 1, 5⟩⟩, "x"⟩

def y : Expr :=
  .identifier ⟨⟨⟨1⟩, ⟨12, 13, 1, 13⟩⟩, "y"⟩

def u : Expr :=
  .identifier ⟨⟨⟨2⟩, ⟨20, 21, 1, 21⟩⟩, "u"⟩

def v : Expr :=
  .identifier ⟨⟨⟨3⟩, ⟨28, 29, 1, 29⟩⟩, "v"⟩

def program : Program :=
  ((((⟨.ofList descriptors, ∅, true⟩ : Program).record x.id ⟨18⟩).record y.id ⟨19⟩).record
    u.id ⟨22⟩).record v.id ⟨23⟩

private theorem ofDescriptors?_descriptors : Table.ofDescriptors? descriptors = .ok program.table :=
  Table.ofDescriptors?_eq_ok_iff.mpr ⟨⟨_, rfl⟩, by decide, rfl⟩

private theorem reached_table : program.table.Reached :=
  ⟨program.table, .inr ⟨_, ofDescriptors?_descriptors⟩, .refl⟩

private theorem regular_table : program.table.Regular :=
  reached_table.wellFormed.toRegular

private theorem judgedBy_x : program.JudgedBy x ⟨18⟩ :=
  ⟨rfl, rfl, by simp [program, x, y, u, v, Expr.id, Expr.node]⟩

private theorem judgedBy_y : program.JudgedBy y ⟨19⟩ :=
  ⟨rfl, rfl, by simp [program, y, u, v, Expr.id, Expr.node]⟩

private theorem judgedBy_u : program.JudgedBy u ⟨22⟩ :=
  ⟨rfl, rfl, by simp [program, u, v, Expr.id, Expr.node]⟩

private theorem judgedBy_v : program.JudgedBy v ⟨23⟩ :=
  ⟨rfl, rfl, by simp [program]⟩

private theorem intersection_x : program.table.intersection [⟨17⟩, ⟨15⟩] = (program.table, ⟨18⟩) :=
  regular_table.intersection_of_get? (by decide) (by decide +kernel) rfl (by decide +kernel)

private theorem intersection_y : program.table.intersection [⟨16⟩, ⟨15⟩] = (program.table, ⟨19⟩) :=
  regular_table.intersection_of_get? (by decide) (by decide +kernel) rfl (by decide +kernel)

private theorem intersection_u : program.table.intersection [⟨21⟩, ⟨15⟩] = (program.table, ⟨22⟩) :=
  regular_table.intersection_of_get? (by decide) (by decide +kernel) rfl (by decide +kernel)

private theorem intersection_v : program.table.intersection [⟨20⟩, ⟨15⟩] = (program.table, ⟨23⟩) :=
  regular_table.intersection_of_get? (by decide) (by decide +kernel) rfl (by decide +kernel)

private theorem standsFor_branded : program.table.StandsFor ⟨16⟩ ⟨17⟩ :=
  ⟨by decide, by decide, "T", some ⟨16⟩, by decide +kernel, by simp⟩

private theorem standsFor_literal : program.table.StandsFor ⟨20⟩ ⟨21⟩ :=
  ⟨by decide, by decide, "U", some ⟨20⟩, by decide +kernel, by simp⟩

private theorem contains_tag :
    ∀ member ∈ [(⟨15⟩ : TypeId)], program.table.contains member = true := by
  decide

private theorem conditionVerdict?_x : program.conditionVerdict? x = some .alwaysTruthy := by
  rw [judgedBy_x.conditionVerdict?_eq]
  decide

private theorem conditionVerdict?_y : program.conditionVerdict? y = none := by
  rw [judgedBy_y.conditionVerdict?_eq]
  decide

private theorem conditionVerdict?_u : program.conditionVerdict? u = some .alwaysTruthy := by
  rw [judgedBy_u.conditionVerdict?_eq]
  decide

end Tagged

theorem tagged_literal_truthy :
    Tagged.program.table.Reached ∧ Tagged.program.table.StandsFor ⟨20⟩ ⟨21⟩ ∧
      Tagged.program.table.intersection [⟨21⟩, ⟨15⟩] = (Tagged.program.table, ⟨22⟩) ∧
      Tagged.program.table.intersection [⟨20⟩, ⟨15⟩] = (Tagged.program.table, ⟨23⟩) ∧
      Tagged.program.JudgedBy Tagged.u ⟨22⟩ ∧ Tagged.program.JudgedBy Tagged.v ⟨23⟩ ∧
      Tagged.program.conditionVerdict? Tagged.u = some .alwaysTruthy ∧
      (Tagged.program.conditionVerdict? Tagged.v = some .alwaysTruthy ∨
        Tagged.program.conditionVerdict? Tagged.v = some .never) := by
  obtain ⟨_, truthy⟩ := conditionVerdict?_instance Tagged.reached_table Tagged.standsFor_literal
    Tagged.contains_tag Tagged.intersection_u Tagged.intersection_v .refl Tagged.judgedBy_u
    Tagged.judgedBy_v
  have entry : Tagged.program.table.get? ⟨23⟩ = some (.intersection [⟨15⟩, ⟨20⟩]) := by
    decide
  have solid : ∀ part ∈ Tagged.program.table.intersectionParts ⟨20⟩,
      Tagged.program.table.Solid (Tagged.program.table.constrained part) := by
    decide
  exact ⟨Tagged.reached_table, Tagged.standsFor_literal, Tagged.intersection_u,
    Tagged.intersection_v, Tagged.judgedBy_u, Tagged.judgedBy_v, Tagged.conditionVerdict?_u,
    ((truthy Tagged.conditionVerdict?_u).1 _ entry).mpr solid⟩

/-- A verdict on an intersection with a type parameter is not kept when the constraint takes the
place of the parameter. -/
theorem not_forall_verdict_kept :
    ¬ ∀ (t first second : Table) (p : Program) (parameter type : TypeId) (others : List TypeId)
      (generic fixed : TypeId) (e e' : Expr) (verdict : Verdict),
      t.Reached → t.StandsFor type parameter →
      (∀ member ∈ others, t.contains member = true) →
      t.intersection (parameter :: others) = (first, generic) →
      first.intersection (type :: others) = (second, fixed) → second.Grows p.table →
      p.JudgedBy e generic → p.JudgedBy e' fixed →
      (verdict = .alwaysTruthy ∨ verdict = .alwaysFalsy) →
      p.conditionVerdict? e = some verdict →
      p.conditionVerdict? e' = some verdict ∨ p.conditionVerdict? e' = some .never := by
  intro kept
  have survives := kept _ _ _ Tagged.program _ _ _ _ _ _ _ _ Tagged.reached_table
    Tagged.standsFor_branded Tagged.contains_tag Tagged.intersection_x Tagged.intersection_y .refl
    Tagged.judgedBy_x Tagged.judgedBy_y (.inl rfl) Tagged.conditionVerdict?_x
  rw [Tagged.conditionVerdict?_y] at survives
  simp at survives

end ConditionLint
