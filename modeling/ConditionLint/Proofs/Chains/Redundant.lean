import ConditionLint.Proofs.Sites.Nullability
import ConditionLint.Proofs.Table.Union

/-!
# Redundant steps after an optional access

After `o?.p`, where `o` can be nullish, an optional step is reported as redundant if what is left
of the nullability comes from `o` alone. What the members of the type of `o` declare for `p` is
then never `null` or `undefined`; that it may be `void` is not looked at.
-/

set_option autoImplicit false

namespace ConditionLint

/-- The types that the members of a type declare for a name. -/
def Table.declaredTypes (t : Table) (object : TypeId) (name : String) : List TypeId :=
  (t.unionParts object).filterMap (t.propertyType? · name)

namespace Program

variable {p : Program} {tokens : TokenStream}

def ReportsStep (p : Program) (tokens : TokenStream) (step : Expr) : Prop :=
  ∃ operator replacement span type,
    p.judgeStep tokens step = .ok (.decided ⟨.redundantStep operator replacement, span, type⟩)

/-- An optional step is reported exactly if no element is passed on the way to it, its base is not
optionable, and the tokens hold it. -/
theorem reportsStep_iff {step base : Expr} {replacement : String}
    (optional : step.optionalStep? = some (base, replacement)) :
    p.ReportsStep tokens step ↔
      p.passesElement step = false ∧
        (∃ token, tokens.tokenAfter? base.span.stop (·.isPunctuator "?.") = some token) ∧
          ∃ type, p.constrainedType? base = some type ∧ p.isOptionable base type = false := by
  constructor
  · rintro ⟨_, _, _, _, judged⟩
    obtain ⟨base', replacement', type, token, same, passes, typed, notOptionable, spelled, _⟩ :=
      judgeStep_eq_decided_iff.mp judged
    rw [optional] at same
    cases same
    exact ⟨passes, ⟨token, spelled⟩, type, typed, notOptionable⟩
  · rintro ⟨passes, ⟨token, spelled⟩, type, typed, notOptionable⟩
    exact ⟨token.span, replacement, token.span, some type, judgeStep_eq_decided_iff.mpr
      ⟨base, replacement, type, token, optional, passes, typed, notOptionable, spelled, rfl⟩⟩

/-- The access `o?.p` where the type of `o` is a nullable union. It is typed as the union of
`undefined` and of what the members of that type declare for `p`. -/
structure Traces (p : Program) (node : Node) (o : Expr) (name : Identifier)
    (object : TypeId) : Prop where
  typed : p.constrainedType? o = some object
  union : p.table.isUnion object = true
  nullable : p.table.isNullable object = true
  joined : ∃ r, p.typeOf? node.id = some r ∧
    p.table.union (.undefined :: p.table.declaredTypes object name.name) = (p.table, r)

variable {node : Node} {o : Expr} {name : Identifier} {object : TypeId}

/-- Nullability comes from the object alone exactly if no member declares a nullable type for the
name or leaves it to an index signature. -/
theorem Traces.inheritsFromObject_iff (traces : p.Traces node o name object) :
    p.inheritsFromObject o (.named name) = true ↔
      (∀ declared ∈ p.table.declaredTypes object name.name, p.table.isNullable declared = false) ∧
        ∀ member ∈ p.table.unionParts object, p.table.propertyType? member name.name = none →
          .string ∉ p.table.indexKinds member := by
  have members : p.inheritsFromObject o (.named name) = true ↔
      ∀ member ∈ p.table.unionParts object,
        p.table.nameMayBeNullish name.name member = false := by
    simp [inheritsFromObject, traces.typed, traces.union, traces.nullable, declaresNullish?]
  rw [members]
  constructor
  · intro present
    constructor
    · intro declared included
      obtain ⟨member, belongs, declares⟩ := List.mem_filterMap.mp included
      simpa [Table.nameMayBeNullish, declares] using present member belongs
    · intro member belongs undeclared
      simpa [Table.nameMayBeNullish, undeclared] using present member belongs
  · rintro ⟨notNullable, noIndex⟩ member belongs
    cases declares : p.table.propertyType? member name.name with
    | some declared =>
        have included := List.mem_filterMap.mpr ⟨member, belongs, declares⟩
        simpa [Table.nameMayBeNullish, declares] using notNullable declared included
    | none => simpa [Table.nameMayBeNullish, declares] using noIndex member belongs declares

/-- A step on the access is not optionable exactly if the declared types can neither be anything
nor be nullish, and no index signature stands for the name. -/
theorem Traces.isOptionable_iff (traces : p.Traces node o name object)
    (wellFormed : p.table.WellFormed) :
    (∃ type, p.constrainedType? (.member node o (.named name) true) = some type ∧
      p.isOptionable (.member node o (.named name) true) type = false) ↔
      (∀ declared ∈ p.table.declaredTypes object name.name,
        p.table.hasKind declared (Kind.undecidable ++ Kind.nullable) = false) ∧
        ∀ member ∈ p.table.unionParts object, p.table.propertyType? member name.name = none →
          .string ∉ p.table.indexKinds member := by
  obtain ⟨r, recorded, joined⟩ := traces.joined
  have typed : p.constrainedType? (.member node o (.named name) true) = some r := by
    rw [constrainedType?]
    exact (congrArg _ recorded).trans (congrArg some (wellFormed.constrained_union joined))
  have nullable := wellFormed.isNullable_union joined
  have undecidable := wellFormed.hasKind_undecidable_union joined
  have optionable : p.isOptionable (.member node o (.named name) true) r = false ↔
      p.table.hasKind r Kind.undecidable = false ∧
        p.inheritsFromObject o (.named name) = true := by
    have split : p.isOptionable (.member node o (.named name) true) r =
        (p.table.hasKind r Kind.undecidable || (!p.inheritsFromObject o (.named name) &&
          (p.table.isNullable r || p.table.hasKind r [.void]))) := rfl
    rw [split]
    cases decidable : p.table.hasKind r Kind.undecidable with
    | true => simp
    | false => simp [nullable decidable]
  have decidable : p.table.hasKind r Kind.undecidable = false ↔
      ∀ declared ∈ p.table.declaredTypes object name.name,
        p.table.hasKind declared Kind.undecidable = false := by
    rw [Bool.eq_false_iff, ne_eq, undecidable]
    simp
  simp only [typed, Option.some.injEq, exists_eq_left', optionable, decidable,
    traces.inheritsFromObject_iff, Table.isNullable, Table.hasKind_append, Bool.or_eq_false_iff]
  constructor
  · rintro ⟨notOpen, notNullable, noIndex⟩
    exact ⟨fun declared included => ⟨notOpen declared included, notNullable declared included⟩,
      noIndex⟩
  · rintro ⟨present, noIndex⟩
    exact ⟨fun declared included => (present declared included).1,
      fun declared included => (present declared included).2, noIndex⟩

end Program

/-- An optional step on the access is reported exactly if it passes no element, the tokens hold it,
and what the members declare for the name is neither nullish nor open nor left to an index
signature. Of a reported step, no declared type has a nullish or `void` member exactly if none has
a `void` member. -/
theorem step_after_access {ds : List Descriptor} {p : Program}
    (accepted : Table.ofDescriptors? ds = .ok p.table) {node : Node} {o : Expr}
    {name : Identifier} {object : TypeId} (traces : p.Traces node o name object)
    {step : Expr} {replacement : String}
    (optional : step.optionalStep? = some (.member node o (.named name) true, replacement))
    (tokens : TokenStream) :
    (p.ReportsStep tokens step ↔
      p.passesElement step = false ∧
        (∃ token, tokens.tokenAfter? node.span.stop (·.isPunctuator "?.") = some token) ∧
        (∀ declared ∈ p.table.declaredTypes object name.name,
          p.table.hasKind declared (Kind.undecidable ++ Kind.nullable) = false) ∧
        ∀ member ∈ p.table.unionParts object, p.table.propertyType? member name.name = none →
          .string ∉ p.table.indexKinds member) ∧
      (p.ReportsStep tokens step →
        ((∀ declared ∈ p.table.declaredTypes object name.name,
            p.table.hasKind declared (Kind.nullable ++ [.void]) = false) ↔
          ∀ declared ∈ p.table.declaredTypes object name.name,
            p.table.hasKind declared [.void] = false)) := by
  have wellFormed := Table.wellFormed_of_ofDescriptors? accepted
  have reported := @Program.reportsStep_iff p tokens _ _ _ optional
  rw [traces.isOptionable_iff wellFormed] at reported
  refine ⟨reported, fun report => ?_⟩
  obtain ⟨_, _, present, _⟩ := reported.mp report
  constructor
  · intro none declared included
    have both := none declared included
    rw [Table.hasKind_append, Bool.or_eq_false_iff] at both
    exact both.2
  · intro noVoid declared included
    have both := present declared included
    rw [Table.hasKind_append, Bool.or_eq_false_iff] at both ⊢
    exact ⟨both.2, noVoid declared included⟩

namespace Outcome

/-!
The chain `o?.p?.q`, where `o` is `undefined` or an object that declares `void | { q: string }`
for `p`.
-/

def descriptors : List Descriptor :=
  wellKnown ++
    [.object ⟨[⟨"q", .string⟩], [], []⟩, .union [.void, ⟨14⟩], .object ⟨[⟨"p", ⟨15⟩⟩], [], []⟩,
      .union [.undefined, ⟨16⟩], .union [.void, .undefined, ⟨14⟩]]

def object : Expr :=
  .identifier ⟨⟨⟨0⟩, ⟨0, 1, 1, 1⟩⟩, "o"⟩

def node : Node :=
  ⟨⟨2⟩, ⟨0, 4, 1, 1⟩⟩

def name : Identifier :=
  ⟨⟨⟨1⟩, ⟨3, 4, 1, 4⟩⟩, "p"⟩

def step : Expr :=
  .member ⟨⟨4⟩, ⟨0, 7, 1, 1⟩⟩ (.member node object (.named name) true)
    (.named ⟨⟨⟨3⟩, ⟨6, 7, 1, 7⟩⟩, "q"⟩) true

def operator : Token where
  kind := .punctuator
  value := "?."
  span := ⟨4, 6, 1, 5⟩

def tokens : TokenStream where
  tokens := #[operator]
  ordered := List.pairwise_singleton _ _

def program : Program :=
  (Program.record ⟨.ofList descriptors, ∅, true⟩ object.id ⟨17⟩).record node.id ⟨18⟩

private theorem ofDescriptors?_descriptors : Table.ofDescriptors? descriptors = .ok program.table :=
  Table.ofDescriptors?_eq_ok_iff.mpr ⟨⟨_, rfl⟩, by decide +kernel, rfl⟩

private theorem declaredTypes_name : program.table.declaredTypes ⟨17⟩ name.name = [⟨15⟩] := by
  decide +kernel

private theorem traces : program.Traces node object name ⟨17⟩ where
  typed := by
    have recorded : program.typeOf? object.id = some ⟨17⟩ := by
      simp [program, object, node, Expr.id, Expr.node]
    rw [Program.constrainedType?, recorded]
    decide +kernel
  union := by decide +kernel
  nullable := by decide +kernel
  joined := by
    refine ⟨⟨18⟩, by simp [program], ?_⟩
    have wellFormed := Table.wellFormed_of_ofDescriptors? ofDescriptors?_descriptors
    rw [declaredTypes_name]
    have entry : program.table.get? ⟨18⟩ = some (.union [.void, .undefined, ⟨14⟩]) := by
      decide +kernel
    exact wellFormed.union_of_get? (by decide +kernel) (by decide +kernel) (by decide +kernel) entry

private theorem tokenAfter?_operator :
    tokens.tokenAfter? node.span.stop (·.isPunctuator "?.") = some operator := by
  simp [tokens, TokenStream.tokenAfter?, TokenStream.search, TokenStream.toList,
    TokenStream.size, node, operator, Token.isPunctuator]

private theorem optionalStep?_step :
    step.optionalStep? = some (.member node object (.named name) true, ".") := rfl

private theorem declaredTypes_present : ∀ declared ∈ program.table.declaredTypes ⟨17⟩ name.name,
    program.table.hasKind declared (Kind.undecidable ++ Kind.nullable) = false := by
  decide +kernel

private theorem indexKinds_undeclared : ∀ member ∈ program.table.unionParts ⟨17⟩,
    program.table.propertyType? member name.name = none →
      .string ∉ program.table.indexKinds member := by
  decide +kernel

private theorem not_forall_declared : ¬ ∀ declared ∈ program.table.declaredTypes ⟨17⟩ name.name,
    program.table.hasKind declared (Kind.nullable ++ [.void]) = false := by
  decide +kernel

end Outcome

theorem outcome_step_reported :
    Outcome.program.ReportsStep Outcome.tokens Outcome.step ∧
      ¬ ∀ declared ∈ Outcome.program.table.declaredTypes ⟨17⟩ Outcome.name.name,
        Outcome.program.table.hasKind declared [.void] = false := by
  obtain ⟨reported, exactly⟩ := step_after_access Outcome.ofDescriptors?_descriptors
    Outcome.traces Outcome.optionalStep?_step Outcome.tokens
  have report := reported.mpr ⟨rfl, ⟨_, Outcome.tokenAfter?_operator⟩,
    Outcome.declaredTypes_present, Outcome.indexKinds_undeclared⟩
  refine ⟨report, fun noVoid => ?_⟩
  exact Outcome.not_forall_declared ((exactly report).mpr noVoid)

/-- A step is reported although what it is made on is declared as possibly `void`. -/
theorem not_forall_reported_not_void :
    ¬ ∀ (ds : List Descriptor) (p : Program) (node : Node) (o : Expr) (name : Identifier)
      (object : TypeId) (step : Expr) (replacement : String) (tokens : TokenStream),
      Table.ofDescriptors? ds = .ok p.table → p.Traces node o name object →
      step.optionalStep? = some (.member node o (.named name) true, replacement) →
      p.ReportsStep tokens step →
      ∀ declared ∈ p.table.declaredTypes object name.name,
        p.table.hasKind declared (Kind.nullable ++ [.void]) = false := by
  intro sound
  have accepted := Outcome.ofDescriptors?_descriptors
  have notOptionable :=
    (Outcome.traces.isOptionable_iff (Table.wellFormed_of_ofDescriptors? accepted)).mpr
      ⟨Outcome.declaredTypes_present, Outcome.indexKinds_undeclared⟩
  have report : Outcome.program.ReportsStep Outcome.tokens Outcome.step :=
    (Program.reportsStep_iff Outcome.optionalStep?_step).mpr
      ⟨rfl, ⟨_, Outcome.tokenAfter?_operator⟩, notOptionable⟩
  exact Outcome.not_forall_declared
    (sound _ _ _ _ _ _ _ _ _ accepted Outcome.traces Outcome.optionalStep?_step report)

end ConditionLint
