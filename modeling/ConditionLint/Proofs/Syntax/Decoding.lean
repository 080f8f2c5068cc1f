import ConditionLint.Proofs.Syntax.Coding

/-!
# Trees that are read

Every place fits in a tree that is read, and the written form of the tree nests no deeper than what
it was read from: records and arrays in their place take one container alike, and a list that was
left out stands beside a span, which is never empty.
-/

set_option autoImplicit false

namespace ConditionLint

open Json

variable {limit levels : Nat} {j : Json}

/-!
## Leaves
-/

private theorem NodeId.nests (id : NodeId) : id.toJson.Nests limit :=
  .number trivial

theorem Span.keeps : Keeps Span.ofJson? Span.toJson Span.Fits := by
  intro j s limit within read
  have positive : ∃ below, limit = below + 1 := by
    unfold Span.ofJson? at read
    split at read
    · rename_i fields
      obtain ⟨below, rfl, _⟩ := within.of_fields? fields
      exact ⟨below, rfl⟩
    · cases read
  obtain ⟨below, rfl⟩ := positive
  have fits := Span.fits_of_ofJson? read
  exact ⟨fits.written.within.nests, fits⟩

private theorem pos_of_nests_span {s : Span} (nests : s.toJson.Nests limit) : 0 < limit := by
  obtain ⟨below, rfl, _⟩ := nests.of_object
  exact Nat.succ_pos below

theorem Node.keeps {id span : Option Json} {n : Node}
    (inside : ∀ value, span = some value → value.Within Number.InRange limit)
    (read : Node.ofFields? id span = some n) : n.span.toJson.Nests limit ∧ n.Fits := by
  simp only [Node.ofFields?, Option.bind_eq_bind, Option.bind_eq_some_iff, Option.pure_def,
    Option.some.injEq] at read
  obtain ⟨nodeId, idRead, place, spanRead, rfl⟩ := read
  obtain ⟨value, _, idRead⟩ := Option.bind_eq_some_iff.mp idRead
  obtain ⟨index, indexRead, rfl⟩ := Option.map_eq_some_iff.mp idRead
  obtain ⟨nests, spanFits⟩ := Span.keeps.required inside spanRead
  exact ⟨nests, lt_of_natBelow? indexRead, spanFits⟩

theorem Identifier.keeps :
    Keeps Identifier.ofJson? Identifier.toJson fun name => name.node.Fits := by
  intro j name limit within read
  unfold Identifier.ofJson? at read
  split at read
  · rename_i fields
    simp only [Option.bind_eq_bind, Option.bind_eq_some_iff, Option.pure_def, Option.some.injEq]
      at read
    obtain ⟨node, nodeRead, text, _, rfl⟩ := read
    obtain ⟨below, rfl, each⟩ := within.of_fields? fields
    simp only [List.forall_mem_cons] at each
    obtain ⟨_, _, spanIn, _⟩ := each
    obtain ⟨spanNests, fits⟩ := Node.keeps spanIn nodeRead
    refine ⟨.object ?_, fits⟩
    simp only [List.forall_mem_cons]
    exact ⟨node.id.nests, .string, spanNests, List.forall_mem_nil _⟩
  · cases read

theorem Literal.keeps {form : Form} :
    Keeps (Literal.ofJson? form) Literal.toJson Literal.IsFinite := by
  intro j value limit within read
  unfold Literal.ofJson? at read
  split at read
  · rename_i choice
    obtain ⟨below, rfl, _⟩ := within.of_choice? choice
    obtain ⟨text, _, rfl⟩ := Option.map_eq_some_iff.mp read
    exact ⟨.tag .string, trivial⟩
  · rename_i choice
    obtain ⟨below, rfl, payload⟩ := within.of_choice? choice
    obtain ⟨x, doubleRead, rfl⟩ := Option.map_eq_some_iff.mp read
    exact ⟨.tag (.number trivial), payload.numbersInRange.isFinite doubleRead⟩
  · rename_i choice
    obtain ⟨below, rfl, _⟩ := within.of_choice? choice
    obtain ⟨digits, _, rfl⟩ := Option.map_eq_some_iff.mp read
    exact ⟨.tag .string, trivial⟩
  · rename_i choice
    obtain ⟨below, rfl, _⟩ := within.of_choice? choice
    obtain ⟨value, _, rfl⟩ := Option.map_eq_some_iff.mp read
    exact ⟨.tag .bool, trivial⟩
  · obtain ⟨_, same⟩ := Option.ite_none_right_eq_some.mp read
    cases same
    exact ⟨.string, trivial⟩
  · cases read

/-!
## Rows and absent parts
-/

private theorem forall_visitsOfExprs {es : List Expr} :
    (∀ visit ∈ visitsOfExprs es, visit.Fits) ↔ ∀ e ∈ es, ∀ visit ∈ e.visits, visit.Fits := by
  induction es with
  | nil => simp [visitsOfExprs]
  | cons e es ih => rw [visitsOfExprs, List.forall_mem_append, List.forall_mem_cons, ih]

private theorem forall_visitsOfStmts {ss : List Stmt} :
    (∀ visit ∈ visitsOfStmts ss, visit.Fits) ↔ ∀ s ∈ ss, ∀ visit ∈ s.visits, visit.Fits := by
  induction ss with
  | nil => simp [visitsOfStmts]
  | cons s ss ih => rw [visitsOfStmts, List.forall_mem_append, List.forall_mem_cons, ih]

private theorem forall_visitsOfExpr? {value : Option Expr} :
    (∀ visit ∈ visitsOfExpr? value, visit.Fits) ↔
      ∀ e, value = some e → ∀ visit ∈ e.visits, visit.Fits := by
  cases value <;> simp [visitsOfExpr?]

private theorem forall_visitsOfStmt? {value : Option Stmt} :
    (∀ visit ∈ visitsOfStmt? value, visit.Fits) ↔
      ∀ s, value = some s → ∀ visit ∈ s.visits, visit.Fits := by
  cases value <;> simp [visitsOfStmt?]

private theorem forall_visitsOfForInit? {value : Option ForInit} :
    (∀ visit ∈ visitsOfForInit? value, visit.Fits) ↔
      ∀ init, value = some init → ∀ visit ∈ init.visits, visit.Fits := by
  cases value <;> simp [visitsOfForInit?]

private theorem nests_tagged {name : String} {members : List (String × Json)}
    (each : ∀ member ∈ members, member.2.Nests limit) :
    (tagged name members).Nests (limit + 2) :=
  .tag (.object each)

/-!
## One level
-/

/-- The readers of that many levels keep to places that fit. -/
structure KeepsAll (levels : Nat) : Prop where
  expr : Keeps (Expr.ofJson? levels) Expr.toJson fun e => ∀ visit ∈ e.visits, visit.Fits
  key : Keeps (MemberKey.ofJson? levels) MemberKey.toJson fun key =>
    ∀ visit ∈ key.visits, visit.Fits
  body : Keeps (FunctionBody.ofJson? levels) FunctionBody.toJson fun body =>
    ∀ visit ∈ body.visits, visit.Fits
  stmt : Keeps (Stmt.ofJson? levels) Stmt.toJson fun s => ∀ visit ∈ s.visits, visit.Fits
  variableDecl : Keeps (VariableDecl.ofJson? levels) VariableDecl.toJson fun declaration =>
    ∀ visit ∈ declaration.visits, visit.Fits
  forInit : Keeps (ForInit.ofJson? levels) ForInit.toJson fun init =>
    ∀ visit ∈ init.visits, visit.Fits
  block : Keeps (Block.ofJson? levels) Block.toJson fun braces =>
    ∀ visit ∈ braces.visits, visit.Fits

namespace KeepsAll

variable (keeps : KeepsAll levels)

include keeps in
/-- The record of an operator between two expressions. -/
theorem operands {name : String} {payload : Json} {idField operatorField leftField rightField
      spanField : Option Json} {node : Node} {left right : Expr}
    (within : j.Within Number.InRange limit) (choice : j.choice? = some (name, some payload))
    (fields : payload.fields? ["id", "operator", "left", "right", "span"] =
      some [idField, operatorField, leftField, rightField, spanField])
    (nodeRead : Node.ofFields? idField spanField = some node)
    (leftRead : required? (Expr.ofJson? levels) leftField = some left)
    (rightRead : required? (Expr.ofJson? levels) rightField = some right)
    {construct : String} (text : String) :
    (tagged construct
        [("id", node.id.toJson), ("operator", .string text), ("left", left.toJson),
          ("right", right.toJson), ("span", node.span.toJson)]).Nests limit ∧
      node.Fits ∧ (∀ visit ∈ left.visits, visit.Fits) ∧ ∀ visit ∈ right.visits, visit.Fits := by
  obtain ⟨below, rfl, each⟩ := within.of_record? choice fields
  simp only [List.forall_mem_cons] at each
  obtain ⟨_, _, leftIn, rightIn, spanIn, _⟩ := each
  obtain ⟨spanNests, nodeFits⟩ := Node.keeps spanIn nodeRead
  obtain ⟨leftNests, leftFits⟩ := keeps.expr.required leftIn leftRead
  obtain ⟨rightNests, rightFits⟩ := keeps.expr.required rightIn rightRead
  refine ⟨nests_tagged ?_, nodeFits, leftFits, rightFits⟩
  simp only [List.forall_mem_cons]
  exact ⟨node.id.nests, .string, leftNests, rightNests, spanNests, List.forall_mem_nil _⟩

include keeps in
theorem expr_succ :
    Keeps (Expr.ofJson? (levels + 1)) Expr.toJson fun e => ∀ visit ∈ e.visits, visit.Fits := by
  intro j e limit within read
  unfold Expr.ofJson? at read
  split at read
  · -- an identifier
    rename_i choice
    obtain ⟨below, rfl, payload⟩ := within.of_choice? choice
    obtain ⟨name, nameRead, rfl⟩ := Option.map_eq_some_iff.mp read
    obtain ⟨nests, fits⟩ := Identifier.keeps payload nameRead
    rw [Expr.toJson]
    refine ⟨.tag nests, ?_⟩
    simp only [Expr.visits, List.forall_mem_cons]
    exact ⟨fits, fits, List.forall_mem_nil _⟩
  · -- a literal
    rename_i choice
    split at read
    · rename_i fields
      simp only [Option.bind_eq_bind, Option.bind_eq_some_iff, Option.pure_def,
        Option.some.injEq] at read
      obtain ⟨node, nodeRead, value, valueRead, rfl⟩ := read
      obtain ⟨below, rfl, each⟩ := within.of_record? choice fields
      simp only [List.forall_mem_cons] at each
      obtain ⟨_, valueIn, spanIn, _⟩ := each
      obtain ⟨spanNests, nodeFits⟩ := Node.keeps spanIn nodeRead
      obtain ⟨valueNests, finite⟩ := Literal.keeps.required valueIn valueRead
      obtain ⟨id, span⟩ := node
      rw [Expr.toJson]
      refine ⟨nests_tagged ?_, ?_⟩
      · simp only [List.forall_mem_cons]
        exact ⟨id.nests, valueNests, spanNests, List.forall_mem_nil _⟩
      · simp only [Expr.visits, List.forall_mem_cons]
        exact ⟨⟨nodeFits, finite⟩, List.forall_mem_nil _⟩
    · cases read
  · -- a unary operator
    rename_i choice
    split at read
    · rename_i fields
      simp only [Option.bind_eq_bind, Option.bind_eq_some_iff, Option.pure_def,
        Option.some.injEq] at read
      obtain ⟨node, nodeRead, operator, _, operand, operandRead, rfl⟩ := read
      obtain ⟨below, rfl, each⟩ := within.of_record? choice fields
      simp only [List.forall_mem_cons] at each
      obtain ⟨_, _, operandIn, spanIn, _⟩ := each
      obtain ⟨spanNests, nodeFits⟩ := Node.keeps spanIn nodeRead
      obtain ⟨operandNests, operandFits⟩ := keeps.expr.required operandIn operandRead
      obtain ⟨id, span⟩ := node
      rw [Expr.toJson]
      refine ⟨nests_tagged ?_, ?_⟩
      · simp only [List.forall_mem_cons]
        exact ⟨id.nests, .string, operandNests, spanNests, List.forall_mem_nil _⟩
      · simp only [Expr.visits, List.forall_mem_cons]
        exact ⟨nodeFits, operandFits⟩
    · cases read
  · -- a binary operator
    rename_i choice
    split at read
    · rename_i fields
      simp only [Option.bind_eq_bind, Option.bind_eq_some_iff, Option.pure_def,
        Option.some.injEq] at read
      obtain ⟨⟨id, span⟩, nodeRead, operator, _, left, leftRead, right, rightRead, rfl⟩ := read
      obtain ⟨nests, fits⟩ :=
        keeps.operands within choice fields nodeRead leftRead rightRead operator.text
      rw [Expr.toJson]
      refine ⟨nests, ?_⟩
      simp only [Expr.visits, List.forall_mem_cons, List.forall_mem_append]
      exact fits
    · cases read
  · -- a logical operator
    rename_i choice
    split at read
    · rename_i fields
      simp only [Option.bind_eq_bind, Option.bind_eq_some_iff, Option.pure_def,
        Option.some.injEq] at read
      obtain ⟨⟨id, span⟩, nodeRead, operator, _, left, leftRead, right, rightRead, rfl⟩ := read
      obtain ⟨nests, fits⟩ :=
        keeps.operands within choice fields nodeRead leftRead rightRead operator.text
      rw [Expr.toJson]
      refine ⟨nests, ?_⟩
      simp only [Expr.visits, List.forall_mem_cons, List.forall_mem_append]
      exact fits
    · cases read
  · -- an assignment
    rename_i choice
    split at read
    · rename_i fields
      simp only [Option.bind_eq_bind, Option.bind_eq_some_iff, Option.pure_def,
        Option.some.injEq] at read
      obtain ⟨⟨id, span⟩, nodeRead, operator, _, left, leftRead, right, rightRead, rfl⟩ := read
      obtain ⟨nests, fits⟩ :=
        keeps.operands within choice fields nodeRead leftRead rightRead operator.text
      rw [Expr.toJson]
      refine ⟨nests, ?_⟩
      simp only [Expr.visits, List.forall_mem_cons, List.forall_mem_append]
      exact fits
    · cases read
  · -- a conditional
    rename_i choice
    split at read
    · rename_i fields
      simp only [Option.bind_eq_bind, Option.bind_eq_some_iff, Option.pure_def,
        Option.some.injEq] at read
      obtain ⟨node, nodeRead, test, testRead, consequent, consequentRead, alternate,
        alternateRead, rfl⟩ := read
      obtain ⟨below, rfl, each⟩ := within.of_record? choice fields
      simp only [List.forall_mem_cons] at each
      obtain ⟨_, testIn, consequentIn, alternateIn, spanIn, _⟩ := each
      obtain ⟨spanNests, nodeFits⟩ := Node.keeps spanIn nodeRead
      obtain ⟨testNests, testFits⟩ := keeps.expr.required testIn testRead
      obtain ⟨consequentNests, consequentFits⟩ := keeps.expr.required consequentIn consequentRead
      obtain ⟨alternateNests, alternateFits⟩ := keeps.expr.required alternateIn alternateRead
      obtain ⟨id, span⟩ := node
      rw [Expr.toJson]
      refine ⟨nests_tagged ?_, ?_⟩
      · simp only [List.forall_mem_cons]
        exact ⟨id.nests, testNests, consequentNests, alternateNests, spanNests,
          List.forall_mem_nil _⟩
      · simp only [Expr.visits, List.forall_mem_cons, List.forall_mem_append]
        exact ⟨nodeFits, ⟨testFits, consequentFits⟩, alternateFits⟩
    · cases read
  · -- a member access
    rename_i choice
    split at read
    · rename_i fields
      simp only [Option.bind_eq_bind, Option.bind_eq_some_iff, Option.pure_def,
        Option.some.injEq] at read
      obtain ⟨node, nodeRead, target, targetRead, key, keyRead, optional, _, rfl⟩ := read
      obtain ⟨below, rfl, each⟩ := within.of_record? choice fields
      simp only [List.forall_mem_cons] at each
      obtain ⟨_, targetIn, keyIn, _, spanIn, _⟩ := each
      obtain ⟨spanNests, nodeFits⟩ := Node.keeps spanIn nodeRead
      obtain ⟨targetNests, targetFits⟩ := keeps.expr.required targetIn targetRead
      obtain ⟨keyNests, keyFits⟩ := keeps.key.required keyIn keyRead
      obtain ⟨id, span⟩ := node
      rw [Expr.toJson]
      refine ⟨nests_tagged ?_, ?_⟩
      · simp only [List.forall_mem_cons]
        exact ⟨id.nests, targetNests, keyNests, .bool, spanNests, List.forall_mem_nil _⟩
      · simp only [Expr.visits, List.forall_mem_cons, List.forall_mem_append]
        exact ⟨nodeFits, targetFits, keyFits⟩
    · cases read
  · -- a call
    rename_i choice
    split at read
    · rename_i fields
      simp only [Option.bind_eq_bind, Option.bind_eq_some_iff, Option.pure_def,
        Option.some.injEq] at read
      obtain ⟨node, nodeRead, callee, calleeRead, arguments, argumentsRead, optional,
        _, rfl⟩ := read
      obtain ⟨below, rfl, each⟩ := within.of_record? choice fields
      simp only [List.forall_mem_cons] at each
      obtain ⟨_, calleeIn, argumentsIn, _, spanIn, _⟩ := each
      obtain ⟨spanNests, nodeFits⟩ := Node.keeps spanIn nodeRead
      obtain ⟨calleeNests, calleeFits⟩ := keeps.expr.required calleeIn calleeRead
      obtain ⟨argumentsNest, argumentsFit⟩ := keeps.expr.list.required argumentsIn argumentsRead
      obtain ⟨id, span⟩ := node
      rw [Expr.toJson, exprsToJson_eq_map]
      refine ⟨nests_tagged ?_, ?_⟩
      · simp only [List.forall_mem_cons]
        exact ⟨id.nests, calleeNests, argumentsNest, .bool, spanNests, List.forall_mem_nil _⟩
      · simp only [Expr.visits, List.forall_mem_cons, List.forall_mem_append,
          forall_visitsOfExprs]
        exact ⟨nodeFits, calleeFits, argumentsFit⟩
    · cases read
  · -- a chain
    rename_i choice
    split at read
    · rename_i fields
      simp only [Option.bind_eq_bind, Option.bind_eq_some_iff, Option.pure_def,
        Option.some.injEq] at read
      obtain ⟨node, nodeRead, inner, innerRead, rfl⟩ := read
      obtain ⟨below, rfl, each⟩ := within.of_record? choice fields
      simp only [List.forall_mem_cons] at each
      obtain ⟨_, innerIn, spanIn, _⟩ := each
      obtain ⟨spanNests, nodeFits⟩ := Node.keeps spanIn nodeRead
      obtain ⟨innerNests, innerFits⟩ := keeps.expr.required innerIn innerRead
      obtain ⟨id, span⟩ := node
      rw [Expr.toJson]
      refine ⟨nests_tagged ?_, ?_⟩
      · simp only [List.forall_mem_cons]
        exact ⟨id.nests, innerNests, spanNests, List.forall_mem_nil _⟩
      · simp only [Expr.visits, List.forall_mem_cons]
        exact ⟨nodeFits, innerFits⟩
    · cases read
  · -- a non-null assertion
    rename_i choice
    split at read
    · rename_i fields
      simp only [Option.bind_eq_bind, Option.bind_eq_some_iff, Option.pure_def,
        Option.some.injEq] at read
      obtain ⟨node, nodeRead, inner, innerRead, rfl⟩ := read
      obtain ⟨below, rfl, each⟩ := within.of_record? choice fields
      simp only [List.forall_mem_cons] at each
      obtain ⟨_, innerIn, spanIn, _⟩ := each
      obtain ⟨spanNests, nodeFits⟩ := Node.keeps spanIn nodeRead
      obtain ⟨innerNests, innerFits⟩ := keeps.expr.required innerIn innerRead
      obtain ⟨id, span⟩ := node
      rw [Expr.toJson]
      refine ⟨nests_tagged ?_, ?_⟩
      · simp only [List.forall_mem_cons]
        exact ⟨id.nests, innerNests, spanNests, List.forall_mem_nil _⟩
      · simp only [Expr.visits, List.forall_mem_cons]
        exact ⟨nodeFits, innerFits⟩
    · cases read
  · -- a function
    rename_i choice
    split at read
    · rename_i fields
      simp only [Option.bind_eq_bind, Option.bind_eq_some_iff, Option.pure_def,
        Option.some.injEq] at read
      obtain ⟨node, nodeRead, params, paramsRead, body, bodyRead, isArrow, _, rfl⟩ := read
      obtain ⟨below, rfl, each⟩ := within.of_record? choice fields
      simp only [List.forall_mem_cons] at each
      obtain ⟨_, paramsIn, bodyIn, _, spanIn, _⟩ := each
      obtain ⟨spanNests, nodeFits⟩ := Node.keeps spanIn nodeRead
      obtain ⟨paramsNest, paramsFit⟩ := Identifier.keeps.list.required paramsIn paramsRead
      obtain ⟨bodyNests, bodyFits⟩ := keeps.body.required bodyIn bodyRead
      obtain ⟨id, span⟩ := node
      rw [Expr.toJson]
      refine ⟨nests_tagged ?_, ?_⟩
      · simp only [List.forall_mem_cons]
        exact ⟨id.nests, paramsNest, bodyNests, .bool, spanNests, List.forall_mem_nil _⟩
      · simp only [Expr.visits, FunctionExpr.visits, List.forall_mem_cons, List.forall_mem_append,
          List.forall_mem_map]
        exact ⟨nodeFits, trivial, paramsFit, bodyFits⟩
    · cases read
  · -- another construct
    rename_i choice
    split at read
    · rename_i fields
      simp only [Option.bind_eq_bind, Option.bind_eq_some_iff, Option.pure_def,
        Option.some.injEq] at read
      obtain ⟨node, nodeRead, children, childrenRead, rfl⟩ := read
      obtain ⟨below, rfl, each⟩ := within.of_record? choice fields
      simp only [List.forall_mem_cons] at each
      obtain ⟨_, childrenIn, spanIn, _⟩ := each
      obtain ⟨spanNests, nodeFits⟩ := Node.keeps spanIn nodeRead
      obtain ⟨childrenNest, childrenFit⟩ :=
        keeps.expr.defaulted childrenIn (pos_of_nests_span spanNests) childrenRead
      obtain ⟨id, span⟩ := node
      rw [Expr.toJson, exprsToJson_eq_map]
      refine ⟨nests_tagged ?_, ?_⟩
      · simp only [List.forall_mem_cons]
        exact ⟨id.nests, childrenNest, spanNests, List.forall_mem_nil _⟩
      · simp only [Expr.visits, List.forall_mem_cons, forall_visitsOfExprs]
        exact ⟨nodeFits, childrenFit⟩
    · cases read
  · cases read

include keeps in
theorem stmt_succ :
    Keeps (Stmt.ofJson? (levels + 1)) Stmt.toJson fun s => ∀ visit ∈ s.visits, visit.Fits := by
  intro j s limit within read
  unfold Stmt.ofJson? at read
  split at read
  · -- an expression
    rename_i choice
    split at read
    · rename_i fields
      simp only [Option.bind_eq_bind, Option.bind_eq_some_iff, Option.pure_def,
        Option.some.injEq] at read
      obtain ⟨value, valueRead, span, spanRead, rfl⟩ := read
      obtain ⟨below, rfl, each⟩ := within.of_record? choice fields
      simp only [List.forall_mem_cons] at each
      obtain ⟨valueIn, spanIn, _⟩ := each
      obtain ⟨valueNests, valueFits⟩ := keeps.expr.required valueIn valueRead
      obtain ⟨spanNests, spanFits⟩ := Span.keeps.required spanIn spanRead
      rw [Stmt.toJson]
      refine ⟨nests_tagged ?_, ?_⟩
      · simp only [List.forall_mem_cons]
        exact ⟨valueNests, spanNests, List.forall_mem_nil _⟩
      · simp only [Stmt.visits, List.forall_mem_cons]
        exact ⟨spanFits, valueFits⟩
    · cases read
  · -- a variable declaration
    rename_i choice
    obtain ⟨below, rfl, payload⟩ := within.of_choice? choice
    obtain ⟨declaration, declarationRead, rfl⟩ := Option.map_eq_some_iff.mp read
    obtain ⟨nests, fits⟩ := keeps.variableDecl payload declarationRead
    have spanFits : declaration.span.Fits := by
      cases declaration
      rw [VariableDecl.visits] at fits
      exact fits _ List.mem_cons_self
    rw [Stmt.toJson]
    refine ⟨.tag nests, ?_⟩
    simp only [Stmt.visits, List.forall_mem_cons]
    exact ⟨spanFits, fits⟩
  · -- a function declaration
    rename_i choice
    split at read
    · rename_i fields
      simp only [Option.bind_eq_bind, Option.bind_eq_some_iff, Option.pure_def,
        Option.some.injEq] at read
      obtain ⟨name, nameRead, params, paramsRead, body, bodyRead, span, spanRead, rfl⟩ := read
      obtain ⟨below, rfl, each⟩ := within.of_record? choice fields
      simp only [List.forall_mem_cons] at each
      obtain ⟨nameIn, paramsIn, bodyIn, spanIn, _⟩ := each
      obtain ⟨spanNests, spanFits⟩ := Span.keeps.required spanIn spanRead
      obtain ⟨nameNests, nameFits⟩ := Identifier.keeps.required nameIn nameRead
      obtain ⟨paramsNest, paramsFit⟩ :=
        Identifier.keeps.defaulted paramsIn (pos_of_nests_span spanNests) paramsRead
      obtain ⟨bodyNests, bodyFits⟩ := keeps.block.required bodyIn bodyRead
      rw [Stmt.toJson, FunctionDecl.toJson]
      refine ⟨nests_tagged ?_, ?_⟩
      · simp only [List.forall_mem_cons]
        exact ⟨nameNests, paramsNest, bodyNests, spanNests, List.forall_mem_nil _⟩
      · simp only [Stmt.visits, FunctionDecl.visits, List.forall_mem_cons, List.cons_append,
          List.forall_mem_append, List.forall_mem_map]
        exact ⟨spanFits, spanFits, nameFits, paramsFit, bodyFits⟩
    · cases read
  · -- a return
    rename_i choice
    split at read
    · rename_i fields
      simp only [Option.bind_eq_bind, Option.bind_eq_some_iff, Option.pure_def,
        Option.some.injEq] at read
      obtain ⟨value, valueRead, span, spanRead, rfl⟩ := read
      obtain ⟨below, rfl, each⟩ := within.of_record? choice fields
      simp only [List.forall_mem_cons] at each
      obtain ⟨valueIn, spanIn, _⟩ := each
      obtain ⟨valueNests, valueFits⟩ := keeps.expr.optional valueIn valueRead
      obtain ⟨spanNests, spanFits⟩ := Span.keeps.required spanIn spanRead
      rw [Stmt.toJson, exprToJson?_eq_ofOption]
      refine ⟨nests_tagged ?_, ?_⟩
      · simp only [List.forall_mem_cons]
        exact ⟨valueNests, spanNests, List.forall_mem_nil _⟩
      · simp only [Stmt.visits, List.forall_mem_cons, forall_visitsOfExpr?]
        exact ⟨spanFits, valueFits⟩
    · cases read
  · -- a branch
    rename_i choice
    split at read
    · rename_i fields
      simp only [Option.bind_eq_bind, Option.bind_eq_some_iff, Option.pure_def,
        Option.some.injEq] at read
      obtain ⟨condition, conditionRead, thenBranch, thenRead, elseBranch, elseRead, span,
        spanRead, rfl⟩ := read
      obtain ⟨below, rfl, each⟩ := within.of_record? choice fields
      simp only [List.forall_mem_cons] at each
      obtain ⟨conditionIn, thenIn, elseIn, spanIn, _⟩ := each
      obtain ⟨conditionNests, conditionFits⟩ := keeps.expr.required conditionIn conditionRead
      obtain ⟨thenNests, thenFits⟩ := keeps.stmt.required thenIn thenRead
      obtain ⟨elseNests, elseFits⟩ := keeps.stmt.optional elseIn elseRead
      obtain ⟨spanNests, spanFits⟩ := Span.keeps.required spanIn spanRead
      rw [Stmt.toJson, stmtToJson?_eq_ofOption]
      refine ⟨nests_tagged ?_, ?_⟩
      · simp only [List.forall_mem_cons]
        exact ⟨conditionNests, thenNests, elseNests, spanNests, List.forall_mem_nil _⟩
      · simp only [Stmt.visits, List.forall_mem_cons, List.forall_mem_append,
          forall_visitsOfStmt?]
        exact ⟨spanFits, ⟨conditionFits, thenFits⟩, elseFits⟩
    · cases read
  · -- a while loop
    rename_i choice
    split at read
    · rename_i fields
      simp only [Option.bind_eq_bind, Option.bind_eq_some_iff, Option.pure_def,
        Option.some.injEq] at read
      obtain ⟨condition, conditionRead, body, bodyRead, span, spanRead, rfl⟩ := read
      obtain ⟨below, rfl, each⟩ := within.of_record? choice fields
      simp only [List.forall_mem_cons] at each
      obtain ⟨conditionIn, bodyIn, spanIn, _⟩ := each
      obtain ⟨conditionNests, conditionFits⟩ := keeps.expr.required conditionIn conditionRead
      obtain ⟨bodyNests, bodyFits⟩ := keeps.stmt.required bodyIn bodyRead
      obtain ⟨spanNests, spanFits⟩ := Span.keeps.required spanIn spanRead
      rw [Stmt.toJson]
      refine ⟨nests_tagged ?_, ?_⟩
      · simp only [List.forall_mem_cons]
        exact ⟨conditionNests, bodyNests, spanNests, List.forall_mem_nil _⟩
      · simp only [Stmt.visits, List.forall_mem_cons, List.forall_mem_append]
        exact ⟨spanFits, conditionFits, bodyFits⟩
    · cases read
  · -- a do-while loop
    rename_i choice
    split at read
    · rename_i fields
      simp only [Option.bind_eq_bind, Option.bind_eq_some_iff, Option.pure_def,
        Option.some.injEq] at read
      obtain ⟨body, bodyRead, condition, conditionRead, span, spanRead, rfl⟩ := read
      obtain ⟨below, rfl, each⟩ := within.of_record? choice fields
      simp only [List.forall_mem_cons] at each
      obtain ⟨bodyIn, conditionIn, spanIn, _⟩ := each
      obtain ⟨bodyNests, bodyFits⟩ := keeps.stmt.required bodyIn bodyRead
      obtain ⟨conditionNests, conditionFits⟩ := keeps.expr.required conditionIn conditionRead
      obtain ⟨spanNests, spanFits⟩ := Span.keeps.required spanIn spanRead
      rw [Stmt.toJson]
      refine ⟨nests_tagged ?_, ?_⟩
      · simp only [List.forall_mem_cons]
        exact ⟨bodyNests, conditionNests, spanNests, List.forall_mem_nil _⟩
      · simp only [Stmt.visits, List.forall_mem_cons, List.forall_mem_append]
        exact ⟨spanFits, bodyFits, conditionFits⟩
    · cases read
  · -- a for loop
    rename_i choice
    split at read
    · rename_i fields
      simp only [Option.bind_eq_bind, Option.bind_eq_some_iff, Option.pure_def,
        Option.some.injEq] at read
      obtain ⟨init, initRead, test, testRead, update, updateRead, body, bodyRead, span,
        spanRead, rfl⟩ := read
      obtain ⟨below, rfl, each⟩ := within.of_record? choice fields
      simp only [List.forall_mem_cons] at each
      obtain ⟨initIn, testIn, updateIn, bodyIn, spanIn, _⟩ := each
      obtain ⟨initNests, initFits⟩ := keeps.forInit.optional initIn initRead
      obtain ⟨testNests, testFits⟩ := keeps.expr.optional testIn testRead
      obtain ⟨updateNests, updateFits⟩ := keeps.expr.optional updateIn updateRead
      obtain ⟨bodyNests, bodyFits⟩ := keeps.stmt.required bodyIn bodyRead
      obtain ⟨spanNests, spanFits⟩ := Span.keeps.required spanIn spanRead
      rw [Stmt.toJson, forInitToJson?_eq_ofOption, exprToJson?_eq_ofOption test,
        exprToJson?_eq_ofOption update]
      refine ⟨nests_tagged ?_, ?_⟩
      · simp only [List.forall_mem_cons]
        exact ⟨initNests, testNests, updateNests, bodyNests, spanNests, List.forall_mem_nil _⟩
      · simp only [Stmt.visits, List.forall_mem_cons, List.forall_mem_append,
          forall_visitsOfForInit?, forall_visitsOfExpr?]
        exact ⟨spanFits, ⟨⟨initFits, testFits⟩, updateFits⟩, bodyFits⟩
    · cases read
  · -- a block
    rename_i choice
    obtain ⟨below, rfl, payload⟩ := within.of_choice? choice
    obtain ⟨braces, bracesRead, rfl⟩ := Option.map_eq_some_iff.mp read
    obtain ⟨nests, fits⟩ := keeps.block payload bracesRead
    have spanFits : braces.span.Fits := by
      cases braces
      rw [Block.visits] at fits
      exact fits _ List.mem_cons_self
    rw [Stmt.toJson]
    refine ⟨.tag nests, ?_⟩
    simp only [Stmt.visits, List.forall_mem_cons]
    exact ⟨spanFits, fits⟩
  · -- an empty statement
    rename_i choice
    obtain ⟨below, rfl, payload⟩ := within.of_choice? choice
    obtain ⟨span, spanRead, rfl⟩ := Option.map_eq_some_iff.mp read
    obtain ⟨nests, fits⟩ := Span.keeps payload spanRead
    rw [Stmt.toJson]
    refine ⟨.tag nests, ?_⟩
    simp only [Stmt.visits, List.forall_mem_cons]
    exact ⟨fits, List.forall_mem_nil _⟩
  · cases read

include keeps in
theorem key_succ :
    Keeps (MemberKey.ofJson? (levels + 1)) MemberKey.toJson fun key =>
      ∀ visit ∈ key.visits, visit.Fits := by
  intro j key limit within read
  unfold MemberKey.ofJson? at read
  split at read
  · rename_i choice
    obtain ⟨below, rfl, payload⟩ := within.of_choice? choice
    obtain ⟨name, nameRead, rfl⟩ := Option.map_eq_some_iff.mp read
    obtain ⟨nests, fits⟩ := Identifier.keeps payload nameRead
    rw [MemberKey.toJson]
    refine ⟨.tag nests, ?_⟩
    simp only [MemberKey.visits, List.forall_mem_singleton]
    exact fits
  · rename_i choice
    obtain ⟨below, rfl, payload⟩ := within.of_choice? choice
    obtain ⟨inner, innerRead, rfl⟩ := Option.map_eq_some_iff.mp read
    obtain ⟨nests, fits⟩ := keeps.expr payload innerRead
    rw [MemberKey.toJson]
    refine ⟨.tag nests, ?_⟩
    simp only [MemberKey.visits]
    exact fits
  · cases read

include keeps in
theorem body_succ :
    Keeps (FunctionBody.ofJson? (levels + 1)) FunctionBody.toJson fun body =>
      ∀ visit ∈ body.visits, visit.Fits := by
  intro j body limit within read
  unfold FunctionBody.ofJson? at read
  split at read
  · rename_i choice
    obtain ⟨below, rfl, payload⟩ := within.of_choice? choice
    obtain ⟨value, valueRead, rfl⟩ := Option.map_eq_some_iff.mp read
    obtain ⟨nests, fits⟩ := keeps.expr payload valueRead
    rw [FunctionBody.toJson]
    refine ⟨.tag nests, ?_⟩
    simp only [FunctionBody.visits]
    exact fits
  · rename_i choice
    obtain ⟨below, rfl, payload⟩ := within.of_choice? choice
    obtain ⟨braces, bracesRead, rfl⟩ := Option.map_eq_some_iff.mp read
    obtain ⟨nests, fits⟩ := keeps.block payload bracesRead
    rw [FunctionBody.toJson]
    refine ⟨.tag nests, ?_⟩
    simp only [FunctionBody.visits]
    exact fits
  · cases read

include keeps in
theorem variableDecl_succ :
    Keeps (VariableDecl.ofJson? (levels + 1)) VariableDecl.toJson fun declaration =>
      ∀ visit ∈ declaration.visits, visit.Fits := by
  intro j declaration limit within read
  unfold VariableDecl.ofJson? at read
  split at read
  · rename_i fields
    simp only [Option.bind_eq_bind, Option.bind_eq_some_iff, Option.pure_def, Option.some.injEq]
      at read
    obtain ⟨kind, _, name, nameRead, initializer, initializerRead, span, spanRead, rfl⟩ := read
    obtain ⟨below, rfl, each⟩ := within.of_fields? fields
    simp only [List.forall_mem_cons] at each
    obtain ⟨_, nameIn, initializerIn, spanIn, _⟩ := each
    obtain ⟨nameNests, nameFits⟩ := Identifier.keeps.required nameIn nameRead
    obtain ⟨initializerNests, initializerFits⟩ :=
      keeps.expr.optional initializerIn initializerRead
    obtain ⟨spanNests, spanFits⟩ := Span.keeps.required spanIn spanRead
    rw [VariableDecl.toJson, exprToJson?_eq_ofOption]
    refine ⟨.object ?_, ?_⟩
    · simp only [List.forall_mem_cons]
      exact ⟨.string, nameNests, initializerNests, spanNests, List.forall_mem_nil _⟩
    · simp only [VariableDecl.visits, List.forall_mem_cons, forall_visitsOfExpr?]
      exact ⟨spanFits, nameFits, initializerFits⟩
  · cases read

include keeps in
theorem forInit_succ :
    Keeps (ForInit.ofJson? (levels + 1)) ForInit.toJson fun init =>
      ∀ visit ∈ init.visits, visit.Fits := by
  intro j init limit within read
  unfold ForInit.ofJson? at read
  split at read
  · rename_i choice
    obtain ⟨below, rfl, payload⟩ := within.of_choice? choice
    obtain ⟨declaration, declarationRead, rfl⟩ := Option.map_eq_some_iff.mp read
    obtain ⟨nests, fits⟩ := keeps.variableDecl payload declarationRead
    rw [ForInit.toJson]
    refine ⟨.tag nests, ?_⟩
    simp only [ForInit.visits]
    exact fits
  · rename_i choice
    obtain ⟨below, rfl, payload⟩ := within.of_choice? choice
    obtain ⟨value, valueRead, rfl⟩ := Option.map_eq_some_iff.mp read
    obtain ⟨nests, fits⟩ := keeps.expr payload valueRead
    rw [ForInit.toJson]
    refine ⟨.tag nests, ?_⟩
    simp only [ForInit.visits]
    exact fits
  · cases read

include keeps in
theorem block_succ :
    Keeps (Block.ofJson? (levels + 1)) Block.toJson fun braces =>
      ∀ visit ∈ braces.visits, visit.Fits := by
  intro j braces limit within read
  unfold Block.ofJson? at read
  split at read
  · rename_i fields
    simp only [Option.bind_eq_bind, Option.bind_eq_some_iff, Option.pure_def, Option.some.injEq]
      at read
    obtain ⟨statements, statementsRead, span, spanRead, rfl⟩ := read
    obtain ⟨below, rfl, each⟩ := within.of_fields? fields
    simp only [List.forall_mem_cons] at each
    obtain ⟨statementsIn, spanIn, _⟩ := each
    obtain ⟨statementsNest, statementsFit⟩ := keeps.stmt.list.required statementsIn statementsRead
    obtain ⟨spanNests, spanFits⟩ := Span.keeps.required spanIn spanRead
    rw [Block.toJson, stmtsToJson_eq_map]
    refine ⟨.object ?_, ?_⟩
    · simp only [List.forall_mem_cons]
      exact ⟨statementsNest, spanNests, List.forall_mem_nil _⟩
    · simp only [Block.visits, List.forall_mem_cons, forall_visitsOfStmts]
      exact ⟨spanFits, statementsFit⟩
  · cases read

end KeepsAll

/-!
## All levels
-/

theorem keepsAll (levels : Nat) : KeepsAll levels := by
  induction levels with
  | zero => constructor <;> intro _ _ _ _ read <;> cases read
  | succ levels ih =>
      exact ⟨ih.expr_succ, ih.key_succ, ih.body_succ, ih.stmt_succ, ih.variableDecl_succ,
        ih.forInit_succ, ih.block_succ⟩

theorem SyntaxTree.keeps (levels : Nat) :
    Keeps (SyntaxTree.ofJson? levels) SyntaxTree.toJson fun tree =>
      ∀ visit ∈ tree.visits, visit.Fits := by
  intro j tree limit within read
  unfold SyntaxTree.ofJson? at read
  split at read
  · rename_i fields
    simp only [Option.bind_eq_bind, Option.bind_eq_some_iff, Option.pure_def, Option.some.injEq]
      at read
    obtain ⟨statements, statementsRead, span, spanRead, rfl⟩ := read
    obtain ⟨below, rfl, each⟩ := within.of_fields? fields
    simp only [List.forall_mem_cons] at each
    obtain ⟨statementsIn, spanIn, _⟩ := each
    obtain ⟨statementsNest, statementsFit⟩ :=
      (keepsAll levels).stmt.list.required statementsIn statementsRead
    obtain ⟨spanNests, spanFits⟩ := Span.keeps.required spanIn spanRead
    refine ⟨.object ?_, ?_⟩
    · simp only [List.forall_mem_cons]
      exact ⟨statementsNest, spanNests, List.forall_mem_nil _⟩
    · simp only [SyntaxTree.visits, List.forall_mem_cons, forall_visitsOfStmts]
      exact ⟨spanFits, statementsFit⟩
  · cases read

end ConditionLint
