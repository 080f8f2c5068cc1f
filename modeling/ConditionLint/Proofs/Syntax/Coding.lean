import ConditionLint.Proofs.Tokens.Coding
import ConditionLint.Syntax.Coding
import ConditionLint.Syntax.Visit

/-!
# Trees are read back

A tree is read from its written form if every place in it fits: the ids and spans are in their
ranges and the numbers finite. The written form bounds the depth of the tree, so that the reader
does not run out of levels.
-/

set_option autoImplicit false

namespace ConditionLint

open Json

variable {limit levels : Nat} {form : Form}

/-!
## Places that fit
-/

/-- The id and the span of the node fit the form in which they are written. -/
structure Node.Fits (n : Node) : Prop where
  id : n.id.index < 0x100000000
  span : n.span.Fits

/-- A number is finite. -/
def Literal.IsFinite : Literal → Prop
  | number x => x.isFinite = true
  | _ => True

/-- What is written for the place itself, and not for a part of it, fits. -/
def Visit.Fits : Visit → Prop
  | root tree => tree.span.Fits
  | statement s => s.span.Fits
  | variableDecl declaration => declaration.span.Fits
  | functionDecl declaration => declaration.span.Fits
  | block braces => braces.span.Fits
  | expression (.literal node value) => node.Fits ∧ value.IsFinite
  | expression e => e.node.Fits
  | function _ => True
  | identifier name => name.node.Fits

/-!
## Leaves
-/

theorem UnaryOperator.ofText?_text (o : UnaryOperator) : ofText? o.text = some o := by
  cases o <;> rfl

theorem BinaryOperator.ofText?_text (o : BinaryOperator) : ofText? o.text = some o := by
  cases o <;> rfl

theorem LogicalOperator.ofText?_text (o : LogicalOperator) : ofText? o.text = some o := by
  cases o <;> rfl

theorem AssignmentOperator.ofText?_text (o : AssignmentOperator) : ofText? o.text = some o := by
  cases o <;> rfl

theorem VariableKind.ofText?_text (k : VariableKind) : ofText? k.text = some k := by
  cases k <;> rfl

private theorem wordField?_string {α : Type} {ofText? : String → Option α} {text : String} {a : α}
    (named : ofText? text = some a) : wordField? ofText? (some (.string text)) = some a :=
  named

theorem Span.Fits.written_of_nests {s : Span} (fits : s.Fits) (nests : s.toJson.Nests limit) :
    WrittenAs Span.ofJson? limit s.toJson s := by
  obtain ⟨below, rfl, _⟩ := nests.of_object
  exact fits.written

theorem NodeId.written {id : NodeId} (fits : id.index < 0x100000000) :
    WrittenAs NodeId.ofJson? limit id.toJson id :=
  (WrittenAs.nat fits (by decide)).map

private theorem Node.ofFields?_toJson {id : NodeId} {span : Span} (fits : Node.Fits ⟨id, span⟩) :
    Node.ofFields? (some id.toJson) (some span.toJson) = some ⟨id, span⟩ := by
  have idWritten : WrittenAs NodeId.ofJson? 1 id.toJson id := NodeId.written fits.id
  have spanWritten : WrittenAs Span.ofJson? 1 span.toJson span := fits.span.written
  simp only [Node.ofFields?, required?, Option.bind_some, idWritten.read, spanWritten.read]
  rfl

theorem Node.Fits.within {id : NodeId} {span : Span} (fits : Node.Fits ⟨id, span⟩)
    (nests : span.toJson.Nests limit) :
    id.toJson.Within Number.IsWritten limit ∧ span.toJson.Within Number.IsWritten limit :=
  ⟨(NodeId.written fits.id).within, (fits.span.written_of_nests nests).within⟩

theorem Identifier.written {name : Identifier} (nests : name.toJson.Nests limit)
    (fits : name.node.Fits) : WrittenAs Identifier.ofJson? limit name.toJson name := by
  obtain ⟨⟨id, span⟩, text⟩ := name
  obtain ⟨below, rfl, each⟩ := nests.of_object
  simp only [List.forall_mem_cons] at each
  have node := Node.ofFields?_toJson fits
  obtain ⟨idWithin, spanWithin⟩ := fits.within each.2.2.1
  constructor
  · simp [Identifier.ofJson?, Identifier.toJson, node]
  · refine .object ?_
    simp only [List.forall_mem_cons]
    exact ⟨idWithin, .string, spanWithin, List.forall_mem_nil _⟩

theorem Literal.written {value : Literal} (nests : value.toJson.Nests limit)
    (finite : value.IsFinite) : WrittenAs (Literal.ofJson? form) limit value.toJson value := by
  cases value with
  | null => exact ⟨rfl, .string⟩
  | string text =>
      obtain ⟨below, rfl, _⟩ := nests.of_object
      exact ⟨rfl, .tag .string⟩
  | number x =>
      obtain ⟨below, rfl, _⟩ := nests.of_object
      exact ⟨rfl, .tag (.number finite)⟩
  | bigint digits =>
      obtain ⟨below, rfl, _⟩ := nests.of_object
      exact ⟨rfl, .tag .string⟩
  | boolean value =>
      obtain ⟨below, rfl, _⟩ := nests.of_object
      exact ⟨rfl, .tag .bool⟩

/-!
## Rows and absent parts
-/

theorem exprsToJson_eq_map (es : List Expr) : exprsToJson es = es.map Expr.toJson := by
  induction es with
  | nil => rw [exprsToJson, List.map_nil]
  | cons e es ih => rw [exprsToJson, ih, List.map_cons]

theorem stmtsToJson_eq_map (ss : List Stmt) : stmtsToJson ss = ss.map Stmt.toJson := by
  induction ss with
  | nil => rw [stmtsToJson, List.map_nil]
  | cons s ss ih => rw [stmtsToJson, ih, List.map_cons]

theorem exprToJson?_eq_ofOption (e : Option Expr) : exprToJson? e = ofOption Expr.toJson e := by
  cases e with
  | none => rw [exprToJson?, ofOption]
  | some e => rw [exprToJson?, ofOption]

theorem stmtToJson?_eq_ofOption (s : Option Stmt) : stmtToJson? s = ofOption Stmt.toJson s := by
  cases s with
  | none => rw [stmtToJson?, ofOption]
  | some s => rw [stmtToJson?, ofOption]

theorem forInitToJson?_eq_ofOption (init : Option ForInit) :
    forInitToJson? init = ofOption ForInit.toJson init := by
  cases init with
  | none => rw [forInitToJson?, ofOption]
  | some init => rw [forInitToJson?, ofOption]

private theorem Expr.toJson_ne_null (e : Expr) : e.toJson ≠ .null := by
  cases e with
  | function node definition => cases definition; exact nofun
  | _ => exact nofun

private theorem Stmt.toJson_ne_null (s : Stmt) : s.toJson ≠ .null := by
  cases s <;> exact nofun

private theorem ForInit.toJson_ne_null (init : ForInit) : init.toJson ≠ .null := by
  cases init <;> exact nofun

/-!
## Trees
-/

/-- A record takes one container, and at most one level of its reader. -/
private theorem exists_of_record {members : List (String × Json)}
    (nests : (Json.object members).Nests limit) (enough : limit ≤ levels) :
    ∃ below deeper, limit = below + 1 ∧ levels = deeper + 1 ∧ below ≤ deeper ∧
      ∀ member ∈ members, member.2.Nests below := by
  obtain ⟨below, rfl, each⟩ := nests.of_object
  exact ⟨below, levels - 1, rfl, by omega, by omega, each⟩

private theorem exists_of_tag {name : String} {payload : Json}
    (nests : (Json.object [(name, payload)]).Nests limit) (enough : limit ≤ levels) :
    ∃ below deeper, limit = below + 1 ∧ levels = deeper + 1 ∧ below ≤ deeper ∧
      payload.Nests below := by
  obtain ⟨below, deeper, outer, levels, room, each⟩ := exists_of_record nests enough
  exact ⟨below, deeper, outer, levels, room, each _ List.mem_cons_self⟩

/-- A record under a name takes two containers, and at most one level of its reader. -/
private theorem exists_of_tagged {name : String} {members : List (String × Json)}
    (nests : (tagged name members).Nests limit) (enough : limit ≤ levels) :
    ∃ below deeper, limit = below + 2 ∧ levels = deeper + 1 ∧ below ≤ deeper ∧
      ∀ member ∈ members, member.2.Nests below := by
  obtain ⟨outer, rfl, payload⟩ := nests.of_object
  obtain ⟨below, rfl, each⟩ := (List.forall_mem_singleton.mp payload).of_object
  exact ⟨below, levels - 1, rfl, by omega, by omega, each⟩

private theorem written_names {names : List Identifier} (nests : (namesToJson names).Nests limit)
    (fits : ∀ name ∈ names, name.node.Fits) :
    WrittenAs (Json.list? Identifier.ofJson?) limit (namesToJson names) names := by
  obtain ⟨below, rfl, each⟩ := nests.of_array
  rw [List.forall_mem_map] at each
  exact .list fun name member => Identifier.written (each name member) (fits name member)

private theorem written_tagged {α : Type} {decode : Json → Option α} {name : String}
    {members : List (String × Json)} {a : α} (read : decode (tagged name members) = some a)
    (each : ∀ member ∈ members, member.2.Within Number.IsWritten limit) :
    WrittenAs decode (limit + 2) (tagged name members) a :=
  ⟨read, .tag (.object each)⟩

/-- The record of an operator between two expressions, each of which is read back. -/
private theorem exists_of_operands {construct text : String} {node : Node} {left right : Json}
    {first second : Expr}
    (nests : (tagged construct [("id", node.id.toJson), ("operator", .string text), ("left", left),
      ("right", right), ("span", node.span.toJson)]).Nests limit)
    (enough : limit ≤ levels) (fits : node.Fits)
    (leftWritten : ∀ {below deeper : Nat}, left.Nests below → below ≤ deeper →
      WrittenAs (Expr.ofJson? deeper) below left first)
    (rightWritten : ∀ {below deeper : Nat}, right.Nests below → below ≤ deeper →
      WrittenAs (Expr.ofJson? deeper) below right second) :
    ∃ below deeper, limit = below + 2 ∧ levels = deeper + 1 ∧
      WrittenAs (Expr.ofJson? deeper) below left first ∧
      WrittenAs (Expr.ofJson? deeper) below right second ∧
      ∀ member ∈ [("id", node.id.toJson), ("operator", .string text), ("left", left),
        ("right", right), ("span", node.span.toJson)],
        member.2.Within Number.IsWritten below := by
  obtain ⟨below, deeper, rfl, rfl, room, each⟩ := exists_of_tagged nests enough
  simp only [List.forall_mem_cons] at each ⊢
  obtain ⟨-, -, leftNests, rightNests, spanNests, -⟩ := each
  have first := leftWritten leftNests room
  have second := rightWritten rightNests room
  obtain ⟨idWithin, spanWithin⟩ := fits.within spanNests
  exact ⟨below, deeper, rfl, rfl, first, second, idWithin, .string, first.within, second.within,
    spanWithin, List.forall_mem_nil _⟩

-- by recursion on the tree, whose written form nests at least as deep as the reader goes
mutual

theorem Expr.written {limit levels : Nat} : (e : Expr) → e.toJson.Nests limit → limit ≤ levels →
    (∀ visit ∈ e.visits, visit.Fits) → WrittenAs (Expr.ofJson? levels) limit e.toJson e
  | .identifier name, nests, enough, fits => by
      simp only [Expr.visits, List.forall_mem_cons] at fits
      rw [Expr.toJson] at nests ⊢
      obtain ⟨below, deeper, rfl, rfl, room, payload⟩ := exists_of_tag nests enough
      have name := Identifier.written payload fits.1
      exact ⟨congrArg (Option.map Expr.identifier) name.read, .tag name.within⟩
  | .literal ⟨id, span⟩ value, nests, enough, fits => by
      simp only [Expr.visits, List.forall_mem_cons] at fits
      obtain ⟨⟨node, finite⟩, -⟩ := fits
      rw [Expr.toJson] at nests ⊢
      obtain ⟨below, deeper, rfl, rfl, room, each⟩ := exists_of_tagged nests enough
      simp only [List.forall_mem_cons] at each
      obtain ⟨-, valueNests, spanNests, -⟩ := each
      have value : WrittenAs (Literal.ofJson? .kept) below value.toJson value :=
        Literal.written valueNests finite
      obtain ⟨idWithin, spanWithin⟩ := node.within spanNests
      refine written_tagged ?_ ?_
      · simp [Expr.ofJson?, tagged, Node.ofFields?_toJson node, value.read]
      · simp only [List.forall_mem_cons]
        exact ⟨idWithin, value.within, spanWithin, List.forall_mem_nil _⟩
  | .unary ⟨id, span⟩ operator operand, nests, enough, fits => by
      simp only [Expr.visits, List.forall_mem_cons] at fits
      obtain ⟨node, inner⟩ := fits
      rw [Expr.toJson] at nests ⊢
      obtain ⟨below, deeper, rfl, rfl, room, each⟩ := exists_of_tagged nests enough
      simp only [List.forall_mem_cons] at each
      obtain ⟨-, -, operandNests, spanNests, -⟩ := each
      have operand := Expr.written operand operandNests room inner
      obtain ⟨idWithin, spanWithin⟩ := node.within spanNests
      refine written_tagged ?_ ?_
      · simp [Expr.ofJson?, tagged, Node.ofFields?_toJson node, operand.read,
          wordField?_string operator.ofText?_text]
      · simp only [List.forall_mem_cons]
        exact ⟨idWithin, .string, operand.within, spanWithin, List.forall_mem_nil _⟩
  | .binary ⟨id, span⟩ operator left right, nests, enough, fits => by
      simp only [Expr.visits, List.forall_mem_cons, List.forall_mem_append] at fits
      obtain ⟨node, leftFits, rightFits⟩ := fits
      rw [Expr.toJson] at nests ⊢
      obtain ⟨below, deeper, rfl, rfl, left, right, within⟩ := exists_of_operands nests enough node
        (fun nests room => Expr.written left nests room leftFits)
        (fun nests room => Expr.written right nests room rightFits)
      refine written_tagged ?_ within
      simp [Expr.ofJson?, tagged, Node.ofFields?_toJson node, left.read, right.read,
        wordField?_string operator.ofText?_text]
  | .logical ⟨id, span⟩ operator left right, nests, enough, fits => by
      simp only [Expr.visits, List.forall_mem_cons, List.forall_mem_append] at fits
      obtain ⟨node, leftFits, rightFits⟩ := fits
      rw [Expr.toJson] at nests ⊢
      obtain ⟨below, deeper, rfl, rfl, left, right, within⟩ := exists_of_operands nests enough node
        (fun nests room => Expr.written left nests room leftFits)
        (fun nests room => Expr.written right nests room rightFits)
      refine written_tagged ?_ within
      simp [Expr.ofJson?, tagged, Node.ofFields?_toJson node, left.read, right.read,
        wordField?_string operator.ofText?_text]
  | .assignment ⟨id, span⟩ operator left right, nests, enough, fits => by
      simp only [Expr.visits, List.forall_mem_cons, List.forall_mem_append] at fits
      obtain ⟨node, leftFits, rightFits⟩ := fits
      rw [Expr.toJson] at nests ⊢
      obtain ⟨below, deeper, rfl, rfl, left, right, within⟩ := exists_of_operands nests enough node
        (fun nests room => Expr.written left nests room leftFits)
        (fun nests room => Expr.written right nests room rightFits)
      refine written_tagged ?_ within
      simp [Expr.ofJson?, tagged, Node.ofFields?_toJson node, left.read, right.read,
        wordField?_string operator.ofText?_text]
  | .conditional ⟨id, span⟩ test consequent alternate, nests, enough, fits => by
      simp only [Expr.visits, List.forall_mem_cons, List.forall_mem_append] at fits
      obtain ⟨node, ⟨testFits, consequentFits⟩, alternateFits⟩ := fits
      rw [Expr.toJson] at nests ⊢
      obtain ⟨below, deeper, rfl, rfl, room, each⟩ := exists_of_tagged nests enough
      simp only [List.forall_mem_cons] at each
      obtain ⟨-, testNests, consequentNests, alternateNests, spanNests, -⟩ := each
      have test := Expr.written test testNests room testFits
      have consequent := Expr.written consequent consequentNests room consequentFits
      have alternate := Expr.written alternate alternateNests room alternateFits
      obtain ⟨idWithin, spanWithin⟩ := node.within spanNests
      refine written_tagged ?_ ?_
      · simp [Expr.ofJson?, tagged, Node.ofFields?_toJson node, test.read, consequent.read,
          alternate.read]
      · simp only [List.forall_mem_cons]
        exact ⟨idWithin, test.within, consequent.within, alternate.within, spanWithin,
          List.forall_mem_nil _⟩
  | .member ⟨id, span⟩ target key optional, nests, enough, fits => by
      simp only [Expr.visits, List.forall_mem_cons, List.forall_mem_append] at fits
      obtain ⟨node, targetFits, keyFits⟩ := fits
      rw [Expr.toJson] at nests ⊢
      obtain ⟨below, deeper, rfl, rfl, room, each⟩ := exists_of_tagged nests enough
      simp only [List.forall_mem_cons] at each
      obtain ⟨-, targetNests, keyNests, -, spanNests, -⟩ := each
      have target := Expr.written target targetNests room targetFits
      have key := MemberKey.written key keyNests room keyFits
      obtain ⟨idWithin, spanWithin⟩ := node.within spanNests
      refine written_tagged ?_ ?_
      · simp [Expr.ofJson?, tagged, Node.ofFields?_toJson node, target.read, key.read]
      · simp only [List.forall_mem_cons]
        exact ⟨idWithin, target.within, key.within, .bool, spanWithin, List.forall_mem_nil _⟩
  | .call ⟨id, span⟩ callee arguments optional, nests, enough, fits => by
      simp only [Expr.visits, List.forall_mem_cons, List.forall_mem_append] at fits
      obtain ⟨node, calleeFits, argumentFits⟩ := fits
      rw [Expr.toJson, exprsToJson_eq_map] at nests ⊢
      obtain ⟨below, deeper, rfl, rfl, room, each⟩ := exists_of_tagged nests enough
      simp only [List.forall_mem_cons] at each
      obtain ⟨-, calleeNests, argumentNests, -, spanNests, -⟩ := each
      have callee := Expr.written callee calleeNests room calleeFits
      obtain ⟨lower, rfl, items⟩ := argumentNests.of_array
      rw [List.forall_mem_map] at items
      have arguments := WrittenAs.list
        (exprsWritten arguments items (Nat.le_of_succ_le room) argumentFits)
      obtain ⟨idWithin, spanWithin⟩ := node.within spanNests
      refine written_tagged ?_ ?_
      · simp [Expr.ofJson?, tagged, Node.ofFields?_toJson node, callee.read, arguments.read]
      · simp only [List.forall_mem_cons]
        exact ⟨idWithin, callee.within, arguments.within, .bool, spanWithin, List.forall_mem_nil _⟩
  | .chain ⟨id, span⟩ inner, nests, enough, fits => by
      simp only [Expr.visits, List.forall_mem_cons] at fits
      obtain ⟨node, innerFits⟩ := fits
      rw [Expr.toJson] at nests ⊢
      obtain ⟨below, deeper, rfl, rfl, room, each⟩ := exists_of_tagged nests enough
      simp only [List.forall_mem_cons] at each
      obtain ⟨-, innerNests, spanNests, -⟩ := each
      have inner := Expr.written inner innerNests room innerFits
      obtain ⟨idWithin, spanWithin⟩ := node.within spanNests
      refine written_tagged ?_ ?_
      · simp [Expr.ofJson?, tagged, Node.ofFields?_toJson node, inner.read]
      · simp only [List.forall_mem_cons]
        exact ⟨idWithin, inner.within, spanWithin, List.forall_mem_nil _⟩
  | .nonNull ⟨id, span⟩ inner, nests, enough, fits => by
      simp only [Expr.visits, List.forall_mem_cons] at fits
      obtain ⟨node, innerFits⟩ := fits
      rw [Expr.toJson] at nests ⊢
      obtain ⟨below, deeper, rfl, rfl, room, each⟩ := exists_of_tagged nests enough
      simp only [List.forall_mem_cons] at each
      obtain ⟨-, innerNests, spanNests, -⟩ := each
      have inner := Expr.written inner innerNests room innerFits
      obtain ⟨idWithin, spanWithin⟩ := node.within spanNests
      refine written_tagged ?_ ?_
      · simp [Expr.ofJson?, tagged, Node.ofFields?_toJson node, inner.read]
      · simp only [List.forall_mem_cons]
        exact ⟨idWithin, inner.within, spanWithin, List.forall_mem_nil _⟩
  | .function ⟨id, span⟩ ⟨params, body, isArrow⟩, nests, enough, fits => by
      simp only [Expr.visits, FunctionExpr.visits, List.forall_mem_cons, List.forall_mem_append,
        List.forall_mem_map] at fits
      obtain ⟨node, -, paramsFit, bodyFits⟩ := fits
      rw [Expr.toJson] at nests ⊢
      obtain ⟨below, deeper, rfl, rfl, room, each⟩ := exists_of_tagged nests enough
      simp only [List.forall_mem_cons] at each
      obtain ⟨-, paramsNest, bodyNests, -, spanNests, -⟩ := each
      have params := written_names paramsNest paramsFit
      have body := FunctionBody.written body bodyNests room bodyFits
      obtain ⟨idWithin, spanWithin⟩ := node.within spanNests
      refine written_tagged ?_ ?_
      · simp [Expr.ofJson?, tagged, Node.ofFields?_toJson node, params.read, body.read]
      · simp only [List.forall_mem_cons]
        exact ⟨idWithin, params.within, body.within, .bool, spanWithin, List.forall_mem_nil _⟩
  | .other ⟨id, span⟩ children, nests, enough, fits => by
      simp only [Expr.visits, List.forall_mem_cons] at fits
      obtain ⟨node, childrenFit⟩ := fits
      rw [Expr.toJson, exprsToJson_eq_map] at nests ⊢
      obtain ⟨below, deeper, rfl, rfl, room, each⟩ := exists_of_tagged nests enough
      simp only [List.forall_mem_cons] at each
      obtain ⟨-, childrenNest, spanNests, -⟩ := each
      obtain ⟨lower, rfl, items⟩ := childrenNest.of_array
      rw [List.forall_mem_map] at items
      have children := WrittenAs.list
        (exprsWritten children items (Nat.le_of_succ_le room) childrenFit)
      obtain ⟨idWithin, spanWithin⟩ := node.within spanNests
      refine written_tagged ?_ ?_
      · simp [Expr.ofJson?, tagged, Node.ofFields?_toJson node, children.read]
      · simp only [List.forall_mem_cons]
        exact ⟨idWithin, children.within, spanWithin, List.forall_mem_nil _⟩

theorem exprsWritten {limit levels : Nat} : (es : List Expr) → (∀ e ∈ es, e.toJson.Nests limit) →
    limit ≤ levels → (∀ visit ∈ visitsOfExprs es, visit.Fits) →
    ∀ e ∈ es, WrittenAs (Expr.ofJson? levels) limit e.toJson e
  | [], _, _, _ => List.forall_mem_nil _
  | e :: es, nests, enough, fits => by
      simp only [visitsOfExprs, List.forall_mem_append] at fits
      simp only [List.forall_mem_cons] at nests ⊢
      exact ⟨Expr.written e nests.1 enough fits.1, exprsWritten es nests.2 enough fits.2⟩

theorem exprWritten? {limit levels : Nat} : (e : Option Expr) →
    (ofOption Expr.toJson e).Nests limit → limit ≤ levels →
    (∀ visit ∈ visitsOfExpr? e, visit.Fits) →
    WrittenAs (fun j => optional? (Expr.ofJson? levels) (some j)) limit
      (ofOption Expr.toJson e) e
  | none, _, _, _ => ⟨rfl, .null⟩
  | some e, nests, enough, fits => by
      rw [visitsOfExpr?] at fits
      have written := Expr.written e nests enough fits
      exact .option Expr.toJson_ne_null fun _ same => Option.some.inj same ▸ written

theorem MemberKey.written {limit levels : Nat} : (key : MemberKey) → key.toJson.Nests limit →
    limit ≤ levels → (∀ visit ∈ key.visits, visit.Fits) →
    WrittenAs (MemberKey.ofJson? levels) limit key.toJson key
  | .named name, nests, enough, fits => by
      simp only [MemberKey.visits, List.forall_mem_cons] at fits
      rw [MemberKey.toJson] at nests ⊢
      obtain ⟨below, deeper, rfl, rfl, room, payload⟩ := exists_of_tag nests enough
      have name := Identifier.written payload fits.1
      exact ⟨congrArg (Option.map MemberKey.named) name.read, .tag name.within⟩
  | .computed key, nests, enough, fits => by
      rw [MemberKey.visits] at fits
      rw [MemberKey.toJson] at nests ⊢
      obtain ⟨below, deeper, rfl, rfl, room, payload⟩ := exists_of_tag nests enough
      have key := Expr.written key payload room fits
      exact ⟨congrArg (Option.map MemberKey.computed) key.read, .tag key.within⟩

theorem FunctionBody.written {limit levels : Nat} : (body : FunctionBody) →
    body.toJson.Nests limit → limit ≤ levels → (∀ visit ∈ body.visits, visit.Fits) →
    WrittenAs (FunctionBody.ofJson? levels) limit body.toJson body
  | .expression value, nests, enough, fits => by
      rw [FunctionBody.visits] at fits
      rw [FunctionBody.toJson] at nests ⊢
      obtain ⟨below, deeper, rfl, rfl, room, payload⟩ := exists_of_tag nests enough
      have value := Expr.written value payload room fits
      exact ⟨congrArg (Option.map FunctionBody.expression) value.read, .tag value.within⟩
  | .block braces, nests, enough, fits => by
      rw [FunctionBody.visits] at fits
      rw [FunctionBody.toJson] at nests ⊢
      obtain ⟨below, deeper, rfl, rfl, room, payload⟩ := exists_of_tag nests enough
      have braces := Block.written braces payload room fits
      exact ⟨congrArg (Option.map FunctionBody.block) braces.read, .tag braces.within⟩

theorem Stmt.written {limit levels : Nat} : (s : Stmt) → s.toJson.Nests limit → limit ≤ levels →
    (∀ visit ∈ s.visits, visit.Fits) → WrittenAs (Stmt.ofJson? levels) limit s.toJson s
  | .expression value span, nests, enough, fits => by
      simp only [Stmt.visits, List.forall_mem_cons] at fits
      obtain ⟨spanFits, valueFits⟩ := fits
      rw [Stmt.toJson] at nests ⊢
      obtain ⟨below, deeper, rfl, rfl, room, each⟩ := exists_of_tagged nests enough
      simp only [List.forall_mem_cons] at each
      obtain ⟨valueNests, spanNests, -⟩ := each
      have value := Expr.written value valueNests room valueFits
      have span : WrittenAs Span.ofJson? below span.toJson span :=
        spanFits.written_of_nests spanNests
      refine written_tagged ?_ ?_
      · simp [Stmt.ofJson?, tagged, value.read, span.read]
      · simp only [List.forall_mem_cons]
        exact ⟨value.within, span.within, List.forall_mem_nil _⟩
  | .variableDecl declaration, nests, enough, fits => by
      simp only [Stmt.visits, List.forall_mem_cons] at fits
      rw [Stmt.toJson] at nests ⊢
      obtain ⟨below, deeper, rfl, rfl, room, payload⟩ := exists_of_tag nests enough
      have declaration := VariableDecl.written declaration payload room fits.2
      exact ⟨congrArg (Option.map Stmt.variableDecl) declaration.read, .tag declaration.within⟩
  | .functionDecl ⟨name, params, body, span⟩, nests, enough, fits => by
      simp only [Stmt.visits, FunctionDecl.visits, List.forall_mem_cons, List.cons_append,
        List.forall_mem_append, List.forall_mem_map] at fits
      obtain ⟨-, spanFits, nameFits, paramsFit, bodyFits⟩ := fits
      rw [Stmt.toJson, FunctionDecl.toJson] at nests ⊢
      obtain ⟨below, deeper, rfl, rfl, room, each⟩ := exists_of_tagged nests enough
      simp only [List.forall_mem_cons] at each
      obtain ⟨nameNests, paramsNest, bodyNests, spanNests, -⟩ := each
      have name := Identifier.written nameNests nameFits
      have params := written_names paramsNest paramsFit
      have body := Block.written body bodyNests room bodyFits
      have span : WrittenAs Span.ofJson? below span.toJson span :=
        spanFits.written_of_nests spanNests
      refine written_tagged ?_ ?_
      · simp [Stmt.ofJson?, tagged, name.read, params.read, body.read, span.read]
      · simp only [List.forall_mem_cons]
        exact ⟨name.within, params.within, body.within, span.within, List.forall_mem_nil _⟩
  | .returning value span, nests, enough, fits => by
      simp only [Stmt.visits, List.forall_mem_cons] at fits
      obtain ⟨spanFits, valueFits⟩ := fits
      rw [Stmt.toJson, exprToJson?_eq_ofOption] at nests ⊢
      obtain ⟨below, deeper, rfl, rfl, room, each⟩ := exists_of_tagged nests enough
      simp only [List.forall_mem_cons] at each
      obtain ⟨valueNests, spanNests, -⟩ := each
      have value := exprWritten? value valueNests room valueFits
      have span : WrittenAs Span.ofJson? below span.toJson span :=
        spanFits.written_of_nests spanNests
      refine written_tagged ?_ ?_
      · simp [Stmt.ofJson?, tagged, value.read, span.read]
      · simp only [List.forall_mem_cons]
        exact ⟨value.within, span.within, List.forall_mem_nil _⟩
  | .ifElse condition thenBranch elseBranch span, nests, enough, fits => by
      simp only [Stmt.visits, List.forall_mem_cons, List.forall_mem_append] at fits
      obtain ⟨spanFits, ⟨conditionFits, thenFits⟩, elseFits⟩ := fits
      rw [Stmt.toJson, stmtToJson?_eq_ofOption] at nests ⊢
      obtain ⟨below, deeper, rfl, rfl, room, each⟩ := exists_of_tagged nests enough
      simp only [List.forall_mem_cons] at each
      obtain ⟨conditionNests, thenNests, elseNests, spanNests, -⟩ := each
      have condition := Expr.written condition conditionNests room conditionFits
      have thenBranch := Stmt.written thenBranch thenNests room thenFits
      have elseBranch := stmtWritten? elseBranch elseNests room elseFits
      have span : WrittenAs Span.ofJson? below span.toJson span :=
        spanFits.written_of_nests spanNests
      refine written_tagged ?_ ?_
      · simp [Stmt.ofJson?, tagged, condition.read, thenBranch.read, elseBranch.read, span.read]
      · simp only [List.forall_mem_cons]
        exact ⟨condition.within, thenBranch.within, elseBranch.within, span.within,
          List.forall_mem_nil _⟩
  | .whileLoop condition body span, nests, enough, fits => by
      simp only [Stmt.visits, List.forall_mem_cons, List.forall_mem_append] at fits
      obtain ⟨spanFits, conditionFits, bodyFits⟩ := fits
      rw [Stmt.toJson] at nests ⊢
      obtain ⟨below, deeper, rfl, rfl, room, each⟩ := exists_of_tagged nests enough
      simp only [List.forall_mem_cons] at each
      obtain ⟨conditionNests, bodyNests, spanNests, -⟩ := each
      have condition := Expr.written condition conditionNests room conditionFits
      have body := Stmt.written body bodyNests room bodyFits
      have span : WrittenAs Span.ofJson? below span.toJson span :=
        spanFits.written_of_nests spanNests
      refine written_tagged ?_ ?_
      · simp [Stmt.ofJson?, tagged, condition.read, body.read, span.read]
      · simp only [List.forall_mem_cons]
        exact ⟨condition.within, body.within, span.within, List.forall_mem_nil _⟩
  | .doWhileLoop body condition span, nests, enough, fits => by
      simp only [Stmt.visits, List.forall_mem_cons, List.forall_mem_append] at fits
      obtain ⟨spanFits, bodyFits, conditionFits⟩ := fits
      rw [Stmt.toJson] at nests ⊢
      obtain ⟨below, deeper, rfl, rfl, room, each⟩ := exists_of_tagged nests enough
      simp only [List.forall_mem_cons] at each
      obtain ⟨bodyNests, conditionNests, spanNests, -⟩ := each
      have body := Stmt.written body bodyNests room bodyFits
      have condition := Expr.written condition conditionNests room conditionFits
      have span : WrittenAs Span.ofJson? below span.toJson span :=
        spanFits.written_of_nests spanNests
      refine written_tagged ?_ ?_
      · simp [Stmt.ofJson?, tagged, body.read, condition.read, span.read]
      · simp only [List.forall_mem_cons]
        exact ⟨body.within, condition.within, span.within, List.forall_mem_nil _⟩
  | .forLoop init test update body span, nests, enough, fits => by
      simp only [Stmt.visits, List.forall_mem_cons, List.forall_mem_append] at fits
      obtain ⟨spanFits, ⟨⟨initFits, testFits⟩, updateFits⟩, bodyFits⟩ := fits
      rw [Stmt.toJson, forInitToJson?_eq_ofOption, exprToJson?_eq_ofOption test,
        exprToJson?_eq_ofOption update] at nests ⊢
      obtain ⟨below, deeper, rfl, rfl, room, each⟩ := exists_of_tagged nests enough
      simp only [List.forall_mem_cons] at each
      obtain ⟨initNests, testNests, updateNests, bodyNests, spanNests, -⟩ := each
      have init := forInitWritten? init initNests room initFits
      have test := exprWritten? test testNests room testFits
      have update := exprWritten? update updateNests room updateFits
      have body := Stmt.written body bodyNests room bodyFits
      have span : WrittenAs Span.ofJson? below span.toJson span :=
        spanFits.written_of_nests spanNests
      refine written_tagged ?_ ?_
      · simp [Stmt.ofJson?, tagged, init.read, test.read, update.read, body.read, span.read]
      · simp only [List.forall_mem_cons]
        exact ⟨init.within, test.within, update.within, body.within, span.within,
          List.forall_mem_nil _⟩
  | .block braces, nests, enough, fits => by
      simp only [Stmt.visits, List.forall_mem_cons] at fits
      rw [Stmt.toJson] at nests ⊢
      obtain ⟨below, deeper, rfl, rfl, room, payload⟩ := exists_of_tag nests enough
      have braces := Block.written braces payload room fits.2
      exact ⟨congrArg (Option.map Stmt.block) braces.read, .tag braces.within⟩
  | .empty span, nests, enough, fits => by
      simp only [Stmt.visits, List.forall_mem_cons] at fits
      rw [Stmt.toJson] at nests ⊢
      obtain ⟨below, deeper, rfl, rfl, room, payload⟩ := exists_of_tag nests enough
      have span : WrittenAs Span.ofJson? below span.toJson span := fits.1.written_of_nests payload
      exact ⟨congrArg (Option.map Stmt.empty) span.read, .tag span.within⟩

theorem stmtsWritten {limit levels : Nat} : (ss : List Stmt) → (∀ s ∈ ss, s.toJson.Nests limit) →
    limit ≤ levels → (∀ visit ∈ visitsOfStmts ss, visit.Fits) →
    ∀ s ∈ ss, WrittenAs (Stmt.ofJson? levels) limit s.toJson s
  | [], _, _, _ => List.forall_mem_nil _
  | s :: ss, nests, enough, fits => by
      simp only [visitsOfStmts, List.forall_mem_append] at fits
      simp only [List.forall_mem_cons] at nests ⊢
      exact ⟨Stmt.written s nests.1 enough fits.1, stmtsWritten ss nests.2 enough fits.2⟩

theorem stmtWritten? {limit levels : Nat} : (s : Option Stmt) →
    (ofOption Stmt.toJson s).Nests limit → limit ≤ levels →
    (∀ visit ∈ visitsOfStmt? s, visit.Fits) →
    WrittenAs (fun j => optional? (Stmt.ofJson? levels) (some j)) limit
      (ofOption Stmt.toJson s) s
  | none, _, _, _ => ⟨rfl, .null⟩
  | some s, nests, enough, fits => by
      rw [visitsOfStmt?] at fits
      have written := Stmt.written s nests enough fits
      exact .option Stmt.toJson_ne_null fun _ same => Option.some.inj same ▸ written

theorem VariableDecl.written {limit levels : Nat} : (declaration : VariableDecl) →
    declaration.toJson.Nests limit → limit ≤ levels →
    (∀ visit ∈ declaration.visits, visit.Fits) →
    WrittenAs (VariableDecl.ofJson? levels) limit declaration.toJson declaration
  | ⟨kind, name, initializer, span⟩, nests, enough, fits => by
      simp only [VariableDecl.visits, List.forall_mem_cons] at fits
      obtain ⟨spanFits, nameFits, initializerFits⟩ := fits
      rw [VariableDecl.toJson, exprToJson?_eq_ofOption] at nests ⊢
      obtain ⟨below, deeper, rfl, rfl, room, each⟩ := exists_of_record nests enough
      simp only [List.forall_mem_cons] at each
      obtain ⟨-, nameNests, initializerNests, spanNests, -⟩ := each
      have name := Identifier.written nameNests nameFits
      have initializer := exprWritten? initializer initializerNests room initializerFits
      have span : WrittenAs Span.ofJson? below span.toJson span :=
        spanFits.written_of_nests spanNests
      constructor
      · simp [VariableDecl.ofJson?, wordField?_string kind.ofText?_text, name.read,
          initializer.read, span.read]
      · refine .object ?_
        simp only [List.forall_mem_cons]
        exact ⟨.string, name.within, initializer.within, span.within, List.forall_mem_nil _⟩

theorem ForInit.written {limit levels : Nat} : (init : ForInit) → init.toJson.Nests limit →
    limit ≤ levels → (∀ visit ∈ init.visits, visit.Fits) →
    WrittenAs (ForInit.ofJson? levels) limit init.toJson init
  | .variableDecl declaration, nests, enough, fits => by
      rw [ForInit.visits] at fits
      rw [ForInit.toJson] at nests ⊢
      obtain ⟨below, deeper, rfl, rfl, room, payload⟩ := exists_of_tag nests enough
      have declaration := VariableDecl.written declaration payload room fits
      exact ⟨congrArg (Option.map ForInit.variableDecl) declaration.read, .tag declaration.within⟩
  | .expression value, nests, enough, fits => by
      rw [ForInit.visits] at fits
      rw [ForInit.toJson] at nests ⊢
      obtain ⟨below, deeper, rfl, rfl, room, payload⟩ := exists_of_tag nests enough
      have value := Expr.written value payload room fits
      exact ⟨congrArg (Option.map ForInit.expression) value.read, .tag value.within⟩

theorem forInitWritten? {limit levels : Nat} : (init : Option ForInit) →
    (ofOption ForInit.toJson init).Nests limit → limit ≤ levels →
    (∀ visit ∈ visitsOfForInit? init, visit.Fits) →
    WrittenAs (fun j => optional? (ForInit.ofJson? levels) (some j)) limit
      (ofOption ForInit.toJson init) init
  | none, _, _, _ => ⟨rfl, .null⟩
  | some init, nests, enough, fits => by
      rw [visitsOfForInit?] at fits
      have written := ForInit.written init nests enough fits
      exact .option ForInit.toJson_ne_null fun _ same => Option.some.inj same ▸ written

theorem Block.written {limit levels : Nat} : (braces : Block) → braces.toJson.Nests limit →
    limit ≤ levels → (∀ visit ∈ braces.visits, visit.Fits) →
    WrittenAs (Block.ofJson? levels) limit braces.toJson braces
  | ⟨statements, span⟩, nests, enough, fits => by
      simp only [Block.visits, List.forall_mem_cons] at fits
      obtain ⟨spanFits, statementsFit⟩ := fits
      rw [Block.toJson, stmtsToJson_eq_map] at nests ⊢
      obtain ⟨below, deeper, rfl, rfl, room, each⟩ := exists_of_record nests enough
      simp only [List.forall_mem_cons] at each
      obtain ⟨statementsNest, spanNests, -⟩ := each
      obtain ⟨lower, rfl, items⟩ := statementsNest.of_array
      rw [List.forall_mem_map] at items
      have statements := WrittenAs.list
        (stmtsWritten statements items (Nat.le_of_succ_le room) statementsFit)
      have span : WrittenAs Span.ofJson? (lower + 1) span.toJson span :=
        spanFits.written_of_nests spanNests
      constructor
      · simp [Block.ofJson?, statements.read, span.read]
      · refine .object ?_
        simp only [List.forall_mem_cons]
        exact ⟨statements.within, span.within, List.forall_mem_nil _⟩

end

theorem SyntaxTree.written {tree : SyntaxTree} (nests : tree.toJson.Nests limit)
    (enough : limit ≤ levels) (fits : ∀ visit ∈ tree.visits, visit.Fits) :
    WrittenAs (SyntaxTree.ofJson? levels) limit tree.toJson tree := by
  simp only [SyntaxTree.visits, List.forall_mem_cons] at fits
  obtain ⟨spanFits, statementsFit⟩ := fits
  obtain ⟨below, rfl, each⟩ := nests.of_object
  simp only [List.forall_mem_cons] at each
  obtain ⟨statementsNest, spanNests, -⟩ := each
  obtain ⟨lower, rfl, items⟩ := statementsNest.of_array
  rw [List.forall_mem_map] at items
  have statements := WrittenAs.list
    (stmtsWritten tree.statements items (by omega : lower ≤ levels) statementsFit)
  have span : WrittenAs Span.ofJson? (lower + 1) tree.span.toJson tree.span :=
    spanFits.written_of_nests spanNests
  constructor
  · simp [SyntaxTree.ofJson?, SyntaxTree.toJson, statements.read, span.read]
  · refine .object ?_
    simp only [List.forall_mem_cons]
    exact ⟨statements.within, span.within, List.forall_mem_nil _⟩

end ConditionLint
