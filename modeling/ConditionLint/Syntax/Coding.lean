import ConditionLint.Syntax.Tree

/-!
# Syntax trees as JSON

The written form of trees: a statement or expression is a choice named by its construct, over a
record of its parts. The reader goes at most a given number of constructs deep; no value that
could be kept is deeper than its containers.
-/

set_option autoImplicit false

namespace ConditionLint

def NodeId.toJson (id : NodeId) : Json :=
  .nat id.index

/-- Read a node id, which is written in 32 bits. -/
def NodeId.ofJson? (j : Json) : Option NodeId :=
  (j.natBelow? 0x100000000).map NodeId.mk

def Identifier.toJson (i : Identifier) : Json :=
  .object [("id", i.node.id.toJson), ("name", .string i.name), ("span", i.node.span.toJson)]

def Node.ofFields? (id span : Option Json) : Option Node := do
  return { id := ← Json.required? NodeId.ofJson? id
           span := ← Json.required? Span.ofJson? span }

def Identifier.ofJson? (j : Json) : Option Identifier :=
  match j.fields? ["id", "name", "span"] with
  | some [id, name, span] => do
    return { node := ← Node.ofFields? id span
             name := ← Json.required? Json.string? name }
  | _ => none

def namesToJson (names : List Identifier) : Json :=
  .array (names.map Identifier.toJson)

def Literal.toJson : Literal → Json
  | string value => .object [("string", .string value)]
  | number value => .object [("number", .number (.double value))]
  | bigint digits => .object [("big_int", .string digits)]
  | boolean value => .object [("boolean", .bool value)]
  | null => .string "null"

def Literal.ofJson? (form : Json.Form) (j : Json) : Option Literal :=
  match j.choice? with
  | some ("string", some payload) => payload.string?.map .string
  | some ("number", some payload) => payload.double?.map .number
  | some ("big_int", some payload) => payload.string?.map .bigint
  | some ("boolean", some payload) => payload.bool?.map .boolean
  | some ("null", payload) => if Json.isBare form payload then some .null else none
  | _ => none

def Expr.construct : Expr → String
  | .identifier _ => "identifier"
  | .literal _ _ => "literal"
  | .unary _ _ _ => "unary"
  | .binary _ _ _ _ => "binary"
  | .logical _ _ _ _ => "logical"
  | .assignment _ _ _ _ => "assignment"
  | .conditional _ _ _ _ => "conditional"
  | .member _ _ _ _ => "member"
  | .call _ _ _ _ => "call"
  | .chain _ _ => "chain"
  | .nonNull _ _ => "non_null"
  | .function _ _ => "function"
  | .other _ _ => "opaque"

def Stmt.construct : Stmt → String
  | .expression _ _ => "expression"
  | .variableDecl _ => "variable_decl"
  | .functionDecl _ => "function_decl"
  | .returning _ _ => "return"
  | .ifElse _ _ _ _ => "if"
  | .whileLoop _ _ _ => "while"
  | .doWhileLoop _ _ _ => "do_while"
  | .forLoop _ _ _ _ _ => "for"
  | .block _ => "block"
  | .empty _ => "empty"

/-- A choice with a record as payload. -/
def tagged (name : String) (members : List (String × Json)) : Json :=
  .object [(name, .object members)]

mutual

def Expr.toJson : Expr → Json
  | .identifier name => .object [("identifier", name.toJson)]
  | .literal ⟨id, span⟩ value =>
    tagged "literal" [("id", id.toJson), ("value", value.toJson), ("span", span.toJson)]
  | .unary ⟨id, span⟩ operator operand =>
    tagged "unary"
      [("id", id.toJson), ("operator", .string operator.text), ("operand", operand.toJson),
        ("span", span.toJson)]
  | .binary ⟨id, span⟩ operator left right =>
    tagged "binary"
      [("id", id.toJson), ("operator", .string operator.text), ("left", left.toJson),
        ("right", right.toJson), ("span", span.toJson)]
  | .logical ⟨id, span⟩ operator left right =>
    tagged "logical"
      [("id", id.toJson), ("operator", .string operator.text), ("left", left.toJson),
        ("right", right.toJson), ("span", span.toJson)]
  | .assignment ⟨id, span⟩ operator left right =>
    tagged "assignment"
      [("id", id.toJson), ("operator", .string operator.text), ("left", left.toJson),
        ("right", right.toJson), ("span", span.toJson)]
  | .conditional ⟨id, span⟩ test consequent alternate =>
    tagged "conditional"
      [("id", id.toJson), ("test", test.toJson), ("consequent", consequent.toJson),
        ("alternate", alternate.toJson), ("span", span.toJson)]
  | .member ⟨id, span⟩ object key optional =>
    tagged "member"
      [("id", id.toJson), ("object", object.toJson), ("property", key.toJson),
        ("optional", .bool optional), ("span", span.toJson)]
  | .call ⟨id, span⟩ callee arguments optional =>
    tagged "call"
      [("id", id.toJson), ("callee", callee.toJson), ("arguments", .array (exprsToJson arguments)),
        ("optional", .bool optional), ("span", span.toJson)]
  | .chain ⟨id, span⟩ inner =>
    tagged "chain" [("id", id.toJson), ("expression", inner.toJson), ("span", span.toJson)]
  | .nonNull ⟨id, span⟩ inner =>
    tagged "non_null" [("id", id.toJson), ("expression", inner.toJson), ("span", span.toJson)]
  | .function ⟨id, span⟩ ⟨params, body, isArrow⟩ =>
    tagged "function"
      [("id", id.toJson), ("params", namesToJson params), ("body", body.toJson),
        ("is_arrow", .bool isArrow), ("span", span.toJson)]
  | .other ⟨id, span⟩ children =>
    tagged "opaque"
      [("id", id.toJson), ("children", .array (exprsToJson children)), ("span", span.toJson)]

def exprsToJson : List Expr → List Json
  | [] => []
  | e :: es => e.toJson :: exprsToJson es

def exprToJson? : Option Expr → Json
  | none => .null
  | some e => e.toJson

def MemberKey.toJson : MemberKey → Json
  | .named name => .object [("identifier", name.toJson)]
  | .computed key => .object [("computed", key.toJson)]

def FunctionBody.toJson : FunctionBody → Json
  | .expression value => .object [("expression", value.toJson)]
  | .block block => .object [("block", block.toJson)]

def Stmt.toJson : Stmt → Json
  | .expression expression span =>
    tagged "expression" [("expression", expression.toJson), ("span", span.toJson)]
  | .variableDecl declaration => .object [("variable_decl", declaration.toJson)]
  | .functionDecl declaration => .object [("function_decl", declaration.toJson)]
  | .returning value span => tagged "return" [("value", exprToJson? value), ("span", span.toJson)]
  | .ifElse condition thenBranch elseBranch span =>
    tagged "if"
      [("condition", condition.toJson), ("then_branch", thenBranch.toJson),
        ("else_branch", stmtToJson? elseBranch), ("span", span.toJson)]
  | .whileLoop condition body span =>
    tagged "while"
      [("condition", condition.toJson), ("body", body.toJson), ("span", span.toJson)]
  | .doWhileLoop body condition span =>
    tagged "do_while"
      [("body", body.toJson), ("condition", condition.toJson), ("span", span.toJson)]
  | .forLoop init test update body span =>
    tagged "for"
      [("init", forInitToJson? init), ("test", exprToJson? test), ("update", exprToJson? update),
        ("body", body.toJson), ("span", span.toJson)]
  | .block block => .object [("block", block.toJson)]
  | .empty span => .object [("empty", span.toJson)]

def stmtsToJson : List Stmt → List Json
  | [] => []
  | s :: ss => s.toJson :: stmtsToJson ss

def stmtToJson? : Option Stmt → Json
  | none => .null
  | some s => s.toJson

def VariableDecl.toJson : VariableDecl → Json
  | ⟨kind, name, initializer, span⟩ =>
    .object
      [("kind", .string kind.text), ("name", name.toJson),
        ("initializer", exprToJson? initializer), ("span", span.toJson)]

def FunctionDecl.toJson : FunctionDecl → Json
  | ⟨name, params, body, span⟩ =>
    .object
      [("name", name.toJson), ("params", namesToJson params), ("body", body.toJson),
        ("span", span.toJson)]

def ForInit.toJson : ForInit → Json
  | .variableDecl declaration => .object [("variable_decl", declaration.toJson)]
  | .expression expression => .object [("expression", expression.toJson)]

def forInitToJson? : Option ForInit → Json
  | none => .null
  | some init => init.toJson

def Block.toJson : Block → Json
  | ⟨statements, span⟩ =>
    .object [("statements", .array (stmtsToJson statements)), ("span", span.toJson)]

end

def SyntaxTree.toJson (m : SyntaxTree) : Json :=
  .object [("statements", .array (m.statements.map Stmt.toJson)), ("span", m.span.toJson)]

/-- Read an operator, or another word, as a field. -/
def wordField? {α : Type} (ofText? : String → Option α) (field : Option Json) : Option α :=
  Json.required? (Json.word? .kept ofText?) field

mutual

def Expr.ofJson? : Nat → Json → Option Expr
  | 0, _ => none
  | levels + 1, j =>
    match j.choice? with
    | some ("identifier", some payload) => (Identifier.ofJson? payload).map .identifier
    | some ("literal", some payload) =>
      match payload.fields? ["id", "value", "span"] with
      | some [id, value, span] => do
        return .literal (← Node.ofFields? id span) (← Json.required? (Literal.ofJson? .kept) value)
      | _ => none
    | some ("unary", some payload) =>
      match payload.fields? ["id", "operator", "operand", "span"] with
      | some [id, operator, operand, span] => do
        return .unary (← Node.ofFields? id span) (← wordField? UnaryOperator.ofText? operator)
          (← Json.required? (Expr.ofJson? levels) operand)
      | _ => none
    | some ("binary", some payload) =>
      match payload.fields? ["id", "operator", "left", "right", "span"] with
      | some [id, operator, left, right, span] => do
        return .binary (← Node.ofFields? id span) (← wordField? BinaryOperator.ofText? operator)
          (← Json.required? (Expr.ofJson? levels) left)
          (← Json.required? (Expr.ofJson? levels) right)
      | _ => none
    | some ("logical", some payload) =>
      match payload.fields? ["id", "operator", "left", "right", "span"] with
      | some [id, operator, left, right, span] => do
        return .logical (← Node.ofFields? id span) (← wordField? LogicalOperator.ofText? operator)
          (← Json.required? (Expr.ofJson? levels) left)
          (← Json.required? (Expr.ofJson? levels) right)
      | _ => none
    | some ("assignment", some payload) =>
      match payload.fields? ["id", "operator", "left", "right", "span"] with
      | some [id, operator, left, right, span] => do
        return .assignment (← Node.ofFields? id span)
          (← wordField? AssignmentOperator.ofText? operator)
          (← Json.required? (Expr.ofJson? levels) left)
          (← Json.required? (Expr.ofJson? levels) right)
      | _ => none
    | some ("conditional", some payload) =>
      match payload.fields? ["id", "test", "consequent", "alternate", "span"] with
      | some [id, test, consequent, alternate, span] => do
        return .conditional (← Node.ofFields? id span)
          (← Json.required? (Expr.ofJson? levels) test)
          (← Json.required? (Expr.ofJson? levels) consequent)
          (← Json.required? (Expr.ofJson? levels) alternate)
      | _ => none
    | some ("member", some payload) =>
      match payload.fields? ["id", "object", "property", "optional", "span"] with
      | some [id, object, property, optional, span] => do
        return .member (← Node.ofFields? id span)
          (← Json.required? (Expr.ofJson? levels) object)
          (← Json.required? (MemberKey.ofJson? levels) property)
          (← Json.required? Json.bool? optional)
      | _ => none
    | some ("call", some payload) =>
      match payload.fields? ["id", "callee", "arguments", "optional", "span"] with
      | some [id, callee, arguments, optional, span] => do
        return .call (← Node.ofFields? id span)
          (← Json.required? (Expr.ofJson? levels) callee)
          (← Json.required? (Json.list? (Expr.ofJson? levels)) arguments)
          (← Json.required? Json.bool? optional)
      | _ => none
    | some ("chain", some payload) =>
      match payload.fields? ["id", "expression", "span"] with
      | some [id, inner, span] => do
        return .chain (← Node.ofFields? id span) (← Json.required? (Expr.ofJson? levels) inner)
      | _ => none
    | some ("non_null", some payload) =>
      match payload.fields? ["id", "expression", "span"] with
      | some [id, inner, span] => do
        return .nonNull (← Node.ofFields? id span) (← Json.required? (Expr.ofJson? levels) inner)
      | _ => none
    | some ("function", some payload) =>
      match payload.fields? ["id", "params", "body", "is_arrow", "span"] with
      | some [id, params, body, isArrow, span] => do
        return .function (← Node.ofFields? id span)
          { params := ← Json.required? (Json.list? Identifier.ofJson?) params
            body := ← Json.required? (FunctionBody.ofJson? levels) body
            isArrow := ← Json.required? Json.bool? isArrow }
      | _ => none
    | some ("opaque", some payload) =>
      match payload.fields? ["id", "children", "span"] with
      | some [id, children, span] => do
        return .other (← Node.ofFields? id span)
          (← Json.defaulted? [] (Json.list? (Expr.ofJson? levels)) children)
      | _ => none
    | _ => none

def MemberKey.ofJson? : Nat → Json → Option MemberKey
  | 0, _ => none
  | levels + 1, j =>
    match j.choice? with
    | some ("identifier", some payload) => (Identifier.ofJson? payload).map .named
    | some ("computed", some payload) => (Expr.ofJson? levels payload).map .computed
    | _ => none

def FunctionBody.ofJson? : Nat → Json → Option FunctionBody
  | 0, _ => none
  | levels + 1, j =>
    match j.choice? with
    | some ("expression", some payload) => (Expr.ofJson? levels payload).map .expression
    | some ("block", some payload) => (Block.ofJson? levels payload).map .block
    | _ => none

def Stmt.ofJson? : Nat → Json → Option Stmt
  | 0, _ => none
  | levels + 1, j =>
    match j.choice? with
    | some ("expression", some payload) =>
      match payload.fields? ["expression", "span"] with
      | some [expression, span] => do
        return .expression (← Json.required? (Expr.ofJson? levels) expression)
          (← Json.required? Span.ofJson? span)
      | _ => none
    | some ("variable_decl", some payload) =>
      (VariableDecl.ofJson? levels payload).map .variableDecl
    | some ("function_decl", some payload) =>
      match payload.fields? ["name", "params", "body", "span"] with
      | some [name, params, body, span] => do
        return .functionDecl
          { name := ← Json.required? Identifier.ofJson? name
            params := ← Json.defaulted? [] (Json.list? Identifier.ofJson?) params
            body := ← Json.required? (Block.ofJson? levels) body
            span := ← Json.required? Span.ofJson? span }
      | _ => none
    | some ("return", some payload) =>
      match payload.fields? ["value", "span"] with
      | some [value, span] => do
        return .returning (← Json.optional? (Expr.ofJson? levels) value)
          (← Json.required? Span.ofJson? span)
      | _ => none
    | some ("if", some payload) =>
      match payload.fields? ["condition", "then_branch", "else_branch", "span"] with
      | some [condition, thenBranch, elseBranch, span] => do
        return .ifElse (← Json.required? (Expr.ofJson? levels) condition)
          (← Json.required? (Stmt.ofJson? levels) thenBranch)
          (← Json.optional? (Stmt.ofJson? levels) elseBranch)
          (← Json.required? Span.ofJson? span)
      | _ => none
    | some ("while", some payload) =>
      match payload.fields? ["condition", "body", "span"] with
      | some [condition, body, span] => do
        return .whileLoop (← Json.required? (Expr.ofJson? levels) condition)
          (← Json.required? (Stmt.ofJson? levels) body) (← Json.required? Span.ofJson? span)
      | _ => none
    | some ("do_while", some payload) =>
      match payload.fields? ["body", "condition", "span"] with
      | some [body, condition, span] => do
        return .doWhileLoop (← Json.required? (Stmt.ofJson? levels) body)
          (← Json.required? (Expr.ofJson? levels) condition) (← Json.required? Span.ofJson? span)
      | _ => none
    | some ("for", some payload) =>
      match payload.fields? ["init", "test", "update", "body", "span"] with
      | some [init, test, update, body, span] => do
        return .forLoop (← Json.optional? (ForInit.ofJson? levels) init)
          (← Json.optional? (Expr.ofJson? levels) test)
          (← Json.optional? (Expr.ofJson? levels) update)
          (← Json.required? (Stmt.ofJson? levels) body) (← Json.required? Span.ofJson? span)
      | _ => none
    | some ("block", some payload) => (Block.ofJson? levels payload).map .block
    | some ("empty", some payload) => (Span.ofJson? payload).map .empty
    | _ => none

def VariableDecl.ofJson? : Nat → Json → Option VariableDecl
  | 0, _ => none
  | levels + 1, j =>
    match j.fields? ["kind", "name", "initializer", "span"] with
    | some [kind, name, initializer, span] => do
      return { kind := ← wordField? VariableKind.ofText? kind
               name := ← Json.required? Identifier.ofJson? name
               initializer := ← Json.optional? (Expr.ofJson? levels) initializer
               span := ← Json.required? Span.ofJson? span }
    | _ => none

def ForInit.ofJson? : Nat → Json → Option ForInit
  | 0, _ => none
  | levels + 1, j =>
    match j.choice? with
    | some ("variable_decl", some payload) =>
      (VariableDecl.ofJson? levels payload).map .variableDecl
    | some ("expression", some payload) => (Expr.ofJson? levels payload).map .expression
    | _ => none

def Block.ofJson? : Nat → Json → Option Block
  | 0, _ => none
  | levels + 1, j =>
    match j.fields? ["statements", "span"] with
    | some [statements, span] => do
      return { statements := ← Json.required? (Json.list? (Stmt.ofJson? levels)) statements
               span := ← Json.required? Span.ofJson? span }
    | _ => none

end

def SyntaxTree.ofJson? (levels : Nat) (j : Json) : Option SyntaxTree :=
  match j.fields? ["statements", "span"] with
  | some [statements, span] => do
    return { statements := ← Json.required? (Json.list? (Stmt.ofJson? levels)) statements
             span := ← Json.required? Span.ofJson? span }
  | _ => none

end ConditionLint
