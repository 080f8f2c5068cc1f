import ConditionLint.Proofs.Syntax.Preorder

/-!
# Renamed nodes

Giving the nodes of a tree other ids changes nothing else: the spans, the names and the order of
the walk stay as they are.
-/

set_option autoImplicit false

namespace ConditionLint

def Node.rename (g : NodeId → NodeId) (node : Node) : Node :=
  { node with id := g node.id }

def Identifier.rename (g : NodeId → NodeId) (name : Identifier) : Identifier :=
  { name with node := name.node.rename g }

mutual

def Expr.rename (g : NodeId → NodeId) : Expr → Expr
  | .identifier name => .identifier (name.rename g)
  | .literal node value => .literal (node.rename g) value
  | .unary node operator operand => .unary (node.rename g) operator (operand.rename g)
  | .binary node operator left right =>
    .binary (node.rename g) operator (left.rename g) (right.rename g)
  | .logical node operator left right =>
    .logical (node.rename g) operator (left.rename g) (right.rename g)
  | .assignment node operator left right =>
    .assignment (node.rename g) operator (left.rename g) (right.rename g)
  | .conditional node test consequent alternate =>
    .conditional (node.rename g) (test.rename g) (consequent.rename g) (alternate.rename g)
  | .member node object key optional =>
    .member (node.rename g) (object.rename g) (key.rename g) optional
  | .call node callee arguments optional =>
    .call (node.rename g) (callee.rename g) (renameExprs g arguments) optional
  | .chain node inner => .chain (node.rename g) (inner.rename g)
  | .nonNull node inner => .nonNull (node.rename g) (inner.rename g)
  | .function node definition => .function (node.rename g) (definition.rename g)
  | .other node children => .other (node.rename g) (renameExprs g children)

def renameExprs (g : NodeId → NodeId) : List Expr → List Expr
  | [] => []
  | e :: es => e.rename g :: renameExprs g es

def renameExpr? (g : NodeId → NodeId) : Option Expr → Option Expr
  | none => none
  | some e => some (e.rename g)

def MemberKey.rename (g : NodeId → NodeId) : MemberKey → MemberKey
  | .named name => .named (name.rename g)
  | .computed key => .computed (key.rename g)

def FunctionExpr.rename (g : NodeId → NodeId) : FunctionExpr → FunctionExpr
  | ⟨params, body, isArrow⟩ => ⟨params.map (Identifier.rename g), body.rename g, isArrow⟩

def FunctionBody.rename (g : NodeId → NodeId) : FunctionBody → FunctionBody
  | .expression value => .expression (value.rename g)
  | .block block => .block (block.rename g)

def Stmt.rename (g : NodeId → NodeId) : Stmt → Stmt
  | .expression expression span => .expression (expression.rename g) span
  | .variableDecl declaration => .variableDecl (declaration.rename g)
  | .functionDecl declaration => .functionDecl (declaration.rename g)
  | .returning value span => .returning (renameExpr? g value) span
  | .ifElse condition thenBranch elseBranch span =>
    .ifElse (condition.rename g) (thenBranch.rename g) (renameStmt? g elseBranch) span
  | .whileLoop condition body span => .whileLoop (condition.rename g) (body.rename g) span
  | .doWhileLoop body condition span => .doWhileLoop (body.rename g) (condition.rename g) span
  | .forLoop init test update body span =>
    .forLoop (renameForInit? g init) (renameExpr? g test) (renameExpr? g update) (body.rename g)
      span
  | .block block => .block (block.rename g)
  | .empty span => .empty span

def renameStmts (g : NodeId → NodeId) : List Stmt → List Stmt
  | [] => []
  | s :: ss => s.rename g :: renameStmts g ss

def renameStmt? (g : NodeId → NodeId) : Option Stmt → Option Stmt
  | none => none
  | some s => some (s.rename g)

def VariableDecl.rename (g : NodeId → NodeId) : VariableDecl → VariableDecl
  | ⟨kind, name, initializer, span⟩ => ⟨kind, name.rename g, renameExpr? g initializer, span⟩

def FunctionDecl.rename (g : NodeId → NodeId) : FunctionDecl → FunctionDecl
  | ⟨name, params, body, span⟩ =>
    ⟨name.rename g, params.map (Identifier.rename g), body.rename g, span⟩

def ForInit.rename (g : NodeId → NodeId) : ForInit → ForInit
  | .variableDecl declaration => .variableDecl (declaration.rename g)
  | .expression expression => .expression (expression.rename g)

def renameForInit? (g : NodeId → NodeId) : Option ForInit → Option ForInit
  | none => none
  | some init => some (init.rename g)

def Block.rename (g : NodeId → NodeId) : Block → Block
  | ⟨statements, span⟩ => ⟨renameStmts g statements, span⟩

end

def SyntaxTree.rename (g : NodeId → NodeId) (tree : SyntaxTree) : SyntaxTree :=
  { tree with statements := renameStmts g tree.statements }

def TreeNode.rename (g : NodeId → NodeId) : TreeNode → TreeNode
  | statement s => .statement (s.rename g)
  | expression e => .expression (e.rename g)

variable {g : NodeId → NodeId}

@[simp] theorem Expr.id_rename (e : Expr) : (e.rename g).id = g e.id := by
  cases e <;> rfl

@[simp] theorem Expr.span_rename (e : Expr) : (e.rename g).span = e.span := by
  cases e <;> rfl

theorem renameExprs_eq (es : List Expr) : renameExprs g es = es.map (Expr.rename g) := by
  induction es with
  | nil => rfl
  | cons e es ih => rw [renameExprs, ih, List.map_cons]

theorem renameStmts_eq (ss : List Stmt) : renameStmts g ss = ss.map (Stmt.rename g) := by
  induction ss with
  | nil => rfl
  | cons s ss ih => rw [renameStmts, ih, List.map_cons]

/-!
## The identity
-/

theorem node_rename_id (node : Node) : node.rename id = node := rfl

theorem names_rename_id (names : List Identifier) : names.map (Identifier.rename id) = names :=
  List.map_id names

mutual

theorem Expr.rename_id : (e : Expr) → e.rename id = e
  | .identifier _ | .literal _ _ => rfl
  | .unary _ _ inner | .chain _ inner | .nonNull _ inner => by
      rw [Expr.rename, node_rename_id, Expr.rename_id inner]
  | .binary _ _ left right | .logical _ _ left right | .assignment _ _ left right => by
      rw [Expr.rename, node_rename_id, Expr.rename_id left, Expr.rename_id right]
  | .conditional _ test consequent alternate => by
      rw [Expr.rename, node_rename_id, Expr.rename_id test, Expr.rename_id consequent,
        Expr.rename_id alternate]
  | .member _ object key _ => by
      rw [Expr.rename, node_rename_id, Expr.rename_id object, MemberKey.rename_id key]
  | .call _ callee arguments _ => by
      rw [Expr.rename, node_rename_id, Expr.rename_id callee, renameExprs_id arguments]
  | .function _ definition => by
      rw [Expr.rename, node_rename_id, FunctionExpr.rename_id definition]
  | .other _ children => by
      rw [Expr.rename, node_rename_id, renameExprs_id children]

theorem renameExprs_id : (es : List Expr) → renameExprs id es = es
  | [] => rfl
  | e :: es => congrArg₂ List.cons (Expr.rename_id e) (renameExprs_id es)

theorem renameExpr?_id : (e : Option Expr) → renameExpr? id e = e
  | none => rfl
  | some e => congrArg some (Expr.rename_id e)

theorem MemberKey.rename_id : (key : MemberKey) → key.rename id = key
  | .named _ => rfl
  | .computed key => congrArg MemberKey.computed (Expr.rename_id key)

theorem FunctionExpr.rename_id : (definition : FunctionExpr) → definition.rename id = definition
  | ⟨params, body, _⟩ => by
      rw [FunctionExpr.rename, names_rename_id params, FunctionBody.rename_id body]

theorem FunctionBody.rename_id : (body : FunctionBody) → body.rename id = body
  | .expression value => congrArg FunctionBody.expression (Expr.rename_id value)
  | .block block => congrArg FunctionBody.block (Block.rename_id block)

theorem Stmt.rename_id : (s : Stmt) → s.rename id = s
  | .expression expression _ => by rw [Stmt.rename, Expr.rename_id expression]
  | .variableDecl declaration => congrArg Stmt.variableDecl (VariableDecl.rename_id declaration)
  | .functionDecl declaration => congrArg Stmt.functionDecl (FunctionDecl.rename_id declaration)
  | .returning value _ => by rw [Stmt.rename, renameExpr?_id value]
  | .ifElse condition thenBranch elseBranch _ => by
      rw [Stmt.rename, Expr.rename_id condition, Stmt.rename_id thenBranch,
        renameStmt?_id elseBranch]
  | .whileLoop condition body _ | .doWhileLoop body condition _ => by
      rw [Stmt.rename, Expr.rename_id condition, Stmt.rename_id body]
  | .forLoop init test update body _ => by
      rw [Stmt.rename, renameForInit?_id init, renameExpr?_id test, renameExpr?_id update,
        Stmt.rename_id body]
  | .block block => congrArg Stmt.block (Block.rename_id block)
  | .empty _ => rfl

theorem renameStmts_id : (ss : List Stmt) → renameStmts id ss = ss
  | [] => rfl
  | s :: ss => congrArg₂ List.cons (Stmt.rename_id s) (renameStmts_id ss)

theorem renameStmt?_id : (s : Option Stmt) → renameStmt? id s = s
  | none => rfl
  | some s => congrArg some (Stmt.rename_id s)

theorem VariableDecl.rename_id : (declaration : VariableDecl) → declaration.rename id = declaration
  | ⟨_, _, initializer, _⟩ => by
      rw [VariableDecl.rename, renameExpr?_id initializer]
      rfl

theorem FunctionDecl.rename_id : (declaration : FunctionDecl) → declaration.rename id = declaration
  | ⟨_, params, body, _⟩ => by
      rw [FunctionDecl.rename, names_rename_id params, Block.rename_id body]
      rfl

theorem ForInit.rename_id : (init : ForInit) → init.rename id = init
  | .variableDecl declaration => congrArg ForInit.variableDecl (VariableDecl.rename_id declaration)
  | .expression expression => congrArg ForInit.expression (Expr.rename_id expression)

theorem renameForInit?_id : (init : Option ForInit) → renameForInit? id init = init
  | none => rfl
  | some init => congrArg some (ForInit.rename_id init)

theorem Block.rename_id : (block : Block) → block.rename id = block
  | ⟨statements, _⟩ => by rw [Block.rename, renameStmts_id statements]

end

theorem SyntaxTree.rename_id (tree : SyntaxTree) : tree.rename id = tree :=
  congrArg (SyntaxTree.mk · tree.span) (renameStmts_id tree.statements)

/-!
## The walk
-/

private theorem map_expression_renameExprs (es : List Expr) :
    (renameExprs g es).map TreeNode.expression =
      (es.map TreeNode.expression).map (TreeNode.rename g) := by
  rw [renameExprs_eq, List.map_map, List.map_map]
  rfl

private theorem map_expression_renameExpr? (e : Option Expr) :
    (renameExpr? g e).toList.map TreeNode.expression =
      (e.toList.map TreeNode.expression).map (TreeNode.rename g) := by
  cases e <;> rfl

private theorem map_statement_renameStmts (ss : List Stmt) :
    (renameStmts g ss).map TreeNode.statement =
      (ss.map TreeNode.statement).map (TreeNode.rename g) := by
  rw [renameStmts_eq, List.map_map, List.map_map]
  rfl

theorem MemberKey.children_rename (key : MemberKey) :
    (key.rename g).children = key.children.map (TreeNode.rename g) := by
  cases key <;> rfl

theorem Block.children_rename (block : Block) :
    (block.rename g).children = block.children.map (TreeNode.rename g) := by
  cases block with
  | mk statements span => exact map_statement_renameStmts statements

theorem FunctionBody.children_rename (body : FunctionBody) :
    (body.rename g).children = body.children.map (TreeNode.rename g) := by
  cases body with
  | expression value => rfl
  | block block => exact block.children_rename

theorem VariableDecl.children_rename (declaration : VariableDecl) :
    (declaration.rename g).children = declaration.children.map (TreeNode.rename g) := by
  cases declaration with
  | mk kind name initializer span => exact map_expression_renameExpr? initializer

theorem ForInit.children_rename (init : ForInit) :
    (init.rename g).children = init.children.map (TreeNode.rename g) := by
  cases init with
  | variableDecl declaration => exact declaration.children_rename
  | expression value => rfl

theorem Expr.children_rename (e : Expr) :
    (e.rename g).children = e.children.map (TreeNode.rename g) := by
  cases e with
  | member node object key optional => exact congrArg (_ :: ·) key.children_rename
  | call node callee arguments optional =>
      exact congrArg (_ :: ·) (map_expression_renameExprs arguments)
  | function node definition =>
      cases definition with
      | mk params body isArrow => exact body.children_rename
  | other node children => exact map_expression_renameExprs children
  | _ => rfl

theorem Stmt.children_rename (s : Stmt) :
    (s.rename g).children = s.children.map (TreeNode.rename g) := by
  cases s with
  | variableDecl declaration => exact declaration.children_rename
  | functionDecl declaration =>
      cases declaration with
      | mk name params body span => exact body.children_rename
  | returning value span => exact map_expression_renameExpr? value
  | ifElse condition thenBranch elseBranch span => cases elseBranch <;> rfl
  | forLoop init test update body span =>
      have start : ((renameForInit? g init).map ForInit.children).getD [] =
          ((init.map ForInit.children).getD []).map (TreeNode.rename g) := by
        cases init with
        | none => rfl
        | some init => exact init.children_rename
      simp only [Stmt.rename, Stmt.children, start, map_expression_renameExpr?, List.map_append]
      rfl
  | block block => exact block.children_rename
  | _ => rfl

theorem TreeNode.children_rename (node : TreeNode) :
    (node.rename g).children = node.children.map (TreeNode.rename g) := by
  cases node with
  | statement s => exact s.children_rename
  | expression e => exact e.children_rename

namespace Preorder

variable {row nodes others : List TreeNode}

theorem rename (preorder : Preorder row nodes) :
    Preorder (row.map (TreeNode.rename g)) (nodes.map (TreeNode.rename g)) := by
  induction preorder with
  | nil => exact .nil
  | cons _ _ below after =>
      rw [← TreeNode.children_rename] at below
      rw [List.map_append]
      exact Preorder.cons below after

theorem unique (first : Preorder row nodes) (second : Preorder row others) : nodes = others := by
  induction first generalizing others with
  | nil =>
      cases second
      rfl
  | cons _ _ below after =>
      cases second with
      | cons first rest => rw [below first, after rest]

end Preorder

/-- The walk over a renamed tree meets the renamed nodes. -/
theorem SyntaxTree.nodes_rename (tree : SyntaxTree) :
    (tree.rename g).nodes = tree.nodes.map (TreeNode.rename g) := by
  have walks : Preorder (tree.children.map (TreeNode.rename g)) (tree.rename g).nodes := by
    have renamed := (tree.rename g).walks
    rwa [SyntaxTree.children, SyntaxTree.rename, map_statement_renameStmts] at renamed
  exact walks.unique (Preorder.rename tree.walks)

end ConditionLint
