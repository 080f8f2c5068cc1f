import ConditionLint.Syntax.Tree

/-!
# Visits

The walk over a tree as a list: every construct in source order, each before what it holds. A
do-while loop holds its body before its condition, as it is written. A literal holds nothing, and
neither does a return without a value or an empty statement.
-/

set_option autoImplicit false

namespace ConditionLint

inductive Visit where
  | root (tree : SyntaxTree)
  | statement (statement : Stmt)
  | variableDecl (declaration : VariableDecl)
  | functionDecl (declaration : FunctionDecl)
  | block (block : Block)
  | expression (expression : Expr)
  | function (definition : FunctionExpr)
  | identifier (name : Identifier)

mutual

def Expr.visits (e : Expr) : List Visit :=
  .expression e :: match e with
  | .identifier name => [.identifier name]
  | .literal _ _ => []
  | .unary _ _ operand => operand.visits
  | .binary _ _ left right | .logical _ _ left right | .assignment _ _ left right =>
    left.visits ++ right.visits
  | .conditional _ test consequent alternate =>
    test.visits ++ consequent.visits ++ alternate.visits
  | .member _ object key _ => object.visits ++ key.visits
  | .call _ callee arguments _ => callee.visits ++ visitsOfExprs arguments
  | .chain _ inner | .nonNull _ inner => inner.visits
  | .function _ definition => definition.visits
  | .other _ children => visitsOfExprs children

def visitsOfExprs : List Expr → List Visit
  | [] => []
  | e :: es => e.visits ++ visitsOfExprs es

def visitsOfExpr? : Option Expr → List Visit
  | none => []
  | some e => e.visits

def MemberKey.visits : MemberKey → List Visit
  | .named name => [.identifier name]
  | .computed key => key.visits

def FunctionExpr.visits (f : FunctionExpr) : List Visit :=
  .function f :: match f with
  | ⟨params, body, _⟩ => params.map .identifier ++ body.visits

def FunctionBody.visits : FunctionBody → List Visit
  | .expression value => value.visits
  | .block block => block.visits

def Stmt.visits (s : Stmt) : List Visit :=
  .statement s :: match s with
  | .expression expression _ => expression.visits
  | .variableDecl declaration => declaration.visits
  | .functionDecl declaration => declaration.visits
  | .returning value _ => visitsOfExpr? value
  | .ifElse condition thenBranch elseBranch _ =>
    condition.visits ++ thenBranch.visits ++ visitsOfStmt? elseBranch
  | .whileLoop condition body _ => condition.visits ++ body.visits
  | .doWhileLoop body condition _ => body.visits ++ condition.visits
  | .forLoop init test update body _ =>
    visitsOfForInit? init ++ visitsOfExpr? test ++ visitsOfExpr? update ++ body.visits
  | .block block => block.visits
  | .empty _ => []

def visitsOfStmts : List Stmt → List Visit
  | [] => []
  | s :: ss => s.visits ++ visitsOfStmts ss

def visitsOfStmt? : Option Stmt → List Visit
  | none => []
  | some s => s.visits

def VariableDecl.visits (d : VariableDecl) : List Visit :=
  .variableDecl d :: match d with
  | ⟨_, name, initializer, _⟩ => .identifier name :: visitsOfExpr? initializer

def FunctionDecl.visits (d : FunctionDecl) : List Visit :=
  .functionDecl d :: match d with
  | ⟨name, params, body, _⟩ => .identifier name :: params.map .identifier ++ body.visits

def ForInit.visits : ForInit → List Visit
  | .variableDecl declaration => declaration.visits
  | .expression expression => expression.visits

def visitsOfForInit? : Option ForInit → List Visit
  | none => []
  | some init => init.visits

def Block.visits (b : Block) : List Visit :=
  .block b :: match b with
  | ⟨statements, _⟩ => visitsOfStmts statements

end

def SyntaxTree.visits (m : SyntaxTree) : List Visit :=
  .root m :: visitsOfStmts m.statements

/-- The expressions of a tree, in the order of the walk. -/
def SyntaxTree.expressions (m : SyntaxTree) : List Expr :=
  m.visits.filterMap fun
    | .expression e => some e
    | _ => none

end ConditionLint
