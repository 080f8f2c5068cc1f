import ConditionLint.Decimal.Binary64
import ConditionLint.Source.Span
import ConditionLint.Syntax.Operator

/-!
# Syntax trees

Statements and expressions of a source file. Every node has its span; every expression and every
name also has an id, under which its type is recorded. Constructs that the analysis does not know
are `other` expressions, of which only the children matter.
-/

set_option autoImplicit false

namespace ConditionLint

open Decimal

structure NodeId where
  index : Nat
deriving DecidableEq, Hashable, Repr, Inhabited

def NodeId.text (id : NodeId) : String :=
  "node#" ++ toString id.index

structure Node where
  id : NodeId
  span : Span
deriving DecidableEq, Repr, Inhabited

structure Identifier where
  node : Node
  name : String
deriving DecidableEq, Repr, Inhabited

/-- The value of a literal expression. A bigint is kept as its digits. -/
inductive Literal where
  | string (value : String)
  | number (value : Binary64)
  | bigint (digits : String)
  | boolean (value : Bool)
  | null
deriving DecidableEq, Repr, Inhabited

mutual

inductive Expr where
  | identifier (name : Identifier)
  | literal (node : Node) (value : Literal)
  | unary (node : Node) (operator : UnaryOperator) (operand : Expr)
  | binary (node : Node) (operator : BinaryOperator) (left right : Expr)
  | logical (node : Node) (operator : LogicalOperator) (left right : Expr)
  | assignment (node : Node) (operator : AssignmentOperator) (left right : Expr)
  | conditional (node : Node) (test consequent alternate : Expr)
  | member (node : Node) (object : Expr) (key : MemberKey) (optional : Bool)
  | call (node : Node) (callee : Expr) (arguments : List Expr) (optional : Bool)
  | chain (node : Node) (inner : Expr)
  | nonNull (node : Node) (inner : Expr)
  | function (node : Node) (definition : FunctionExpr)
  | other (node : Node) (children : List Expr)

/-- What a member access reads: a name, or a computed key in brackets. -/
inductive MemberKey where
  | named (name : Identifier)
  | computed (key : Expr)

structure FunctionExpr where
  params : List Identifier
  body : FunctionBody
  isArrow : Bool

inductive FunctionBody where
  | expression (value : Expr)
  | block (block : Block)

inductive Stmt where
  | expression (expression : Expr) (span : Span)
  | variableDecl (declaration : VariableDecl)
  | functionDecl (declaration : FunctionDecl)
  | returning (value : Option Expr) (span : Span)
  | ifElse (condition : Expr) (thenBranch : Stmt) (elseBranch : Option Stmt) (span : Span)
  | whileLoop (condition : Expr) (body : Stmt) (span : Span)
  | doWhileLoop (body : Stmt) (condition : Expr) (span : Span)
  | forLoop (init : Option ForInit) (test update : Option Expr) (body : Stmt) (span : Span)
  | block (block : Block)
  | empty (span : Span)

structure VariableDecl where
  kind : VariableKind
  name : Identifier
  initializer : Option Expr
  span : Span

structure FunctionDecl where
  name : Identifier
  params : List Identifier
  body : Block
  span : Span

inductive ForInit where
  | variableDecl (declaration : VariableDecl)
  | expression (expression : Expr)

structure Block where
  statements : List Stmt
  span : Span

end

structure SyntaxTree where
  statements : List Stmt
  span : Span

namespace Expr

def node : Expr → Node
  | identifier name => name.node
  | literal node _ | unary node _ _ | binary node _ _ _ | logical node _ _ _
  | assignment node _ _ _ | conditional node _ _ _ | member node _ _ _ | call node _ _ _
  | chain node _ | nonNull node _ | function node _ | other node _ => node

def id (e : Expr) : NodeId :=
  e.node.id

def span (e : Expr) : Span :=
  e.node.span

end Expr

/-- The single expression that a function returns: its expression body, or the value of the return
statement that is all of its block. -/
def FunctionExpr.returned? (f : FunctionExpr) : Option Expr :=
  match f.body with
  | .expression value => some value
  | .block ⟨[.returning (some value) _], _⟩ => some value
  | .block _ => none

namespace Stmt

def span : Stmt → Span
  | expression _ span | returning _ span | ifElse _ _ _ span | whileLoop _ _ span
  | doWhileLoop _ _ span | forLoop _ _ _ _ span | empty span => span
  | variableDecl declaration => declaration.span
  | functionDecl declaration => declaration.span
  | block braces => braces.span

def isLoop : Stmt → Bool
  | whileLoop _ _ _ | doWhileLoop _ _ _ | forLoop _ _ _ _ _ => true
  | _ => false

/-- The condition of a loop; a for loop may have none. -/
def loopTest? : Stmt → Option Expr
  | whileLoop condition _ _ | doWhileLoop _ condition _ => some condition
  | forLoop _ test _ _ _ => test
  | _ => none

end Stmt

end ConditionLint
