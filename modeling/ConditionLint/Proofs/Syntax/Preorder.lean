import ConditionLint.Syntax.Visit
import Mathlib.Data.List.Lex

/-!
# The walk is a preorder

Statements and expressions are the nodes of a tree. A node has a place: the way down to it, as the
positions of the nodes on the way among their siblings. The walk meets the nodes in the
lexicographic order of their places, a node before those below it, and meets every place once.
-/

set_option autoImplicit false

namespace ConditionLint

/-- A statement or an expression. -/
inductive TreeNode where
  | statement (statement : Stmt)
  | expression (expression : Expr)

/-- The node that a visit is made to, if it is a statement or an expression. -/
def Visit.node? : Visit → Option TreeNode
  | .statement s => some (.statement s)
  | .expression e => some (.expression e)
  | _ => none

/-!
## Nodes directly below
-/

def MemberKey.children : MemberKey → List TreeNode
  | named _ => []
  | computed key => [.expression key]

def Block.children (block : Block) : List TreeNode :=
  block.statements.map .statement

def FunctionBody.children : FunctionBody → List TreeNode
  | expression value => [.expression value]
  | block braces => braces.children

def VariableDecl.children (declaration : VariableDecl) : List TreeNode :=
  declaration.initializer.toList.map .expression

def ForInit.children : ForInit → List TreeNode
  | variableDecl declaration => declaration.children
  | expression value => [.expression value]

def Expr.children : Expr → List TreeNode
  | identifier _ | literal _ _ => []
  | unary _ _ operand => [.expression operand]
  | binary _ _ left right | logical _ _ left right | assignment _ _ left right =>
    [.expression left, .expression right]
  | conditional _ test consequent alternate =>
    [.expression test, .expression consequent, .expression alternate]
  | member _ object key _ => .expression object :: key.children
  | call _ callee arguments _ => .expression callee :: arguments.map .expression
  | chain _ inner | nonNull _ inner => [.expression inner]
  | function _ definition => definition.body.children
  | other _ children => children.map .expression

/-- The condition of a do-while loop comes after its body. -/
def Stmt.children : Stmt → List TreeNode
  | expression value _ => [.expression value]
  | variableDecl declaration => declaration.children
  | functionDecl declaration => declaration.body.children
  | returning value _ => value.toList.map .expression
  | ifElse condition thenBranch elseBranch _ =>
    .expression condition :: .statement thenBranch :: elseBranch.toList.map .statement
  | whileLoop condition body _ => [.expression condition, .statement body]
  | doWhileLoop body condition _ => [.statement body, .expression condition]
  | forLoop init test update body _ =>
    (init.map ForInit.children).getD [] ++ test.toList.map .expression ++
      update.toList.map .expression ++ [.statement body]
  | block braces => braces.children
  | empty _ => []

/-- The statements and expressions directly below a node, in the order of the text. -/
def TreeNode.children : TreeNode → List TreeNode
  | statement s => s.children
  | expression e => e.children

/-!
## Places
-/

/-- The node at a place of a row of nodes and what is below them. -/
def nodeAt? : List TreeNode → List Nat → Option TreeNode
  | _, [] => none
  | nodes, [position] => nodes[position]?
  | nodes, position :: next :: below =>
    nodes[position]?.bind fun node => nodeAt? node.children (next :: below)

/-- A list has the nodes of a row and all below them, each before those below it and these before
the next in the row. -/
inductive Preorder : List TreeNode → List TreeNode → Prop where
  | nil : Preorder [] []
  | cons {node : TreeNode} {rest below after : List TreeNode} :
      Preorder node.children below → Preorder rest after →
      Preorder (node :: rest) (node :: below ++ after)

namespace Preorder

variable {node : TreeNode} {row other nodes others below : List TreeNode}

theorem append (first : Preorder row nodes) (second : Preorder other others) :
    Preorder (row ++ other) (nodes ++ others) := by
  induction first with
  | nil => exact second
  | cons below after _ later =>
      rw [List.append_assoc]
      exact .cons below later

end Preorder

/-- The places list all nodes of a row and below, in lexicographic order. -/
structure ListsPlaces (row : List TreeNode) (places : List (List Nat)) (nodes : List TreeNode) :
    Prop where
  increasing : places.Pairwise (· < ·)
  complete : ∀ place, place ∈ places ↔ (nodeAt? row place).isSome = true
  nodes : places.map (nodeAt? row) = nodes.map some

/-- The same place one further to the right. -/
def toRight : List Nat → List Nat
  | [] => []
  | position :: below => (position + 1) :: below

section Places

variable {node : TreeNode} {rest : List TreeNode}

private theorem nodeAt?_below {place : List Nat} (deeper : place ≠ []) :
    nodeAt? (node :: rest) (0 :: place) = nodeAt? node.children place := by
  cases place with
  | nil => exact absurd rfl deeper
  | cons next below => rfl

private theorem nodeAt?_toRight (place : List Nat) :
    nodeAt? (node :: rest) (toRight place) = nodeAt? rest place := by
  rcases place with _ | ⟨position, _ | ⟨next, below⟩⟩ <;> rfl

private theorem ne_nil_of_nodeAt? {row : List TreeNode} {place : List Nat}
    (found : (nodeAt? row place).isSome = true) : place ≠ [] := by
  rintro rfl
  cases found

private theorem toRight_eq_nil {place : List Nat} : toRight place = [] ↔ place = [] := by
  cases place <;> simp [toRight]

private theorem toRight_lt_toRight {first second : List Nat} (nonempty : first ≠ [])
    (less : first < second) : toRight first < toRight second := by
  cases first with
  | nil => exact absurd rfl nonempty
  | cons position below =>
      cases second with
      | nil => cases less
      | cons other further =>
          rw [toRight, toRight, List.cons_lt_cons_iff]
          rcases List.cons_lt_cons_iff.mp less with left | ⟨same, deeper⟩
          · exact .inl (Nat.succ_lt_succ left)
          · exact .inr ⟨congrArg Nat.succ same, deeper⟩

private theorem zero_cons_lt_toRight {below second : List Nat} (nonempty : second ≠ []) :
    0 :: below < toRight second := by
  cases second with
  | nil => exact absurd rfl nonempty
  | cons position further =>
      rw [toRight, List.cons_lt_cons_iff]
      exact .inl (Nat.succ_pos _)

/-- The places of a row, from those below its first node and those of the others. -/
theorem ListsPlaces.cons {below after : List TreeNode} {deeper further : List (List Nat)}
    (first : ListsPlaces node.children deeper below) (others : ListsPlaces rest further after) :
    ListsPlaces (node :: rest)
      ([0] :: deeper.map (0 :: ·) ++ further.map toRight) (node :: below ++ after) where
  increasing := by
    have nonemptyDeeper {place : List Nat} (listed : place ∈ deeper) : place ≠ [] :=
      ne_nil_of_nodeAt? ((first.complete place).mp listed)
    have nonemptyFurther {place : List Nat} (listed : place ∈ further) : place ≠ [] :=
      ne_nil_of_nodeAt? ((others.complete place).mp listed)
    have under : (deeper.map (0 :: ·)).Pairwise (· < ·) :=
      first.increasing.map _ fun _ _ less => List.cons_lt_cons_iff.mpr (.inr ⟨rfl, less⟩)
    have beside : (further.map toRight).Pairwise (· < ·) :=
      List.pairwise_map.mpr (others.increasing.imp_of_mem fun listed _ less =>
        toRight_lt_toRight (nonemptyFurther listed) less)
    refine List.pairwise_append.mpr ⟨List.pairwise_cons.mpr ⟨?_, under⟩, beside, ?_⟩
    · intro place listed
      obtain ⟨below, member, rfl⟩ := List.mem_map.mp listed
      cases below with
      | nil => exact absurd rfl (nonemptyDeeper member)
      | cons next below => exact List.cons_lt_cons_iff.mpr (.inr ⟨rfl, List.nil_lt_cons _ _⟩)
    · intro place listed other later
      obtain ⟨place', member, rfl⟩ := List.mem_map.mp later
      have before (below : List Nat) : 0 :: below < toRight place' :=
        zero_cons_lt_toRight (nonemptyFurther member)
      rcases List.mem_cons.mp listed with rfl | under
      · exact before []
      · obtain ⟨below, _, rfl⟩ := List.mem_map.mp under
        exact before below
  complete place := by
    rw [List.mem_append, List.mem_cons, List.mem_map, List.mem_map]
    rcases place with _ | ⟨_ | position, below⟩
    · -- no place is empty
      have absent : [] ∉ further := fun listed =>
        ne_nil_of_nodeAt? ((others.complete []).mp listed) rfl
      simpa [toRight_eq_nil, nodeAt?] using absent
    · -- the first node, or below it
      have never (place : List Nat) : toRight place ≠ 0 :: below := by
        cases place <;> simp [toRight]
      cases below with
      | nil => simp [nodeAt?]
      | cons next below =>
          rw [nodeAt?_below (List.cons_ne_nil next below), ← first.complete]
          simp [never]
    · -- further to the right
      have moved (place : List Nat) :
          toRight place = (position + 1) :: below ↔ place = position :: below := by
        cases place <;> simp [toRight]
      have same : (nodeAt? (node :: rest) ((position + 1) :: below)).isSome =
          (nodeAt? rest (position :: below)).isSome :=
        congrArg Option.isSome (nodeAt?_toRight (position :: below))
      rw [same, ← others.complete]
      simp [moved]
  nodes := by
    have under : deeper.map (nodeAt? (node :: rest) ∘ (0 :: ·)) =
        deeper.map (nodeAt? node.children) :=
      List.map_congr_left fun place listed =>
        nodeAt?_below (ne_nil_of_nodeAt? ((first.complete place).mp listed))
    have beside : nodeAt? (node :: rest) ∘ toRight = nodeAt? rest := funext nodeAt?_toRight
    rw [List.map_append, List.map_cons, List.map_map, List.map_map, under, beside, first.nodes,
      others.nodes, List.map_append, List.map_cons]
    rfl

theorem Preorder.exists_places {row nodes : List TreeNode} (preorder : Preorder row nodes) :
    ∃ places, ListsPlaces row places nodes := by
  induction preorder with
  | nil =>
      refine ⟨[], .nil, fun place => ?_, rfl⟩
      rcases place with _ | ⟨position, _ | ⟨next, below⟩⟩ <;> simp [nodeAt?]
  | cons _ _ first others =>
      obtain ⟨deeper, first⟩ := first
      obtain ⟨further, others⟩ := others
      exact ⟨_, first.cons others⟩

end Places

/-!
## The walk
-/

/-- The visits, as far as they are made to statements and expressions, are a preorder of the row. -/
def Walks (row : List TreeNode) (visits : List Visit) : Prop :=
  Preorder row (visits.filterMap Visit.node?)

namespace Walks

variable {row rest : List TreeNode} {first second : List Visit}

theorem nil : Walks [] [] := Preorder.nil

theorem append (start : Walks row first) (finish : Walks rest second) :
    Walks (row ++ rest) (first ++ second) := by
  rw [Walks, List.filterMap_append]
  exact Preorder.append start finish

theorem node {node : TreeNode} {visit : Visit} (made : visit.node? = some node)
    (below : Walks node.children first) : Walks [node] (visit :: first) := by
  have single := Preorder.cons below .nil
  rwa [List.append_nil, ← List.filterMap_cons_some made] at single

/-- A visit to a construct of another kind is made on the way. -/
theorem pass {visit : Visit} (other : visit.node? = none) (below : Walks row first) :
    Walks row (visit :: first) := by
  rw [Walks, List.filterMap_cons_none other]
  exact below

theorem names (names : List Identifier) (below : Walks row first) :
    Walks row (names.map .identifier ++ first) := by
  induction names with
  | nil => exact below
  | cons name rest ih => exact .pass rfl ih

end Walks

mutual

theorem Expr.walks : (e : Expr) → Walks [.expression e] e.visits
  | .identifier _ => .node rfl (.pass rfl .nil)
  | .literal _ _ => .node rfl .nil
  | .unary _ _ operand => .node rfl (Expr.walks operand)
  | .binary _ _ left right | .logical _ _ left right | .assignment _ _ left right =>
      .node rfl ((Expr.walks left).append (Expr.walks right))
  | .conditional _ test consequent alternate =>
      .node rfl (((Expr.walks test).append (Expr.walks consequent)).append (Expr.walks alternate))
  | .member _ object key _ => .node rfl ((Expr.walks object).append (MemberKey.walks key))
  | .call _ callee arguments _ =>
      .node rfl ((Expr.walks callee).append (walksOfExprs arguments))
  | .chain _ inner | .nonNull _ inner => .node rfl (Expr.walks inner)
  | .function _ definition => .node rfl (FunctionExpr.walks definition)
  | .other _ children => .node rfl (walksOfExprs children)

theorem walksOfExprs : (es : List Expr) → Walks (es.map .expression) (visitsOfExprs es)
  | [] => .nil
  | e :: es => (Expr.walks e).append (walksOfExprs es)

theorem walksOfExpr? : (e : Option Expr) → Walks (e.toList.map .expression) (visitsOfExpr? e)
  | none => .nil
  | some e => Expr.walks e

theorem MemberKey.walks : (key : MemberKey) → Walks key.children key.visits
  | .named _ => .pass rfl .nil
  | .computed key => Expr.walks key

theorem FunctionExpr.walks : (definition : FunctionExpr) →
    Walks definition.body.children definition.visits
  | ⟨params, body, _⟩ => .pass rfl (.names params (FunctionBody.walks body))

theorem FunctionBody.walks : (body : FunctionBody) → Walks body.children body.visits
  | .expression value => Expr.walks value
  | .block block => Block.walks block

theorem Stmt.walks : (s : Stmt) → Walks [.statement s] s.visits
  | .expression e _ => .node rfl (Expr.walks e)
  | .variableDecl declaration => .node rfl (VariableDecl.walks declaration)
  | .functionDecl declaration => .node rfl (FunctionDecl.walks declaration)
  | .returning value _ => .node rfl (walksOfExpr? value)
  | .ifElse condition thenBranch elseBranch _ =>
      .node rfl (((Expr.walks condition).append (Stmt.walks thenBranch)).append
        (walksOfStmt? elseBranch))
  | .whileLoop condition body _ =>
      .node rfl ((Expr.walks condition).append (Stmt.walks body))
  | .doWhileLoop body condition _ =>
      .node rfl ((Stmt.walks body).append (Expr.walks condition))
  | .forLoop init test update body _ =>
      .node rfl ((((walksOfForInit? init).append (walksOfExpr? test)).append
        (walksOfExpr? update)).append (Stmt.walks body))
  | .block block => .node rfl (Block.walks block)
  | .empty _ => .node rfl .nil

theorem walksOfStmts : (ss : List Stmt) → Walks (ss.map .statement) (visitsOfStmts ss)
  | [] => .nil
  | s :: ss => (Stmt.walks s).append (walksOfStmts ss)

theorem walksOfStmt? : (s : Option Stmt) → Walks (s.toList.map .statement) (visitsOfStmt? s)
  | none => .nil
  | some s => Stmt.walks s

theorem VariableDecl.walks : (declaration : VariableDecl) →
    Walks declaration.children declaration.visits
  | ⟨_, _, initializer, _⟩ => .pass rfl (.pass rfl (walksOfExpr? initializer))

theorem FunctionDecl.walks : (declaration : FunctionDecl) →
    Walks declaration.body.children declaration.visits
  | ⟨_, params, body, _⟩ => .pass rfl (.pass rfl (.names params (Block.walks body)))

theorem ForInit.walks : (init : ForInit) → Walks init.children init.visits
  | .variableDecl declaration => VariableDecl.walks declaration
  | .expression e => Expr.walks e

theorem walksOfForInit? : (init : Option ForInit) →
    Walks ((init.map ForInit.children).getD []) (visitsOfForInit? init)
  | none => .nil
  | some init => ForInit.walks init

theorem Block.walks : (block : Block) → Walks block.children block.visits
  | ⟨statements, _⟩ => .pass rfl (walksOfStmts statements)

end

namespace SyntaxTree

/-- The statements and expressions of a tree, in the order of the walk. -/
def nodes (tree : SyntaxTree) : List TreeNode :=
  tree.visits.filterMap Visit.node?

/-- The statements that a tree is made of. -/
def children (tree : SyntaxTree) : List TreeNode :=
  tree.statements.map .statement

theorem walks (tree : SyntaxTree) : Walks tree.children tree.visits :=
  .pass rfl (walksOfStmts tree.statements)

/-- The walk meets the nodes of a tree in the order of their places, each once. -/
theorem exists_places (tree : SyntaxTree) :
    ∃ places, ListsPlaces tree.children places tree.nodes :=
  Preorder.exists_places tree.walks

end SyntaxTree

end ConditionLint
