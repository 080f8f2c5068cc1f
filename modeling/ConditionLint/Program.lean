import ConditionLint.Syntax.Tree
import ConditionLint.Types.Predicates
import ConditionLint.Types.Display

/-!
# Typed programs

What is known about the types of one source file: the type table, the type recorded for each node,
and whether `null` and `undefined` are types of their own. The analysis asks for the constrained
type of an expression, which is its recorded type or the base constraint of that.
-/

set_option autoImplicit false

namespace ConditionLint

structure Program where
  table : Table
  nodeTypes : Std.HashMap NodeId TypeId
  strictNullChecks : Bool

namespace Program

def empty : Program :=
  ⟨.initial, ∅, true⟩

/-- Record the type of a node, in place of an earlier one. -/
def record (p : Program) (node : NodeId) (type : TypeId) : Program :=
  { p with nodeTypes := p.nodeTypes.insert node type }

def typeOf? (p : Program) (node : NodeId) : Option TypeId :=
  p.nodeTypes[node]?

@[simp] theorem record_table (p : Program) (node : NodeId) (type : TypeId) :
    (p.record node type).table = p.table := rfl

@[simp] theorem typeOf?_record (p : Program) (node other : NodeId) (type : TypeId) :
    (p.record node type).typeOf? other = if node = other then some type else p.typeOf? other := by
  simp [typeOf?, record, Std.HashMap.getElem?_insert]

@[simp] theorem typeOf?_of_no_types (table : Table) (strict : Bool) (node : NodeId) :
    (Program.mk table ∅ strict).typeOf? node = none := by
  simp [typeOf?]

/-- The recorded type of an expression, resolved to its base constraint if it has one. -/
def constrainedType? (p : Program) (e : Expr) : Option TypeId :=
  (p.typeOf? e.id).map p.table.constrained

end Program

end ConditionLint
