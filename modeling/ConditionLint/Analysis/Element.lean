import ConditionLint.Program

/-!
# Elements that may be missing

Reading `list[i]` has the element type even if there is no such element. Neither such a read nor a
chain that goes on after an optional step on one can be judged by its type.
-/

set_option autoImplicit false

namespace ConditionLint

def Expr.isLiteral : Expr → Bool
  | .literal _ _ => true
  | _ => false

namespace Program

/-- The expression reads an element by a computed key: of an array, or of a tuple by a key that is
not a literal. -/
def readsElement (p : Program) : Expr → Bool
  | .member _ object (.computed key) _ =>
    match p.constrainedType? object with
    | none => false
    | some type =>
      let parts := p.table.constrainedUnionParts type
      parts.any p.table.isArray || (!key.isLiteral && parts.any p.table.isTuple)
  | _ => false

/-- The chain of steps that ends with the expression has an optional step on an element. -/
def passesElement (p : Program) : Expr → Bool
  | .member _ base _ optional | .call _ base _ optional =>
    (optional && p.readsElement base) || p.passesElement base
  | _ => false

end Program

end ConditionLint
