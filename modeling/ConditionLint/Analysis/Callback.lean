import ConditionLint.Analysis.Condition

/-!
# Predicate callbacks

`filter`, `find`, `some` and `every` of arrays use what their first argument returns as a
condition. A function in place that returns a single expression is judged by this expression; any
other callback is judged by the return types of its call signatures.
-/

set_option autoImplicit false

namespace ConditionLint

def predicateMethods : List String :=
  ["filter", "find", "some", "every"]

/-- The name that a member key spells out: a name, or a string literal in brackets. -/
def MemberKey.spelledName? : MemberKey → Option String
  | .named name => some name.name
  | .computed (.literal _ (.string name)) => some name
  | .computed _ => none

def Expr.inlineResult? : Expr → Option Expr
  | .function _ definition => definition.returned?
  | _ => none

namespace Table

def mayBeList (t : Table) (id : TypeId) : Bool :=
  ((t.unionParts id).flatMap t.intersectionParts).any fun part => t.isArray part || t.isTuple part

/-- What the return types of a callback fix, if anything. -/
def callbackVerdict? (t : Table) (returnTypes : List TypeId) : Option Verdict :=
  if returnTypes.any (t.hasKind · [.any, .unknown]) then none
  else if !returnTypes.any t.isPossiblyFalsy then some .callbackAlwaysTruthy
  else if !returnTypes.any t.isPossiblyTruthy then some .callbackAlwaysFalsy
  else none

end Table

namespace Program

def isPredicateMethod (p : Program) : Expr → Bool
  | .member _ object key _ =>
    key.spelledName?.any predicateMethods.contains &&
      (p.constrainedType? object).any p.table.mayBeList
  | _ => false

def judgeSignatures (p : Program) (callback : Expr) : Judgement :=
  match p.constrainedType? callback with
  | none => .silent
  | some type =>
    match p.table.callSignatures type with
    | [] => .doubtful (.notCallable callback.span)
    | signatures =>
      match p.table.callbackVerdict? (signatures.map Signature.returnType) with
      | some verdict => .decided ⟨verdict, callback.span, none⟩
      | none => .silent

def judgeCallback (p : Program) (callback : Expr) : Judgement :=
  match callback.inlineResult? with
  | some result => p.judgeCondition result
  | none => p.judgeSignatures callback

/-- Judge a call by its predicate callback, if it is a call of a predicate method. -/
def judgePredicateCall (p : Program) (callee : Expr) (arguments : List Expr) : Judgement :=
  match p.isPredicateMethod callee, arguments with
  | true, callback :: _ => p.judgeCallback callback
  | _, _ => .silent

end Program

end ConditionLint
