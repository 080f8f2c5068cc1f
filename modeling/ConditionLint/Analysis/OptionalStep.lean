import ConditionLint.Analysis.Element
import ConditionLint.Analysis.Finding
import ConditionLint.Analysis.Origin
import ConditionLint.Source.Token

/-!
# Optional steps

An optional member access or call is redundant if its base is never nullish. It is reported on its
`?.` token, the first one after the base. Where the tokens hold none they do not belong to the
tree, and no answer is right.
-/

set_option autoImplicit false

namespace ConditionLint

/-- An optional step, whose base has the given place, without a `?.` token. -/
structure MissingOperator where
  base : Span
deriving DecidableEq, Repr, Inhabited

def MissingOperator.message (fault : MissingOperator) : String :=
  "missing `?.` token after the optional chain base at " ++ fault.base.place

/-- The base of an optional step, and the spelling that the step has without being optional. -/
def Expr.optionalStep? : Expr → Option (Expr × String)
  | .member _ object (.named _) true => some (object, ".")
  | .member _ object (.computed _) true => some (object, "")
  | .call _ callee _ true => some (callee, "")
  | _ => none

namespace Program

/-- The nullability of a base is its own, not passed on from the object or callee before it. -/
def isOwnNullability (p : Program) : Expr → Bool
  | .member _ object key _ => !p.inheritsFromObject object key
  | .call _ callee _ _ => !p.inheritsFromCallee callee
  | _ => true

/-- An optional step on a base of the given type can take effect. -/
def isOptionable (p : Program) (base : Expr) (type : TypeId) : Bool :=
  p.table.hasKind type (.any :: .unknown :: Kind.typeVariable) ||
    (p.isOwnNullability base && (p.table.isNullable type || p.table.hasKind type [.void]))

def judgeRedundantStep (tokens : TokenStream) (base : Expr) (type : TypeId)
    (replacement : String) : Except MissingOperator Judgement :=
  match tokens.tokenAfter? base.span.stop (·.isPunctuator "?.") with
  | some token =>
    .ok (.decided ⟨.redundantStep token.span replacement, token.span, some type⟩)
  | none => .error ⟨base.span⟩

def judgeStep (p : Program) (tokens : TokenStream) (e : Expr) :
    Except MissingOperator Judgement :=
  match e.optionalStep? with
  | none => .ok .silent
  | some (base, replacement) =>
    if p.passesElement e then .ok (.doubtful (.afterElement e.span))
    else
      match p.constrainedType? base with
      | none => .ok (.doubtful (.untypedBase base.span))
      | some type =>
        if p.isOptionable base type then .ok .silent
        else judgeRedundantStep tokens base type replacement

end Program

end ConditionLint
