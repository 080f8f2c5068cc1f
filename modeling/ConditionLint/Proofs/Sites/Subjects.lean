import ConditionLint.Proofs.Sites.Decider
import ConditionLint.Analysis.Site
import Mathlib.Algebra.Order.Group.Multiset

/-!
# The subjects of sites

The subject of a site is the expression whose type decides it: the deciding expression of a
condition or of what a callback in place returns, the operand of `??`, or a callback as a whole.
Every occurrence of an expression in a tree is the subject of one site at most, and none that a
chain wraps is a subject.
-/

set_option autoImplicit false

namespace ConditionLint

/-- The expression that a predicate callback is judged by. -/
def Expr.callbackSubject (callback : Expr) : Expr :=
  match callback.inlineResult? with
  | some result => result.decider
  | none => callback

/-- The expression that a site is judged by, if there is one. -/
def Site.subject? (p : Program) : Site → Option Expr
  | .condition test | .loopCondition test => some test.decider
  | .nullish operand => some operand
  | .predicateCall callee (callback :: _) =>
    if p.isPredicateMethod callee then some callback.callbackSubject else none
  | .predicateCall _ [] | .comparison _ _ _ _ | .step _ => none

def Expr.wrapped? : Expr → Option Expr
  | .chain _ inner => some inner
  | _ => none

def Visit.expression? : Visit → Option Expr
  | .expression e => some e
  | _ => none

/-- The subjects of a visit's sites, and what the visit wraps. -/
def Visit.claims (p : Program) (visit : Visit) : List Expr :=
  visit.sites.filterMap (Site.subject? p) ++ (visit.expression?.bind Expr.wrapped?).toList

/-- The expressions of visits, each as often as it occurs. -/
def expressionsIn (visits : List Visit) : Multiset Expr :=
  visits.filterMap Visit.expression?

/-- The claims of visits, each as often as it occurs. -/
def claimsIn (p : Program) (visits : List Visit) : Multiset Expr :=
  visits.flatMap (Visit.claims p)

@[simp] theorem expressionsIn_nil : expressionsIn [] = 0 := rfl

@[simp] theorem expressionsIn_append (first second : List Visit) :
    expressionsIn (first ++ second) = expressionsIn first + expressionsIn second := by
  simp [expressionsIn]

theorem expressionsIn_cons (visit : Visit) (rest : List Visit) :
    expressionsIn (visit :: rest) = visit.expression?.toList + expressionsIn rest := by
  cases found : visit.expression? <;> simp [expressionsIn, found]

@[simp] theorem expressionsIn_identifiers (names : List Identifier) :
    expressionsIn (names.map .identifier) = 0 := by
  induction names with
  | nil => rfl
  | cons name rest ih => exact (expressionsIn_cons _ _).trans ((zero_add _).trans ih)

variable {p : Program}

@[simp] theorem claimsIn_nil : claimsIn p [] = 0 := rfl

@[simp] theorem claimsIn_append (first second : List Visit) :
    claimsIn p (first ++ second) = claimsIn p first + claimsIn p second := by
  simp [claimsIn]

theorem claimsIn_cons (visit : Visit) (rest : List Visit) :
    claimsIn p (visit :: rest) = visit.claims p + claimsIn p rest := by
  simp [claimsIn]

@[simp] theorem claimsIn_identifiers (names : List Identifier) :
    claimsIn p (names.map .identifier) = 0 := by
  induction names with
  | nil => rfl
  | cons name rest ih => exact (claimsIn_cons _ _).trans ((zero_add _).trans ih)

/-- A visit of no expression needs occurrences below it for what it claims. -/
theorem claimsIn_cons_le {visit : Visit} (claimed : List Expr) {children : List Visit}
    (other : visit.expression? = none) (claims : visit.claims p = claimed)
    (below : claimed + claimsIn p children ≤ expressionsIn children) :
    claimsIn p (visit :: children) ≤ expressionsIn (visit :: children) := by
  rw [claimsIn_cons, claims, expressionsIn_cons, other]
  exact below.trans (Multiset.le_add_left _ _)

/-!
## Claims within an expression
-/

/-- The occurrences in an expression that are claimed, together with the expression itself, with
its deciding expression or with the subject it has as a callback, are different occurrences. -/
structure Expr.Fits (p : Program) (e : Expr) : Prop where
  self : {e} + claimsIn p e.visits ≤ expressionsIn e.visits
  decider : {e.decider} + claimsIn p e.visits ≤ expressionsIn e.visits
  callback : {e.callbackSubject} + claimsIn p e.visits ≤ expressionsIn e.visits

namespace Expr.Fits

theorem below {e : Expr} (fits : e.Fits p) : claimsIn p e.visits ≤ expressionsIn e.visits :=
  (Multiset.le_add_left _ _).trans fits.self

theorem self_of_children {e : Expr} (claimed : List Expr) {children : List Visit}
    (visits : e.visits = .expression e :: children)
    (claims : (Visit.expression e).claims p = claimed)
    (below : claimed + claimsIn p children ≤ expressionsIn children) :
    {e} + claimsIn p e.visits ≤ expressionsIn e.visits := by
  rw [visits, claimsIn_cons, claims, expressionsIn_cons]
  exact add_le_add le_rfl below

theorem inner_of_children {e inner : Expr} (claimed : List Expr) {children : List Visit}
    (visits : e.visits = .expression e :: children)
    (claims : (Visit.expression e).claims p = claimed)
    (below : {inner} + (claimed + claimsIn p children) ≤ expressionsIn children) :
    {inner} + claimsIn p e.visits ≤ expressionsIn e.visits := by
  rw [visits, claimsIn_cons, claims, expressionsIn_cons]
  exact below.trans (Multiset.le_add_left _ _)

private theorem of_plain {e : Expr} (claimed : List Expr) {children : List Visit}
    (visits : e.visits = .expression e :: children)
    (claims : (Visit.expression e).claims p = claimed) (decides : e.decider = e)
    (whole : e.callbackSubject = e)
    (below : claimed + claimsIn p children ≤ expressionsIn children) : e.Fits p := by
  have self := self_of_children claimed visits claims below
  exact ⟨self, by rwa [decides], by rwa [whole]⟩

private theorem of_operand {e : Expr} (operand : Expr) (claimed : List Expr) {children : List Visit}
    (visits : e.visits = .expression e :: children)
    (claims : (Visit.expression e).claims p = claimed) (decides : e.decider = operand.decider)
    (whole : e.callbackSubject = e)
    (below : {operand.decider} + (claimed + claimsIn p children) ≤ expressionsIn children) :
    e.Fits p := by
  have self := self_of_children claimed visits claims ((Multiset.le_add_left _ _).trans below)
  refine ⟨self, ?_, by rwa [whole]⟩
  rw [decides]
  exact inner_of_children claimed visits claims below

end Expr.Fits

/-- Around the expression it returns, a function has no other expression. -/
private theorem FunctionExpr.visits_of_returned? {definition : FunctionExpr} {result : Expr}
    (returned : definition.returned? = some result) :
    claimsIn p definition.visits = claimsIn p result.visits ∧
      expressionsIn definition.visits = expressionsIn result.visits := by
  obtain ⟨params, body, isArrow⟩ := definition
  cases body with
  | expression value =>
      cases returned
      simp [FunctionExpr.visits, FunctionBody.visits, claimsIn_cons, expressionsIn_cons,
        Visit.claims, Visit.sites, Visit.expression?]
  | block block =>
      unfold FunctionExpr.returned? at returned
      split at returned
      · rename_i isExpression
        cases isExpression
      · rename_i value span outer isBlock
        cases isBlock
        cases returned
        simp [FunctionExpr.visits, FunctionBody.visits, Block.visits, visitsOfStmts, Stmt.visits,
          visitsOfExpr?, claimsIn_cons, expressionsIn_cons, Visit.claims, Visit.sites,
          Stmt.sites, Stmt.loopTest?, Visit.expression?]
      · cases returned

mutual

theorem Expr.fits (p : Program) : (e : Expr) → e.Fits p
  | .identifier name => .of_plain [] rfl rfl rfl rfl le_rfl
  | .literal node value => .of_plain [] rfl rfl rfl rfl le_rfl
  | .unary node operator operand => by
      have inner := Expr.fits p operand
      cases operator with
      | not => exact .of_operand operand [] rfl rfl rfl rfl (by simpa using inner.decider)
      | _ => exact .of_plain [] rfl rfl rfl rfl (by simpa using inner.below)
  | .binary node operator left right => by
      have both := add_le_add (Expr.fits p left).below (Expr.fits p right).below
      exact .of_plain [] rfl rfl rfl rfl (by simpa using both)
  | .logical node operator left right => by
      have first := Expr.fits p left
      have second := Expr.fits p right
      cases operator with
      | and | or =>
          have both := add_le_add first.decider second.decider
          exact .of_operand right [left.decider] rfl rfl rfl rfl
            (by simpa [Multiset.cons_swap right.decider] using both)
      | nullish =>
          have both := add_le_add first.self second.below
          exact .of_plain [left] rfl rfl rfl rfl (by simpa using both)
  | .assignment node operator left right => by
      have first := Expr.fits p left
      have second := (Expr.fits p right).below
      cases operator with
      | logicalAnd | logicalOr =>
          exact .of_plain [left.decider] rfl rfl rfl rfl
            (by simpa using add_le_add first.decider second)
      | nullish =>
          exact .of_plain [left] rfl rfl rfl rfl (by simpa using add_le_add first.self second)
      | _ => exact .of_plain [] rfl rfl rfl rfl (by simpa using add_le_add first.below second)
  | .conditional node test consequent alternate => by
      have both := add_le_add (Expr.fits p test).decider
        (add_le_add (Expr.fits p consequent).below (Expr.fits p alternate).below)
      exact .of_plain [test.decider] rfl rfl rfl rfl (by simpa [add_assoc] using both)
  | .member node object key optional => by
      have both := add_le_add (Expr.fits p object).below (MemberKey.claims_le p key)
      exact .of_plain [] rfl rfl rfl rfl (by simpa using both)
  | .call node callee [] optional => by
      exact .of_plain [] rfl rfl rfl rfl (by simpa [visitsOfExprs] using (Expr.fits p callee).below)
  | .call node callee (callback :: rest) optional => by
      have first := (Expr.fits p callee).below
      have second := Expr.fits p callback
      have others := claimsOfExprs_le p rest
      cases predicate : p.isPredicateMethod callee with
      | true =>
          refine .of_plain [callback.callbackSubject] rfl ?_ rfl rfl ?_
          · simp [Visit.claims, Visit.sites, Expr.sites, Site.subject?, predicate,
              Visit.expression?, Expr.wrapped?]
          · simpa [visitsOfExprs] using add_le_add first (add_le_add second.callback others)
      | false =>
          refine .of_plain [] rfl ?_ rfl rfl ?_
          · simp [Visit.claims, Visit.sites, Expr.sites, Site.subject?, predicate,
              Visit.expression?, Expr.wrapped?]
          · simpa [visitsOfExprs] using add_le_add first (add_le_add second.below others)
  | .chain node inner => .of_plain [inner] rfl rfl rfl rfl (by simpa using (Expr.fits p inner).self)
  | .nonNull node inner => .of_plain [] rfl rfl rfl rfl (by simpa using (Expr.fits p inner).below)
  | .function node definition => by
      have self := Expr.Fits.self_of_children (e := .function node definition) [] rfl rfl
        (by simpa using FunctionExpr.claims_le p definition)
      refine ⟨self, self, ?_⟩
      cases returned : definition.returned? with
      | none => simpa [Expr.callbackSubject, Expr.inlineResult?, returned] using self
      | some result =>
          have fits := (FunctionExpr.returned_fits p definition returned).decider
          obtain ⟨claims, expressions⟩ := FunctionExpr.visits_of_returned? (p := p) returned
          have subject : (Expr.function node definition).callbackSubject = result.decider := by
            simp [Expr.callbackSubject, Expr.inlineResult?, returned]
          rw [subject]
          refine Expr.Fits.inner_of_children [] rfl rfl ?_
          rw [claims, expressions]
          simpa using fits
  | .other node children =>
      .of_plain [] rfl rfl rfl rfl (by simpa using claimsOfExprs_le p children)

theorem claimsOfExprs_le (p : Program) : (es : List Expr) →
    claimsIn p (visitsOfExprs es) ≤ expressionsIn (visitsOfExprs es)
  | [] => le_rfl
  | e :: es => by
      simpa [visitsOfExprs] using add_le_add (Expr.fits p e).below (claimsOfExprs_le p es)

theorem MemberKey.claims_le (p : Program) : (key : MemberKey) →
    claimsIn p key.visits ≤ expressionsIn key.visits
  | .named _ => le_rfl
  | .computed key => (Expr.fits p key).below

theorem FunctionExpr.claims_le (p : Program) : (definition : FunctionExpr) →
    claimsIn p definition.visits ≤ expressionsIn definition.visits
  | ⟨params, body, isArrow⟩ =>
      claimsIn_cons_le [] rfl rfl (by simpa using FunctionBody.claims_le p body)

theorem FunctionExpr.returned_fits (p : Program) : (definition : FunctionExpr) →
    ∀ {result : Expr}, definition.returned? = some result → result.Fits p
  | ⟨_, .expression value, _⟩, _, rfl => Expr.fits p value
  | ⟨_, .block ⟨[.returning (some value) _], _⟩, _⟩, _, rfl => Expr.fits p value

theorem FunctionBody.claims_le (p : Program) : (body : FunctionBody) →
    claimsIn p body.visits ≤ expressionsIn body.visits
  | .expression value => (Expr.fits p value).below
  | .block block => Block.claims_le p block

theorem Stmt.claims_le (p : Program) : (s : Stmt) →
    claimsIn p s.visits ≤ expressionsIn s.visits
  | .expression e span => claimsIn_cons_le [] rfl rfl (by simpa using (Expr.fits p e).below)
  | .variableDecl declaration =>
      claimsIn_cons_le [] rfl rfl (by simpa using VariableDecl.claims_le p declaration)
  | .functionDecl declaration =>
      claimsIn_cons_le [] rfl rfl (by simpa using FunctionDecl.claims_le p declaration)
  | .returning value span =>
      claimsIn_cons_le [] rfl rfl (by simpa using claimsOfExpr?_le p value)
  | .ifElse condition thenBranch elseBranch span => by
      have all := add_le_add (Expr.fits p condition).decider
        (add_le_add (Stmt.claims_le p thenBranch) (claimsOfStmt?_le p elseBranch))
      exact claimsIn_cons_le [condition.decider] rfl rfl (by simpa [add_assoc] using all)
  | .whileLoop condition body span => by
      have both := add_le_add (Expr.fits p condition).decider (Stmt.claims_le p body)
      exact claimsIn_cons_le [condition.decider] rfl rfl (by simpa using both)
  | .doWhileLoop body condition span => by
      have both := add_le_add (Stmt.claims_le p body) (Expr.fits p condition).decider
      exact claimsIn_cons_le [condition.decider] rfl rfl (by simpa using both)
  | .forLoop init none update body span => by
      have all := add_le_add (claimsOfForInit?_le p init)
        (add_le_add (claimsOfExpr?_le p update) (Stmt.claims_le p body))
      exact claimsIn_cons_le [] rfl rfl (by simpa [visitsOfExpr?, add_assoc] using all)
  | .forLoop init (some test) update body span => by
      have all := add_le_add (claimsOfForInit?_le p init) (add_le_add (Expr.fits p test).decider
        (add_le_add (claimsOfExpr?_le p update) (Stmt.claims_le p body)))
      exact claimsIn_cons_le [test.decider] rfl rfl (by simpa [visitsOfExpr?, add_assoc] using all)
  | .block block => claimsIn_cons_le [] rfl rfl (by simpa using Block.claims_le p block)
  | .empty span => le_rfl

theorem VariableDecl.claims_le (p : Program) : (declaration : VariableDecl) →
    claimsIn p declaration.visits ≤ expressionsIn declaration.visits
  | ⟨kind, _, initializer, span⟩ =>
      claimsIn_cons_le [] rfl rfl
        (by simpa using claimsIn_cons_le [] rfl rfl (by simpa using claimsOfExpr?_le p initializer))

theorem FunctionDecl.claims_le (p : Program) : (declaration : FunctionDecl) →
    claimsIn p declaration.visits ≤ expressionsIn declaration.visits
  | ⟨_, params, body, span⟩ =>
      claimsIn_cons_le [] rfl rfl
        (by simpa using claimsIn_cons_le [] rfl rfl (by simpa using Block.claims_le p body))

theorem ForInit.claims_le (p : Program) : (init : ForInit) →
    claimsIn p init.visits ≤ expressionsIn init.visits
  | .variableDecl declaration => VariableDecl.claims_le p declaration
  | .expression e => (Expr.fits p e).below

theorem Block.claims_le (p : Program) : (block : Block) →
    claimsIn p block.visits ≤ expressionsIn block.visits
  | ⟨statements, span⟩ => claimsIn_cons_le [] rfl rfl (by simpa using claimsOfStmts_le p statements)

theorem claimsOfExpr?_le (p : Program) : (e : Option Expr) →
    claimsIn p (visitsOfExpr? e) ≤ expressionsIn (visitsOfExpr? e)
  | none => le_rfl
  | some e => (Expr.fits p e).below

theorem claimsOfStmt?_le (p : Program) : (s : Option Stmt) →
    claimsIn p (visitsOfStmt? s) ≤ expressionsIn (visitsOfStmt? s)
  | none => le_rfl
  | some s => Stmt.claims_le p s

theorem claimsOfForInit?_le (p : Program) : (init : Option ForInit) →
    claimsIn p (visitsOfForInit? init) ≤ expressionsIn (visitsOfForInit? init)
  | none => le_rfl
  | some init => ForInit.claims_le p init

theorem claimsOfStmts_le (p : Program) : (ss : List Stmt) →
    claimsIn p (visitsOfStmts ss) ≤ expressionsIn (visitsOfStmts ss)
  | [] => le_rfl
  | s :: ss => by
      simpa [visitsOfStmts] using add_le_add (Stmt.claims_le p s) (claimsOfStmts_le p ss)

end

end ConditionLint
