/-!
# Operators

The operators of expressions, each with its spelling in source text.
-/

set_option autoImplicit false

namespace ConditionLint

inductive UnaryOperator where
  | not
  | minus
  | plus
  | bitwiseNot
  | typeof
  | void
  | delete
deriving DecidableEq, Repr, Inhabited

namespace UnaryOperator

def text : UnaryOperator → String
  | not => "!"
  | minus => "-"
  | plus => "+"
  | bitwiseNot => "~"
  | typeof => "typeof"
  | void => "void"
  | delete => "delete"

def ofText? : String → Option UnaryOperator
  | "!" => some not
  | "-" => some minus
  | "+" => some plus
  | "~" => some bitwiseNot
  | "typeof" => some typeof
  | "void" => some void
  | "delete" => some delete
  | _ => none

end UnaryOperator

/-- Operators between two operands that are both evaluated. -/
inductive BinaryOperator where
  | add
  | subtract
  | multiply
  | divide
  | modulo
  | exponent
  | equal
  | notEqual
  | strictEqual
  | strictNotEqual
  | lessThan
  | lessEqual
  | greaterThan
  | greaterEqual
  | bitwiseAnd
  | bitwiseOr
  | bitwiseXor
  | leftShift
  | rightShift
  | unsignedRightShift
  | isIn
  | instanceOf
deriving DecidableEq, Repr, Inhabited

namespace BinaryOperator

def text : BinaryOperator → String
  | add => "+"
  | subtract => "-"
  | multiply => "*"
  | divide => "/"
  | modulo => "%"
  | exponent => "**"
  | equal => "=="
  | notEqual => "!="
  | strictEqual => "==="
  | strictNotEqual => "!=="
  | lessThan => "<"
  | lessEqual => "<="
  | greaterThan => ">"
  | greaterEqual => ">="
  | bitwiseAnd => "&"
  | bitwiseOr => "|"
  | bitwiseXor => "^"
  | leftShift => "<<"
  | rightShift => ">>"
  | unsignedRightShift => ">>>"
  | isIn => "in"
  | instanceOf => "instanceof"

def ofText? : String → Option BinaryOperator
  | "+" => some add
  | "-" => some subtract
  | "*" => some multiply
  | "/" => some divide
  | "%" => some modulo
  | "**" => some exponent
  | "==" => some equal
  | "!=" => some notEqual
  | "===" => some strictEqual
  | "!==" => some strictNotEqual
  | "<" => some lessThan
  | "<=" => some lessEqual
  | ">" => some greaterThan
  | ">=" => some greaterEqual
  | "&" => some bitwiseAnd
  | "|" => some bitwiseOr
  | "^" => some bitwiseXor
  | "<<" => some leftShift
  | ">>" => some rightShift
  | ">>>" => some unsignedRightShift
  | "in" => some isIn
  | "instanceof" => some instanceOf
  | _ => none

/-- The operator compares for equality or order. -/
def isComparison : BinaryOperator → Bool
  | equal | notEqual | strictEqual | strictNotEqual | lessThan | lessEqual | greaterThan
  | greaterEqual => true
  | _ => false

/-- The operator compares for equality and takes `null` and `undefined` to be equal. -/
def isLooseEquality : BinaryOperator → Bool
  | equal | notEqual => true
  | _ => false

end BinaryOperator

/-- Operators whose right operand is evaluated only if the left one does not decide. -/
inductive LogicalOperator where
  | and
  | or
  | nullish
deriving DecidableEq, Repr, Inhabited

namespace LogicalOperator

def text : LogicalOperator → String
  | and => "&&"
  | or => "||"
  | nullish => "??"

def ofText? : String → Option LogicalOperator
  | "&&" => some and
  | "||" => some or
  | "??" => some nullish
  | _ => none

end LogicalOperator

inductive AssignmentOperator where
  | assign
  | add
  | subtract
  | multiply
  | divide
  | modulo
  | bitwiseAnd
  | bitwiseOr
  | bitwiseXor
  | logicalAnd
  | logicalOr
  | nullish
deriving DecidableEq, Repr, Inhabited

namespace AssignmentOperator

def text : AssignmentOperator → String
  | assign => "="
  | add => "+="
  | subtract => "-="
  | multiply => "*="
  | divide => "/="
  | modulo => "%="
  | bitwiseAnd => "&="
  | bitwiseOr => "|="
  | bitwiseXor => "^="
  | logicalAnd => "&&="
  | logicalOr => "||="
  | nullish => "??="

def ofText? : String → Option AssignmentOperator
  | "=" => some assign
  | "+=" => some add
  | "-=" => some subtract
  | "*=" => some multiply
  | "/=" => some divide
  | "%=" => some modulo
  | "&=" => some bitwiseAnd
  | "|=" => some bitwiseOr
  | "^=" => some bitwiseXor
  | "&&=" => some logicalAnd
  | "||=" => some logicalOr
  | "??=" => some nullish
  | _ => none

end AssignmentOperator

inductive VariableKind where
  | «let»
  | const
  | var
deriving DecidableEq, Repr, Inhabited

namespace VariableKind

def text : VariableKind → String
  | .let => "let"
  | .const => "const"
  | .var => "var"

def ofText? : String → Option VariableKind
  | "let" => some .let
  | "const" => some .const
  | "var" => some .var
  | _ => none

end VariableKind

end ConditionLint
