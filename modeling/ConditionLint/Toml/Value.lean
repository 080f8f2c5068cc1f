import ConditionLint.Decimal.Binary64

/-!
# TOML values

A table keeps its entries in order, and remembers how it came to be, because that decides who may
still add to it. Tables that headers in double brackets define are kept apart from arrays that are
written as values, because only the former can grow.
-/

set_option autoImplicit false

namespace ConditionLint.Toml

open Decimal

inductive Origin where
  /-- It has a header of its own, or is an element that a header added. -/
  | header
  /-- It is on the way to a table that has a header. -/
  | implied
  /-- It is on the way to a dotted key. -/
  | dotted
  /-- It is written in braces. -/
  | inline
deriving DecidableEq, Repr, Inhabited

/-- A TOML value. A date or time is kept as its text. -/
inductive Value where
  | string (value : String)
  | integer (value : Int)
  | float (value : Binary64)
  | boolean (value : Bool)
  | datetime (text : String)
  | array (items : List Value)
  | tables (elements : List (List (String × Value)))
  | table (origin : Origin) (entries : List (String × Value))
deriving Repr, Inhabited

abbrev Entries := List (String × Value)

end ConditionLint.Toml
