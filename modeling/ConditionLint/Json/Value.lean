import ConditionLint.Decimal.Binary64

/-!
# JSON values

The members of an object keep their order and may repeat a name. A number is an integer that fits
64 bits or a double. `unreadable` stands for a scalar that is spelled correctly but has no value: a
number beyond the doubles, or a text with half of a surrogate pair.
-/

set_option autoImplicit false

namespace ConditionLint

open Decimal

inductive Json.Number where
  | integer (value : Int)
  | double (value : Binary64)
deriving DecidableEq, Repr, Inhabited

inductive Json where
  | null
  | bool (value : Bool)
  | number (value : Json.Number)
  | string (value : String)
  | array (items : List Json)
  | object (members : List (String × Json))
  | unreadable
deriving Repr, Inhabited

namespace Json

def nat (n : Nat) : Json :=
  .number (.integer n)

mutual

/-- A value can be kept for later: its containers nest at most `levels` deep and everything in it
is readable. -/
def isKeepable (levels : Nat) : Json → Bool
  | .null | .bool _ | .number _ | .string _ => true
  | .unreadable => false
  | .array items =>
    match levels with
    | 0 => false
    | below + 1 => areKeepable below items
  | .object members =>
    match levels with
    | 0 => false
    | below + 1 => areMembersKeepable below members

def areKeepable (levels : Nat) : List Json → Bool
  | [] => true
  | item :: items => isKeepable levels item && areKeepable levels items

def areMembersKeepable (levels : Nat) : List (String × Json) → Bool
  | [] => true
  | (_, value) :: members => isKeepable levels value && areMembersKeepable levels members

end

end Json

end ConditionLint
