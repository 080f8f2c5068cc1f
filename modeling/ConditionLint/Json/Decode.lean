import ConditionLint.Json.Value

/-!
# Decoding JSON values

The rules by which records and choices are read. A record is an object, whose unknown members are
skipped and whose known ones occur at most once, or an array of the fields in their order. A choice
is an object with the name of the alternative as its only member, or, for an alternative without
payload, that name as a text. Which other spellings of an alternative are accepted depends on how
the value comes to its reader.
-/

set_option autoImplicit false

namespace ConditionLint.Json

open Decimal

/-- How a value comes to its reader. -/
inductive Form where
  /-- Met in the text of a document. -/
  | document
  /-- Kept from a document until its end. -/
  | kept
  /-- Given on its own. -/
  | alone
deriving DecidableEq, Repr, Inhabited

def bool? : Json → Option Bool
  | .bool value => some value
  | _ => none

def string? : Json → Option String
  | .string value => some value
  | _ => none

def natBelow? (limit : Nat) : Json → Option Nat
  | .number (.integer (.ofNat n)) => if n < limit then some n else none
  | _ => none

/-- A double; an integer is rounded to one. -/
def double? : Json → Option Binary64
  | .number (.integer value) => some (.ofInt value)
  | .number (.double value) => some value
  | _ => none

def items? : Json → Option (List Json)
  | .array items => some items
  | _ => none

def list? {α : Type} (decode : Json → Option α) (j : Json) : Option (List α) :=
  j.items?.bind fun items => items.mapM decode

/-- The values of a record's fields, absent where the record does not give them. -/
def fields? (names : List String) : Json → Option (List (Option Json))
  | .object members =>
    if names.all fun name => (members.filter fun member => member.1 == name).length ≤ 1 then
      some (names.map fun name => members.lookup name)
    else
      none
  | .array items =>
    if items.length ≤ names.length then
      some ((List.range names.length).map fun i => items[i]?)
    else
      none
  | _ => none

def required? {α : Type} (decode : Json → Option α) (field : Option Json) : Option α :=
  field.bind decode

def defaulted? {α : Type} (value : α) (decode : Json → Option α) : Option Json → Option α
  | none => some value
  | some j => decode j

/-- A field that may be missing or `null`. -/
def optional? {α : Type} (decode : Json → Option α) : Option Json → Option (Option α)
  | none | some .null => some none
  | some j => (decode j).map some

/-- The alternative that a choice names, with its payload. -/
def choice? : Json → Option (String × Option Json)
  | .string name => some (name, none)
  | .object [(name, payload)] => some (name, some payload)
  | _ => none

/-- An alternative without payload. The payload may be written as `null`, and in a kept value also
as an empty object. -/
def isBare (form : Form) : Option Json → Bool
  | none | some .null => true
  | some (.object []) => form = .kept
  | _ => false

/-- A choice among alternatives without payload. -/
def word? {α : Type} (form : Form) (alternative? : String → Option α) (j : Json) : Option α := do
  let (name, payload) ← j.choice?
  guard (isBare form payload)
  alternative? name

/-- The fields of an alternative that has fields of its own and not one record as payload. In a
value given on its own they are never an array. -/
def ownFields? (form : Form) (names : List String) (payload : Json) :
    Option (List (Option Json)) :=
  match form, payload with
  | .alone, .array _ => none
  | _, _ => payload.fields? names

def ofOption {α : Type} (encode : α → Json) : Option α → Json
  | none => .null
  | some value => encode value

end ConditionLint.Json
