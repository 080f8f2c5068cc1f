import ConditionLint.Proofs.Json.Number
import ConditionLint.Proofs.Json.Within

/-!
# Written values

What the parts of a written form have in common: each is read as the part it was written for, nests
no deeper than it may, and holds numbers only that a text can have. Records, lists and optional
parts have this from their own parts. In the other direction, what is read from a list has what is
read from its items.
-/

set_option autoImplicit false

namespace ConditionLint.Json

open Decimal

/-- A natural number of 64 bits or a finite double. -/
def Number.IsWritten : Number → Prop
  | .integer value => ∃ n : Nat, n < wordLimit ∧ value = n
  | .double value => value.isFinite = true

/-- All numbers in the value are in range. -/
def NumbersInRange (j : Json) : Prop :=
  ∀ n, j.Holds n → n.InRange

/-- The containers of the value nest at most so deep, and everything in it is readable. -/
def Nests (limit : Nat) (j : Json) : Prop :=
  j.Within (fun _ => True) limit

/-- The value is read as `a`, nests at most so deep and holds written numbers only. -/
structure WrittenAs {α : Type} (decode : Json → Option α) (limit : Nat) (j : Json) (a : α) :
    Prop where
  read : decode j = some a
  within : j.Within Number.IsWritten limit

variable {good : Number → Prop} {limit : Nat}

theorem Within.nests {j : Json} (within : j.Within good limit) : j.Nests limit :=
  within.imp fun _ _ => trivial

theorem Within.of_object {members : List (String × Json)}
    (within : (Json.object members).Within good limit) :
    ∃ below, limit = below + 1 ∧ ∀ member ∈ members, member.2.Within good below := by
  cases within with
  | object each => exact ⟨_, rfl, each⟩

theorem Within.of_array {items : List Json} (within : (Json.array items).Within good limit) :
    ∃ below, limit = below + 1 ∧ ∀ item ∈ items, item.Within good below := by
  cases within with
  | array each => exact ⟨_, rfl, each⟩

theorem Within.tag {name : String} {payload : Json} (within : payload.Within good limit) :
    (Json.object [(name, payload)]).Within good (limit + 1) :=
  .object (List.forall_mem_singleton.mpr within)

namespace WrittenAs

variable {α : Type} {encode : α → Json} {decode : Json → Option α}

theorem nat {n bound : Nat} (fits : n < bound) (le : bound ≤ wordLimit) :
    WrittenAs (natBelow? bound) limit (.nat n) n where
  read := if_pos fits
  within := .number ⟨n, Nat.lt_of_lt_of_le fits le, rfl⟩

theorem string (text : String) : WrittenAs string? limit (.string text) text :=
  ⟨rfl, .string⟩

theorem word {form : Form} {alternative? : String → Option α} {name : String} {a : α}
    (named : alternative? name = some a) :
    WrittenAs (word? form alternative?) limit (.string name) a where
  read := named
  within := .string

theorem list {values : List α} (each : ∀ a ∈ values, WrittenAs decode limit (encode a) a) :
    WrittenAs (Json.list? decode) (limit + 1) (.array (values.map encode)) values where
  read := list?_array fun a member => (each a member).read
  within := .array_map fun a member => (each a member).within

theorem option {value : Option α} (given : ∀ a, encode a ≠ .null)
    (each : ∀ a, value = some a → WrittenAs decode limit (encode a) a) :
    WrittenAs (fun j => optional? decode (some j)) limit (ofOption encode value) value where
  read := optional?_ofOption given fun a some => (each a some).read
  within := .ofOption fun a some => (each a some).within

theorem map {β : Type} {f : α → β} {j : Json} {a : α} (written : WrittenAs decode limit j a) :
    WrittenAs (fun j => (decode j).map f) limit j (f a) where
  read := by rw [written.read, Option.map_some]
  within := written.within

end WrittenAs

/-!
## What is read
-/

theorem Within.numbersInRange {j : Json} (within : j.Within Number.InRange limit) :
    j.NumbersInRange := fun _ holds => within.good_of_holds holds

theorem NumbersInRange.of_choice? {j payload : Json} {name : String} (inRange : j.NumbersInRange)
    (read : j.choice? = some (name, some payload)) : payload.NumbersInRange := by
  unfold choice? at read
  split at read
  · cases read
  · cases read
    exact fun n holds => inRange n (.member List.mem_cons_self holds)
  · cases read

/-- A double that is read is finite, also where an integer is given. -/
theorem NumbersInRange.isFinite {j : Json} {x : Binary64} (inRange : j.NumbersInRange)
    (read : j.double? = some x) : x.isFinite = true := by
  unfold double? at read
  split at read
  · cases read
    exact Binary64.isFinite_ofInt (inRange _ .number)
  · cases read
    exact inRange _ .number
  · cases read

theorem lt_of_natBelow? {j : Json} {bound n : Nat} (read : j.natBelow? bound = some n) :
    n < bound := by
  unfold natBelow? at read
  split at read
  · obtain ⟨below, same⟩ := Option.ite_none_right_eq_some.mp read
    cases same
    exact below
  · cases read

theorem forall_mem_of_list? {α : Type} {decode : Json → Option α} {good : α → Prop} {j : Json}
    {values : List α} (read : j.list? decode = some values)
    (each : ∀ item a, decode item = some a → good a) : ∀ a ∈ values, good a := by
  obtain ⟨_, _, readEach⟩ := exists_items_of_list? read
  intro a member
  obtain ⟨item, _, decoded⟩ := readEach a member
  exact each item a decoded

theorem forall_mem_of_defaulted? {α : Type} {decode : Json → Option α} {good : α → Prop}
    {field : Option Json} {values : List α}
    (read : defaulted? [] (Json.list? decode) field = some values)
    (each : ∀ item a, decode item = some a → good a) : ∀ a ∈ values, good a := by
  cases field with
  | none =>
      cases read
      exact nofun
  | some list => exact forall_mem_of_list? read each

/-- What is read nests no deeper than the value that it is read from, and it fits. -/
def Keeps {α : Type} (decode : Json → Option α) (encode : α → Json) (fits : α → Prop) : Prop :=
  ∀ ⦃j : Json⦄ ⦃a : α⦄ ⦃limit : Nat⦄, j.Within Number.InRange limit → decode j = some a →
    (encode a).Nests limit ∧ fits a

namespace Keeps

variable {α : Type} {decode : Json → Option α} {encode : α → Json} {fits : α → Prop}
  {field : Option Json}

theorem required {a : α} (keeps : Keeps decode encode fits)
    (inside : ∀ value, field = some value → value.Within Number.InRange limit)
    (read : required? decode field = some a) : (encode a).Nests limit ∧ fits a := by
  obtain ⟨value, given, decoded⟩ := Option.bind_eq_some_iff.mp read
  exact keeps (inside value given) decoded

theorem optional {value : Option α} (keeps : Keeps decode encode fits)
    (inside : ∀ value, field = some value → value.Within Number.InRange limit)
    (read : optional? decode field = some value) :
    (ofOption encode value).Nests limit ∧ ∀ a, value = some a → fits a := by
  unfold optional? at read
  split at read
  · cases read
    exact ⟨.null, nofun⟩
  · cases read
    exact ⟨.null, nofun⟩
  · obtain ⟨a, decoded, rfl⟩ := Option.map_eq_some_iff.mp read
    obtain ⟨nests, fitting⟩ := keeps (inside _ rfl) decoded
    exact ⟨nests, fun _ same => Option.some.inj same ▸ fitting⟩

theorem list (keeps : Keeps decode encode fits) :
    Keeps (Json.list? decode) (fun values => .array (values.map encode))
      fun values => ∀ a ∈ values, fits a := by
  intro j values limit within read
  obtain ⟨below, rfl, each⟩ := within.of_list? read
  constructor
  · refine .array_map fun a member => ?_
    obtain ⟨item, inside, decoded⟩ := each a member
    exact (keeps inside decoded).1
  · intro a member
    obtain ⟨item, inside, decoded⟩ := each a member
    exact (keeps inside decoded).2

/-- A list that is left out is written as an empty one. -/
theorem defaulted {values : List α} (keeps : Keeps decode encode fits)
    (inside : ∀ value, field = some value → value.Within Number.InRange limit)
    (positive : 0 < limit) (read : defaulted? [] (Json.list? decode) field = some values) :
    (Json.array (values.map encode)).Nests limit ∧ ∀ a ∈ values, fits a := by
  cases field with
  | none =>
      cases read
      obtain ⟨below, rfl⟩ := Nat.exists_eq_add_of_lt positive
      exact ⟨.array nofun, nofun⟩
  | some value => exact keeps.list (inside value rfl) read

end Keeps

end ConditionLint.Json
