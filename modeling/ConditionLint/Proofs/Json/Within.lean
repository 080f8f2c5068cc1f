import ConditionLint.Json.Decode
import Mathlib.Data.List.Nodup

/-!
# Values within limits

A value within limits can be kept, and each of its numbers is of a given sort. The limits pass on to
the parts that the readers of records, choices and lists take, and these readers undo the written
form of their parts.
-/

set_option autoImplicit false

namespace ConditionLint.Json

/-- The number occurs in the value. -/
inductive Holds : Json → Number → Prop where
  | number {n : Number} : Holds (.number n) n
  | item {items : List Json} {item : Json} {n : Number} :
      item ∈ items → Holds item n → Holds (.array items) n
  | member {members : List (String × Json)} {member : String × Json} {n : Number} :
      member ∈ members → Holds member.2 n → Holds (.object members) n

@[simp] theorem holds_number {n other : Number} : (Json.number n).Holds other ↔ other = n := by
  constructor
  · rintro ⟨⟩
    rfl
  · rintro rfl
    exact .number

@[simp] theorem holds_array {items : List Json} {n : Number} :
    (Json.array items).Holds n ↔ ∃ item ∈ items, item.Holds n := by
  constructor
  · rintro ⟨⟩
    exact ⟨_, ‹_›, ‹_›⟩
  · rintro ⟨item, member, holds⟩
    exact .item member holds

@[simp] theorem holds_object {members : List (String × Json)} {n : Number} :
    (Json.object members).Holds n ↔ ∃ member ∈ members, member.2.Holds n := by
  constructor
  · rintro ⟨⟩
    exact ⟨_, ‹_›, ‹_›⟩
  · rintro ⟨member, included, holds⟩
    exact .member included holds

@[simp] theorem not_holds_bool {value : Bool} {n : Number} : ¬ (Json.bool value).Holds n := nofun

@[simp] theorem not_holds_string {text : String} {n : Number} :
    ¬ (Json.string text).Holds n := nofun

/-- The containers of the value nest at most so deep, everything in it is readable, and its numbers
are good. -/
inductive Within (good : Number → Prop) : Nat → Json → Prop where
  | null {limit : Nat} : Within good limit .null
  | bool {limit : Nat} {value : Bool} : Within good limit (.bool value)
  | string {limit : Nat} {value : String} : Within good limit (.string value)
  | number {limit : Nat} {n : Number} : good n → Within good limit (.number n)
  | array {below : Nat} {items : List Json} :
      (∀ item ∈ items, Within good below item) → Within good (below + 1) (.array items)
  | object {below : Nat} {members : List (String × Json)} :
      (∀ member ∈ members, Within good below member.2) → Within good (below + 1) (.object members)

variable {good better : Number → Prop} {limit : Nat} {j : Json}

private theorem areKeepable_eq_all (limit : Nat) (items : List Json) :
    areKeepable limit items = items.all (isKeepable limit) := by
  induction items with
  | nil => rfl
  | cons item rest ih => rw [areKeepable, ih, List.all_cons]

private theorem areMembersKeepable_eq_all (limit : Nat) (members : List (String × Json)) :
    areMembersKeepable limit members = members.all fun member => isKeepable limit member.2 := by
  induction members with
  | nil => rfl
  | cons member rest ih => rw [areMembersKeepable, ih, List.all_cons]

theorem Within.isKeepable (within : j.Within good limit) : j.isKeepable limit = true := by
  induction within with
  | null | bool | string | number => simp [Json.isKeepable]
  | array _ ih =>
      rw [Json.isKeepable, areKeepable_eq_all, List.all_eq_true]
      exact ih
  | object _ ih =>
      rw [Json.isKeepable, areMembersKeepable_eq_all, List.all_eq_true]
      exact ih

theorem Within.good_of_holds {n : Number} (within : j.Within good limit) (holds : j.Holds n) :
    good n := by
  induction holds generalizing limit with
  | number =>
      cases within with
      | number isGood => exact isGood
  | item member _ ih =>
      cases within with
      | array each => exact ih (each _ member)
  | member member _ ih =>
      cases within with
      | object each => exact ih (each _ member)

theorem within_of_isKeepable (keepable : j.isKeepable limit = true)
    (numbers : ∀ n, j.Holds n → good n) : j.Within good limit := by
  induction limit generalizing j with
  | zero =>
      cases j with
      | null => exact .null
      | bool => exact .bool
      | string => exact .string
      | number n => exact .number (numbers n .number)
      | array | object | unreadable => simp [Json.isKeepable] at keepable
  | succ below ih =>
      cases j with
      | null => exact .null
      | bool => exact .bool
      | string => exact .string
      | number n => exact .number (numbers n .number)
      | unreadable => simp [Json.isKeepable] at keepable
      | array items =>
          rw [Json.isKeepable, areKeepable_eq_all, List.all_eq_true] at keepable
          exact .array fun item member =>
            ih (keepable item member) fun n holds => numbers n (.item member holds)
      | object members =>
          rw [Json.isKeepable, areMembersKeepable_eq_all, List.all_eq_true] at keepable
          exact .object fun member included =>
            ih (keepable member included) fun n holds => numbers n (.member included holds)

theorem Within.imp (within : j.Within good limit) (each : ∀ n, good n → better n) :
    j.Within better limit :=
  within_of_isKeepable within.isKeepable fun n holds => each n (within.good_of_holds holds)

theorem Within.mono {more : Nat} (within : j.Within good limit) (le : limit ≤ more) :
    j.Within good more := by
  induction within generalizing more with
  | null => exact .null
  | bool => exact .bool
  | string => exact .string
  | number isGood => exact .number isGood
  | array _ ih =>
      obtain ⟨below, rfl⟩ := Nat.exists_eq_add_of_lt (Nat.lt_of_succ_le le)
      exact .array fun item member => ih item member (by omega)
  | object _ ih =>
      obtain ⟨below, rfl⟩ := Nat.exists_eq_add_of_lt (Nat.lt_of_succ_le le)
      exact .object fun member included => ih member included (by omega)

/-!
## Written values are read back
-/

private theorem lookup_of_mem {members : List (String × Json)}
    (nodup : (members.map Prod.fst).Nodup) {member : String × Json} (included : member ∈ members) :
    members.lookup member.1 = some member.2 := by
  induction members with
  | nil => cases included
  | cons head rest ih =>
      obtain ⟨fresh, nodupRest⟩ := List.nodup_cons.mp nodup
      rcases List.mem_cons.mp included with rfl | later
      · rw [List.lookup_cons, beq_self_eq_true]
      · have other : member.1 ≠ head.1 := by
          intro same
          exact fresh (same ▸ List.mem_map_of_mem later)
        rw [List.lookup_cons, beq_false_of_ne other]
        exact ih nodupRest later

/-- A record that gives each field once is read as the values of its members. -/
@[simp] theorem fields?_object {members : List (String × Json)} {names : List String}
    (same : members.map Prod.fst = names) (nodup : names.Nodup) :
    (Json.object members).fields? names = some (members.map fun member => some member.2) := by
  subst same
  have once : ((members.map Prod.fst).all fun name =>
      decide ((members.filter fun member => member.1 == name).length ≤ 1)) = true := by
    rw [List.all_eq_true]
    intro name _
    have counted : (members.filter fun member => member.1 == name).length =
        (members.map Prod.fst).count name := by
      rw [List.count, List.countP_map, List.countP_eq_length_filter]
      rfl
    rw [decide_eq_true_eq, counted]
    exact List.nodup_iff_count_le_one.mp nodup name
  rw [fields?, if_pos once, List.map_map]
  refine congrArg some (List.map_congr_left fun member included => ?_)
  exact lookup_of_mem nodup included

@[simp] theorem choice?_object (name : String) (payload : Json) :
    (Json.object [(name, payload)]).choice? = some (name, some payload) := rfl

@[simp] theorem required?_some {α : Type} (decode : Json → Option α) (j : Json) :
    required? decode (some j) = decode j := rfl

@[simp] theorem defaulted?_some {α : Type} (value : α) (decode : Json → Option α) (j : Json) :
    defaulted? value decode (some j) = decode j := rfl

@[simp] theorem string?_string (text : String) : (Json.string text).string? = some text := rfl

@[simp] theorem bool?_bool (value : Bool) : (Json.bool value).bool? = some value := rfl

@[simp] theorem ownFields?_object (form : Form) (names : List String)
    (members : List (String × Json)) :
    ownFields? form names (.object members) = (Json.object members).fields? names := by
  cases form <;> rfl

theorem list?_array {α : Type} {encode : α → Json} {decode : Json → Option α} {values : List α}
    (each : ∀ value ∈ values, decode (encode value) = some value) :
    (Json.array (values.map encode)).list? decode = some values := by
  induction values with
  | nil => rfl
  | cons value rest ih =>
      obtain ⟨first, others⟩ := List.forall_mem_cons.mp each
      have tail := ih others
      rw [list?, items?, Option.bind_some] at tail ⊢
      rw [List.map_cons, List.mapM_cons, first, tail]
      rfl

theorem optional?_ofOption {α : Type} {encode : α → Json} {decode : Json → Option α}
    {value : Option α} (given : ∀ a, encode a ≠ .null)
    (each : ∀ a, value = some a → decode (encode a) = some a) :
    optional? decode (some (ofOption encode value)) = some value := by
  cases value with
  | none => rfl
  | some a =>
      have read : optional? decode (some (encode a)) = (decode (encode a)).map some := by
        unfold optional?
        split
        · rename_i same
          cases same
        · rename_i same
          exact absurd (Option.some.inj same) (given a)
        · rename_i same
          rw [Option.some.inj same]
      rw [ofOption, read, each a rfl]
      rfl

/-!
## Parts of read values
-/

theorem Within.of_fields? {names : List String} {values : List (Option Json)}
    (within : j.Within good limit) (read : j.fields? names = some values) :
    ∃ below, limit = below + 1 ∧
      ∀ field ∈ values, ∀ value, field = some value → value.Within good below := by
  cases within with
  | array each =>
      refine ⟨_, rfl, fun field member value found => ?_⟩
      rw [fields?] at read
      split at read
      · cases read
        obtain ⟨i, _, isItem⟩ := List.mem_map.mp member
        exact each value (List.mem_of_getElem? (isItem.trans found))
      · cases read
  | object each =>
      refine ⟨_, rfl, fun field member value found => ?_⟩
      rw [fields?] at read
      split at read
      · cases read
        obtain ⟨name, _, isMember⟩ := List.mem_map.mp member
        obtain ⟨before, after, split, _⟩ := List.lookup_eq_some_iff.mp (isMember.trans found)
        exact each (name, value) (by simp [split])
      · cases read
  | _ => cases read

theorem Within.of_choice? {name : String} {payload : Json} (within : j.Within good limit)
    (read : j.choice? = some (name, some payload)) :
    ∃ below, limit = below + 1 ∧ payload.Within good below := by
  unfold choice? at read
  split at read
  · cases read
  · cases read
    cases within with
    | object each => exact ⟨_, rfl, each _ List.mem_cons_self⟩
  · cases read

theorem Within.of_record? {name : String} {payload : Json} {names : List String}
    {values : List (Option Json)} (within : j.Within good limit)
    (choice : j.choice? = some (name, some payload)) (read : payload.fields? names = some values) :
    ∃ below, limit = below + 2 ∧
      ∀ field ∈ values, ∀ value, field = some value → value.Within good below := by
  obtain ⟨outer, rfl, inside⟩ := within.of_choice? choice
  obtain ⟨below, rfl, each⟩ := inside.of_fields? read
  exact ⟨below, rfl, each⟩

theorem exists_items_of_list? {α : Type} {decode : Json → Option α} {values : List α}
    (read : j.list? decode = some values) :
    ∃ items, j = .array items ∧ ∀ value ∈ values, ∃ item ∈ items, decode item = some value := by
  obtain ⟨items, isArray, mapped⟩ := Option.bind_eq_some_iff.mp read
  have same : j = .array items := by
    unfold items? at isArray
    split at isArray
    · cases isArray
      rfl
    · cases isArray
  refine ⟨items, same, ?_⟩
  clear read isArray same
  induction items generalizing values with
  | nil =>
      cases mapped
      simp
  | cons item rest ih =>
      rw [List.mapM_cons] at mapped
      obtain ⟨value, decoded, others⟩ := Option.bind_eq_some_iff.mp mapped
      obtain ⟨later, readLater, same⟩ := Option.bind_eq_some_iff.mp others
      cases same
      refine List.forall_mem_cons.mpr ⟨⟨item, List.mem_cons_self, decoded⟩, ?_⟩
      intro value included
      obtain ⟨item, inside, decoded⟩ := ih readLater value included
      exact ⟨item, List.mem_cons_of_mem _ inside, decoded⟩

theorem Within.of_list? {α : Type} {decode : Json → Option α} {values : List α}
    (within : j.Within good limit) (read : j.list? decode = some values) :
    ∃ below, limit = below + 1 ∧
      ∀ value ∈ values, ∃ item, item.Within good below ∧ decode item = some value := by
  obtain ⟨items, rfl, each⟩ := exists_items_of_list? read
  cases within with
  | array inside =>
      refine ⟨_, rfl, fun value included => ?_⟩
      obtain ⟨item, member, decoded⟩ := each value included
      exact ⟨item, inside item member, decoded⟩

theorem Within.array_map {α : Type} {encode : α → Json} {values : List α}
    (each : ∀ value ∈ values, (encode value).Within good limit) :
    (Json.array (values.map encode)).Within good (limit + 1) := by
  refine .array fun item member => ?_
  obtain ⟨value, included, rfl⟩ := List.mem_map.mp member
  exact each value included

theorem Within.ofOption {α : Type} {encode : α → Json} {value : Option α}
    (each : ∀ a, value = some a → (encode a).Within good limit) :
    (Json.ofOption encode value).Within good limit := by
  cases value with
  | none => exact .null
  | some a => exact each a rfl

end ConditionLint.Json
