import ConditionLint.Proofs.Table.Growth
import Mathlib.Data.List.Basic

/-!
# Laws of unions

What a union comes to depends on which types are among the joined ones, not on their order or on
how often they are given. So the laws of unions are laws of the whole builder: the two sides leave
the same table and the same type. Once a union has been made, it is found again in every table that
continues the one it was made in.
-/

set_option autoImplicit false

namespace ConditionLint

/-- What joining types comes to before it is looked up: a type that is there already, or the members
of an entry. -/
inductive Joined where
  | known (id : TypeId)
  | entry (members : List TypeId)
deriving DecidableEq

/-- The type of all values of a literal's kind, which takes the literal up in a union. -/
def LiteralValue.primitive? : LiteralValue → Option TypeId
  | string _ => some .string
  | number _ => some .number
  | bigint _ => some .bigint
  | boolean _ => none

namespace Table

variable {t u : Table} {id r : TypeId} {xs ys members ids : List TypeId}

/-!
## Increasing lists
-/

theorem pairwise_insertId {new : TypeId} (increasing : ids.Pairwise (·.index < ·.index)) :
    (insertId new ids).Pairwise (·.index < ·.index) := by
  induction ids with
  | nil => simp [insertId]
  | cons head tail ih =>
      obtain ⟨least, rest⟩ := List.pairwise_cons.mp increasing
      unfold insertId
      split
      · rename_i before
        refine List.pairwise_cons.mpr ⟨fun other included => ?_, increasing⟩
        rcases List.mem_cons.mp included with rfl | later
        · exact before
        · exact Nat.lt_trans before (least other later)
      · split
        · exact increasing
        · rename_i notBefore different
          refine List.pairwise_cons.mpr ⟨fun other included => ?_, ih rest⟩
          rcases mem_insertId.mp included with rfl | later
          · have unequal : other.index ≠ head.index :=
              fun same => different (congrArg TypeId.mk same)
            omega
          · exact least other later

theorem pairwise_ascending (ids : List TypeId) : (ascending ids).Pairwise (·.index < ·.index) := by
  induction ids with
  | nil => exact List.Pairwise.nil
  | cons head tail ih => exact pairwise_insertId ih

theorem eq_of_increasing (first : xs.Pairwise (·.index < ·.index))
    (second : ys.Pairwise (·.index < ·.index)) (same : ∀ id, id ∈ xs ↔ id ∈ ys) : xs = ys := by
  have nodup : ∀ {ids : List TypeId}, ids.Pairwise (·.index < ·.index) → ids.Nodup :=
    fun increasing => increasing.imp fun before equal => Nat.ne_of_lt before (congrArg _ equal)
  have perm := (List.perm_ext_iff_of_nodup (nodup first) (nodup second)).mpr same
  refine perm.eq_of_pairwise (fun a b _ _ before after => ?_) first second
  exact absurd after (Nat.lt_asymm before)

theorem ascending_congr (same : ∀ id, id ∈ xs ↔ id ∈ ys) : ascending xs = ascending ys := by
  refine eq_of_increasing (pairwise_ascending xs) (pairwise_ascending ys) fun id => ?_
  rw [mem_ascending, mem_ascending, same]

theorem ascending_of_increasing (increasing : ids.Pairwise (·.index < ·.index)) :
    ascending ids = ids :=
  eq_of_increasing (pairwise_ascending ids) increasing fun _ => mem_ascending

/-!
## What unions come to
-/

/-- Look up what was joined, and append it if it is an entry that the table does not have. -/
def enter (t : Table) (form : List TypeId → Descriptor) : Joined → Table × TypeId
  | .known id => (t, id)
  | .entry members => t.intern (form members)

/-- What is left of the kept types: the type for none, the only one, or all of them in order. -/
def joinedOf (nothing : TypeId) (kept : List TypeId) : Joined :=
  match ascending kept with
  | [] => .known nothing
  | [single] => .known single
  | ids => .entry ids

theorem enter_joinedOf (t : Table) (form : List TypeId → Descriptor) (nothing : TypeId)
    (kept : List TypeId) :
    t.enter form (joinedOf nothing kept) =
      match ascending kept with
      | [] => (t, nothing)
      | [single] => (t, single)
      | ids => t.intern (form ids) := by
  unfold joinedOf
  rcases ascending kept with _ | ⟨first, _ | _⟩ <;> rfl

/-- What types come to where one of two takes the others over: the first if it is among them, else
the second, else what is kept of them. -/
def formOf (first second nothing : TypeId) (flat kept : List TypeId) : Joined :=
  if first ∈ flat then .known first
  else if second ∈ flat then .known second
  else joinedOf nothing kept

theorem formOf_congr {first second nothing : TypeId} {flat flat' kept kept' : List TypeId}
    (sameFirst : first ∈ flat ↔ first ∈ flat') (sameSecond : second ∈ flat ↔ second ∈ flat')
    (sameKept : first ∉ flat → second ∉ flat → ∀ id, id ∈ kept ↔ id ∈ kept') :
    formOf first second nothing flat kept = formOf first second nothing flat' kept' := by
  unfold formOf
  simp only [← sameFirst, ← sameSecond]
  split
  · rfl
  · rename_i noFirst
    split
    · rfl
    · rename_i noSecond
      rw [joinedOf, joinedOf, ascending_congr (sameKept noFirst noSecond)]

/-- What the union of types comes to. -/
def unionForm (t : Table) (members : List TypeId) : Joined :=
  if .any ∈ members.flatMap t.unionParts then .known .any
  else if .unknown ∈ members.flatMap t.unionParts then .known .unknown
  else joinedOf .never (t.keptParts members)

theorem unionForm_eq_formOf (t : Table) (members : List TypeId) :
    t.unionForm members =
      formOf .any .unknown .never (members.flatMap t.unionParts) (t.keptParts members) :=
  rfl

theorem union_eq_enter (t : Table) (members : List TypeId) :
    t.union members = t.enter .union (t.unionForm members) := by
  unfold union unionForm
  simp only [List.contains_iff_mem]
  split
  · rfl
  · split
    · rfl
    · exact (enter_joinedOf t .union .never (t.keptParts members)).symm

/-- Where neither side is taken over, unions that keep the same types come to the same. -/
theorem unionForm_congr
    (any : .any ∈ xs.flatMap t.unionParts ↔ .any ∈ ys.flatMap t.unionParts)
    (unknown : .unknown ∈ xs.flatMap t.unionParts ↔ .unknown ∈ ys.flatMap t.unionParts)
    (kept : .any ∉ xs.flatMap t.unionParts → .unknown ∉ xs.flatMap t.unionParts →
      ∀ id, id ∈ t.keptParts xs ↔ id ∈ t.keptParts ys) : t.unionForm xs = t.unionForm ys := by
  rw [unionForm_eq_formOf, unionForm_eq_formOf]
  exact formOf_congr any unknown kept

/-!
## Literals and their primitives
-/

theorem isAbsorbed_iff {flat : List TypeId} :
    t.isAbsorbed flat id = true ↔
      ∃ value primitive, t.get? id = some (.literal value) ∧ value.primitive? = some primitive ∧
        primitive ∈ flat := by
  unfold isAbsorbed
  cases t.get? id with
  | none => simp
  | some d =>
      cases d with
      | literal value => cases value <;> simp [LiteralValue.primitive?]
      | _ => simp

/-- Whether a literal is taken up depends on the primitives among the joined types only. -/
private theorem isAbsorbed_congr {flat flat' : List TypeId}
    (same : ∀ value primitive, t.get? id = some (.literal value) →
      value.primitive? = some primitive → (primitive ∈ flat ↔ primitive ∈ flat')) :
    t.isAbsorbed flat id = t.isAbsorbed flat' id := by
  rw [Bool.eq_iff_iff, isAbsorbed_iff, isAbsorbed_iff]
  refine exists_congr fun value => exists_congr fun primitive => ?_
  exact and_congr_right fun literal => and_congr_right (same value primitive literal)

private theorem primitive_ne_never {value : LiteralValue} {primitive : TypeId}
    (widens : value.primitive? = some primitive) : primitive ≠ .never := by
  cases value <;> cases widens <;> decide

theorem WellFormed.get?_primitive (wellFormed : t.WellFormed) {value : LiteralValue}
    {primitive : TypeId} (widens : value.primitive? = some primitive) :
    ∃ keyword ∈ [Intrinsic.string, .number, .bigint],
      t.get? primitive = some (.intrinsic keyword) := by
  cases value with
  | string => cases widens; exact ⟨.string, by decide, wellFormed.get?_wellKnown rfl⟩
  | number => cases widens; exact ⟨.number, by decide, wellFormed.get?_wellKnown rfl⟩
  | bigint => cases widens; exact ⟨.bigint, by decide, wellFormed.get?_wellKnown rfl⟩
  | boolean => cases widens

/-- A union keeps the primitives of what it joins. -/
theorem WellFormed.primitive_mem_keptParts (wellFormed : t.WellFormed) {value : LiteralValue}
    {primitive : TypeId} (widens : value.primitive? = some primitive) :
    primitive ∈ t.keptParts members ↔ primitive ∈ members.flatMap t.unionParts := by
  obtain ⟨keyword, _, entry⟩ := wellFormed.get?_primitive widens
  have stays : t.isAbsorbed (members.flatMap t.unionParts) primitive = false := by
    simp [isAbsorbed, entry]
  rw [mem_keptParts, and_iff_left ⟨primitive_ne_never widens, stays⟩]

/-!
## Laws
-/

theorem WellFormed.unionParts_of_mem_collapsed (wellFormed : t.WellFormed)
    (taken : id ∈ collapsed) : t.unionParts id = [id] := by
  obtain ⟨keyword, entry⟩ := wellFormed.get?_of_mem_collapsed taken
  exact unionParts_of_not_union (by simp [entry])

private theorem unionForm_congr_of_flat
    (same : ∀ id, id ∈ xs.flatMap t.unionParts ↔ id ∈ ys.flatMap t.unionParts) :
    t.unionForm xs = t.unionForm ys := by
  refine unionForm_congr (same _) (same _) fun _ _ id => ?_
  rw [mem_keptParts, mem_keptParts, same, isAbsorbed_congr fun _ primitive _ _ => same primitive]

theorem union_congr (same : ∀ id, id ∈ xs ↔ id ∈ ys) : t.union xs = t.union ys := by
  have flat : ∀ id, id ∈ xs.flatMap t.unionParts ↔ id ∈ ys.flatMap t.unionParts := by
    intro id
    simp only [List.mem_flatMap, same]
  rw [union_eq_enter, union_eq_enter, unionForm_congr_of_flat flat]

theorem WellFormed.union_never_cons (wellFormed : t.WellFormed) (xs : List TypeId) :
    t.union (.never :: xs) = t.union xs := by
  have single : t.unionParts .never = [.never] :=
    wellFormed.unionParts_of_mem_collapsed (by decide)
  have flat : ∀ id, id ≠ .never → (id ∈ (TypeId.never :: xs).flatMap t.unionParts ↔
      id ∈ xs.flatMap t.unionParts) := by
    intro id other
    simp [single, other]
  rw [union_eq_enter, union_eq_enter, unionForm_congr (flat _ (by decide)) (flat _ (by decide))]
  intro _ _ id
  have absorbed : t.isAbsorbed ((TypeId.never :: xs).flatMap t.unionParts) id =
      t.isAbsorbed (xs.flatMap t.unionParts) id := by
    apply isAbsorbed_congr
    intro value primitive _ widens
    exact flat primitive (primitive_ne_never widens)
  rw [mem_keptParts, mem_keptParts, absorbed]
  constructor
  · intro ⟨included, other, stays⟩
    exact ⟨(flat id other).mp included, other, stays⟩
  · intro ⟨included, other, stays⟩
    exact ⟨(flat id other).mpr included, other, stays⟩

theorem union_of_any_mem (taken : .any ∈ xs.flatMap t.unionParts) : t.union xs = (t, .any) := by
  rw [union_eq_enter, unionForm, if_pos taken]
  rfl

theorem union_of_unknown_mem (noAny : .any ∉ xs.flatMap t.unionParts)
    (taken : .unknown ∈ xs.flatMap t.unionParts) : t.union xs = (t, .unknown) := by
  rw [union_eq_enter, unionForm, if_neg noAny, if_pos taken]
  rfl

theorem isAbsorbed_mono {flat larger : List TypeId} (subset : ∀ id ∈ flat, id ∈ larger)
    (stays : t.isAbsorbed larger id = false) : t.isAbsorbed flat id = false := by
  rw [Bool.eq_false_iff, ne_eq, isAbsorbed_iff] at stays ⊢
  rintro ⟨value, primitive, literal, widens, included⟩
  exact stays ⟨value, primitive, literal, widens, subset primitive included⟩

/-- The members of a union are what it keeps, but that the empty union is `never`. -/
theorem WellFormed.mem_unionParts_union (wellFormed : t.WellFormed) (joined : t.union xs = (t, r))
    (noAny : .any ∉ xs.flatMap t.unionParts) (noUnknown : .unknown ∉ xs.flatMap t.unionParts)
    {part : TypeId} (other : part ≠ .never) : part ∈ t.unionParts r ↔ part ∈ t.keptParts xs := by
  by_cases nothing : t.keptParts xs = []
  · have empty : t.unionForm xs = .known .never := by
      rw [unionForm, if_neg noAny, if_neg noUnknown, nothing]
      rfl
    rw [union_eq_enter, empty] at joined
    cases joined
    rw [nothing, wellFormed.unionParts_of_mem_collapsed (by decide)]
    simp [other]
  · exact wellFormed.unionParts_union joined noAny noUnknown nothing

/-- `any` takes over a union exactly if it is among the members of the joined types. -/
theorem WellFormed.any_mem_unionParts_union (wellFormed : t.WellFormed)
    (joined : t.union xs = (t, r)) :
    .any ∈ t.unionParts r ↔ .any ∈ xs.flatMap t.unionParts := by
  by_cases any : .any ∈ xs.flatMap t.unionParts
  · rw [union_of_any_mem any] at joined
    cases joined
    rw [wellFormed.unionParts_of_mem_collapsed (by decide)]
    simp [any]
  · refine iff_of_false ?_ any
    by_cases unknown : .unknown ∈ xs.flatMap t.unionParts
    · rw [union_of_unknown_mem any unknown] at joined
      cases joined
      rw [wellFormed.unionParts_of_mem_collapsed (by decide)]
      decide
    · rw [wellFormed.mem_unionParts_union joined any unknown (by decide), mem_keptParts]
      exact fun kept => any kept.1

theorem WellFormed.unknown_mem_unionParts_union (wellFormed : t.WellFormed)
    (joined : t.union xs = (t, r)) (noAny : .any ∉ xs.flatMap t.unionParts) :
    .unknown ∈ t.unionParts r ↔ .unknown ∈ xs.flatMap t.unionParts := by
  by_cases unknown : .unknown ∈ xs.flatMap t.unionParts
  · rw [union_of_unknown_mem noAny unknown] at joined
    cases joined
    rw [wellFormed.unionParts_of_mem_collapsed (by decide)]
    simp [unknown]
  · refine iff_of_false ?_ unknown
    rw [wellFormed.mem_unionParts_union joined noAny unknown (by decide), mem_keptParts]
    exact fun kept => unknown kept.1

/-- What a union keeps if one of the joined types is a union itself that was not taken over: what
that union has dropped does not come back, and what it has kept may be dropped now. -/
theorem WellFormed.mem_keptParts_cons (wellFormed : t.WellFormed) {part : TypeId}
    (own : ∀ id, id ≠ .never → (id ∈ t.unionParts r ↔ id ∈ t.keptParts xs)) :
    part ∈ t.keptParts (r :: ys) ↔ part ∈ t.keptParts (xs ++ ys) := by
  have absorbed : t.isAbsorbed ((r :: ys).flatMap t.unionParts) part =
      t.isAbsorbed ((xs ++ ys).flatMap t.unionParts) part := by
    apply isAbsorbed_congr
    intro value primitive _ widens
    rw [List.flatMap_cons, List.flatMap_append, List.mem_append, List.mem_append,
      own primitive (primitive_ne_never widens), wellFormed.primitive_mem_keptParts widens]
  rw [mem_keptParts, mem_keptParts, absorbed, List.flatMap_cons, List.flatMap_append,
    List.mem_append, List.mem_append]
  constructor
  · intro ⟨included, other, stays⟩
    refine ⟨included.imp_left ?_, other, stays⟩
    intro belongs
    exact (mem_keptParts.mp ((own part other).mp belongs)).1
  · intro ⟨included, other, stays⟩
    refine ⟨included.imp_left ?_, other, stays⟩
    intro belongs
    have keptThere := isAbsorbed_mono (fun _ => List.mem_append_left _) stays
    exact (own part other).mpr (mem_keptParts.mpr ⟨belongs, other, keptThere⟩)

/-- A union in the place of the types that it joins makes no difference. -/
theorem WellFormed.union_cons_union (wellFormed : t.WellFormed) (joined : t.union xs = (t, r))
    (ys : List TypeId) : t.union (r :: ys) = t.union (xs ++ ys) := by
  have any : .any ∈ (r :: ys).flatMap t.unionParts ↔ .any ∈ (xs ++ ys).flatMap t.unionParts := by
    rw [List.flatMap_cons, List.flatMap_append, List.mem_append, List.mem_append,
      wellFormed.any_mem_unionParts_union joined]
  by_cases taken : .any ∈ (xs ++ ys).flatMap t.unionParts
  · rw [union_of_any_mem taken, union_of_any_mem (any.mpr taken)]
  have noAny := taken
  rw [List.flatMap_append, List.mem_append, not_or] at noAny
  have unknown : .unknown ∈ (r :: ys).flatMap t.unionParts ↔
      .unknown ∈ (xs ++ ys).flatMap t.unionParts := by
    rw [List.flatMap_cons, List.flatMap_append, List.mem_append, List.mem_append,
      wellFormed.unknown_mem_unionParts_union joined noAny.1]
  rw [union_eq_enter, union_eq_enter, unionForm_congr any unknown]
  intro _ noUnknown id
  rw [unknown, List.flatMap_append, List.mem_append, not_or] at noUnknown
  exact wellFormed.mem_keptParts_cons fun _ =>
    wellFormed.mem_unionParts_union joined noAny.1 noUnknown.1

/-- A union of unions is the union of everything that they join. -/
theorem WellFormed.union_pair (wellFormed : t.WellFormed) {first second : TypeId}
    (left : t.union xs = (t, first)) (right : t.union ys = (t, second)) :
    t.union [first, second] = t.union (xs ++ ys) :=
  calc t.union [first, second]
      = t.union (xs ++ [second]) := wellFormed.union_cons_union left [second]
    _ = t.union (second :: xs) := union_congr (by simp [or_comm])
    _ = t.union (ys ++ xs) := wellFormed.union_cons_union right xs
    _ = t.union (xs ++ ys) := union_congr (by simp [or_comm])

/-!
## Unions in a grown table
-/

/-- Looking up again in a table that has grown finds what was entered. -/
theorem Indexed.enter_of_grown (indexed : t.Indexed) {built later : Table}
    (laterIndexed : later.Indexed) {form : List TypeId → Descriptor} {joined : Joined}
    (entered : t.enter form joined = (built, r))
    (after : built.entries.toList <+: later.entries.toList) :
    later.enter form joined = (later, r) := by
  cases joined with
  | known id =>
      cases entered
      rfl
  | entry members => exact indexed.intern_of_grown laterIndexed entered after

private theorem flatMap_unionParts_of_grown (before : t.entries.toList <+: u.entries.toList)
    (contained : ∀ member ∈ xs, t.contains member = true) :
    xs.flatMap u.unionParts = xs.flatMap t.unionParts := by
  rw [List.flatMap_def, List.flatMap_def]
  refine congrArg List.flatten (List.map_congr_left fun member included => ?_)
  rw [unionParts, unionParts, get?_eq_of_grown before (contained member included)]

/-- What a union comes to stays the same while the table grows. -/
theorem Regular.unionForm_of_grown (regular : t.Regular)
    (before : t.entries.toList <+: u.entries.toList)
    (contained : ∀ member ∈ xs, t.contains member = true) : u.unionForm xs = t.unionForm xs := by
  have flat := flatMap_unionParts_of_grown before contained
  have kept : u.keptParts xs = t.keptParts xs := by
    unfold keptParts
    rw [flat]
    refine List.filter_congr fun part included => ?_
    obtain ⟨member, joined, belongs⟩ := List.mem_flatMap.mp included
    have entry := get?_eq_of_grown before
      (regular.contains_of_mem_unionParts (contained member joined) belongs)
    rw [isAbsorbed, isAbsorbed, entry]
  rw [unionForm, unionForm, flat, kept]

/-- Building a union again in a table that has grown finds the type that was built. -/
theorem Regular.union_of_grown (regular : t.Regular) {built later : Table}
    (indexed : later.Indexed) (contained : ∀ member ∈ xs, t.contains member = true)
    (joined : t.union xs = (built, r)) (before : t.entries.toList <+: later.entries.toList)
    (after : built.entries.toList <+: later.entries.toList) : later.union xs = (later, r) := by
  rw [union_eq_enter] at joined ⊢
  rw [regular.unionForm_of_grown before contained]
  exact regular.indexed.enter_of_grown indexed joined after

end Table

end ConditionLint
