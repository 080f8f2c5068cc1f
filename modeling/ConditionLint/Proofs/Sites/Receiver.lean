import ConditionLint.Analysis.Callback
import ConditionLint.Proofs.Sites.Undecidable

/-!
# Receivers that are lists

Two checks ask whether an expression is an array or a tuple. A call of a predicate method looks at
the members of its type and takes intersections apart. Reading an element by a computed key looks at
the members and at those of their constraints, but into no intersection. So a list that is a member
itself is known to both checks, and one that is only part of an intersection to the first.
-/

set_option autoImplicit false

namespace ConditionLint

namespace Table

variable {t : Table} {id part member : TypeId}

/-- The type is an array or a tuple type. -/
def isList (t : Table) (id : TypeId) : Bool :=
  t.isArray id || t.isTuple id

/-- What the members of a type are made of, intersections taken apart. -/
def constituents (t : Table) (id : TypeId) : List TypeId :=
  (t.unionParts id).flatMap t.intersectionParts

theorem mayBeList_iff :
    t.mayBeList id = true ↔ ∃ part ∈ t.constituents id, t.isList part = true :=
  List.any_eq_true

private theorem get?_of_isList (list : t.isList part = true) :
    (∃ element, t.get? part = some (.array element)) ∨
      ∃ elements, t.get? part = some (.tuple elements) := by
  unfold isList isArray isTuple at list
  cases entry : t.get? part with
  | none => simp [entry] at list
  | some d =>
      cases d with
      | array element => exact .inl ⟨element, rfl⟩
      | tuple elements => exact .inr ⟨elements, rfl⟩
      | _ => simp [entry] at list

private theorem mem_constrainedUnionParts_of_isList (included : part ∈ t.unionParts id)
    (list : t.isList part = true) : part ∈ t.constrainedUnionParts id := by
  have resolved : t.unionParts (t.constrained part) = [part] := by
    cases get?_of_isList list with
    | inl array =>
        obtain ⟨element, entry⟩ := array
        rw [constrained_of_not_variable (kindIn_of_get? entry _)]
        exact unionParts_of_not_union (by simp [entry])
    | inr tuple =>
        obtain ⟨elements, entry⟩ := tuple
        rw [constrained_of_not_variable (kindIn_of_get? entry _)]
        exact unionParts_of_not_union (by simp [entry])
  apply List.mem_flatMap.mpr
  exact ⟨part, included, resolved ▸ List.mem_singleton_self part⟩

/-- A list among the constituents is found among the resolved members, or an intersection hides
it. -/
private theorem mem_constrainedUnionParts_or_hidden (included : part ∈ t.constituents id)
    (list : t.isList part = true) :
    part ∈ t.constrainedUnionParts id ∨
      ∃ member ∈ t.unionParts id, ∃ others,
        t.get? member = some (.intersection others) ∧ part ∈ others := by
  obtain ⟨member, belongs, constituent⟩ := List.mem_flatMap.mp included
  cases t.intersection_or_single member with
  | inl intersection =>
      obtain ⟨others, entry⟩ := intersection
      rw [intersectionParts_of_intersection entry] at constituent
      exact .inr ⟨member, belongs, others, entry, constituent⟩
  | inr single =>
      have same := (mem_intersectionParts_of_single single).mp constituent
      rw [← same] at belongs
      exact .inl (mem_constrainedUnionParts_of_isList belongs list)

end Table

namespace Program

variable {p : Program} {r : Expr} {type : TypeId}

theorem isPredicateMethod_iff (typed : p.constrainedType? r = some type) {node : Node}
    {key : MemberKey} {optional : Bool} :
    p.isPredicateMethod (.member node r key optional) = true ↔
      (∃ name ∈ predicateMethods, key.spelledName? = some name) ∧
        ∃ part ∈ p.table.constituents type, p.table.isList part = true := by
  have spelled : key.spelledName?.any predicateMethods.contains = true ↔
      ∃ name ∈ predicateMethods, key.spelledName? = some name := by
    rw [Option.any_eq_true]
    simp only [List.contains_iff_mem, and_comm]
  rw [← Table.mayBeList_iff, ← spelled]
  simp [isPredicateMethod, typed]

theorem readsElement_iff (typed : p.constrainedType? r = some type) {node : Node} {key : Expr}
    {optional : Bool} :
    p.readsElement (.member node r (.computed key) optional) = true ↔
      (∃ part ∈ p.table.constrainedUnionParts type, p.table.isArray part = true) ∨
        (key.isLiteral = false ∧
          ∃ part ∈ p.table.constrainedUnionParts type, p.table.isTuple part = true) := by
  simp only [readsElement, typed, Bool.or_eq_true, Bool.and_eq_true, List.any_eq_true,
    Bool.not_eq_true']

/-- A literal key tells arrays from tuples, so all keys read elements of arrays only. -/
theorem forall_readsElement_iff (typed : p.constrainedType? r = some type) :
    (∀ node key optional, p.readsElement (.member node r (.computed key) optional) = true) ↔
      ∃ part ∈ p.table.constrainedUnionParts type, p.table.isArray part = true := by
  constructor
  · intro guarded
    cases (readsElement_iff typed).mp (guarded default (.literal default .null) false) with
    | inl array => exact array
    | inr tuple => cases tuple.1
  · intro array node key optional
    exact (readsElement_iff typed).mpr (.inl array)

theorem forall_open_readsElement_iff (typed : p.constrainedType? r = some type) :
    (∀ node key optional, key.isLiteral = false →
        p.readsElement (.member node r (.computed key) optional) = true) ↔
      ∃ part ∈ p.table.constrainedUnionParts type, p.table.isList part = true := by
  have split : (∃ part ∈ p.table.constrainedUnionParts type, p.table.isList part = true) ↔
      (∃ part ∈ p.table.constrainedUnionParts type, p.table.isArray part = true) ∨
        ∃ part ∈ p.table.constrainedUnionParts type, p.table.isTuple part = true := by
    simp only [Table.isList, Bool.or_eq_true, and_or_left, exists_or]
  rw [split]
  constructor
  · intro guarded
    have reads := guarded default (.identifier default) false rfl
    exact ((readsElement_iff typed).mp reads).imp_right And.right
  · intro list node key optional nonLiteral
    exact (readsElement_iff typed).mpr (list.imp_right fun tuple => ⟨nonLiteral, tuple⟩)

end Program

/-- What the two checks take for a list: a predicate method is one of a type with a list among its
constituents; all keys read elements exactly if a resolved member is an array, and all keys but
literals exactly if one is a list. They differ at most for a list that an intersection hides. -/
theorem list_receivers {p : Program} {r : Expr} {type : TypeId}
    (typed : p.constrainedType? r = some type) :
    (∀ node key optional, p.isPredicateMethod (.member node r key optional) = true ↔
        (∃ name ∈ predicateMethods, key.spelledName? = some name) ∧
          ∃ part ∈ p.table.constituents type, p.table.isList part = true) ∧
      ((∀ node key optional, p.readsElement (.member node r (.computed key) optional) = true) ↔
        ∃ part ∈ p.table.constrainedUnionParts type, p.table.isArray part = true) ∧
      ((∀ node key optional, key.isLiteral = false →
          p.readsElement (.member node r (.computed key) optional) = true) ↔
        ∃ part ∈ p.table.constrainedUnionParts type, p.table.isList part = true) ∧
      ∀ part ∈ p.table.constituents type, p.table.isList part = true →
        part ∈ p.table.constrainedUnionParts type ∨
          ∃ member ∈ p.table.unionParts type, ∃ others,
            p.table.get? member = some (.intersection others) ∧ part ∈ others := by
  refine ⟨?_, Program.forall_readsElement_iff typed, Program.forall_open_readsElement_iff typed, ?_⟩
  · intro node key optional
    exact Program.isPredicateMethod_iff typed
  · intro part included list
    exact Table.mem_constrainedUnionParts_or_hidden included list

namespace Branded

/-!
The calls `list.filter(keep)` and the access `list[i]`, where `list` is an array of named objects
with a brand.
-/

def descriptors : List Descriptor :=
  wellKnown ++
    [.object ⟨[⟨"name", .string⟩], [], []⟩, .array ⟨14⟩, .object ⟨[⟨"brand", .true⟩], [], []⟩,
      .intersection [⟨15⟩, ⟨16⟩], .object ⟨[], [], [⟨[⟨14⟩], ⟨14⟩⟩]⟩]

def list : Expr :=
  .identifier ⟨⟨⟨0⟩, ⟨0, 4, 1, 1⟩⟩, "list"⟩

def callee : Expr :=
  .member ⟨⟨2⟩, ⟨0, 11, 1, 1⟩⟩ list (.named ⟨⟨⟨1⟩, ⟨5, 11, 1, 6⟩⟩, "filter"⟩) false

def program : Program :=
  Program.record ⟨.ofList descriptors, ∅, true⟩ list.id ⟨17⟩

private theorem ofDescriptors?_descriptors : Table.ofDescriptors? descriptors = .ok program.table :=
  Table.ofDescriptors?_eq_ok_iff.mpr ⟨⟨_, rfl⟩, by decide +kernel, rfl⟩

private theorem constrainedType?_list : program.constrainedType? list = some ⟨17⟩ := by
  have recorded : program.typeOf? list.id = some ⟨17⟩ := by simp [program]
  rw [Program.constrainedType?_of_typeOf? recorded]
  decide +kernel

private theorem array_constituent :
    ∃ part ∈ program.table.constituents ⟨17⟩, program.table.isArray part = true := by
  decide +kernel

private theorem no_array_member :
    ¬ ∃ part ∈ program.table.constrainedUnionParts ⟨17⟩, program.table.isArray part = true := by
  decide +kernel

end Branded

theorem branded_list_unguarded :
    Branded.program.constrainedType? Branded.list = some ⟨17⟩ ∧
      Branded.program.isPredicateMethod Branded.callee = true ∧
      ¬ ∀ node key optional, Branded.program.readsElement
        (.member node Branded.list (.computed key) optional) = true := by
  have typed := Branded.constrainedType?_list
  obtain ⟨method, guarded, _, _⟩ := list_receivers typed
  refine ⟨typed, ?_, fun reads => Branded.no_array_member (guarded.mp reads)⟩
  apply (method _ _ _).mpr
  obtain ⟨part, included, array⟩ := Branded.array_constituent
  refine ⟨⟨"filter", by decide, rfl⟩, part, included, ?_⟩
  rw [Table.isList, array, Bool.true_or]

/-- An array with a brand is a receiver of predicate methods, and its elements are not taken for
elements. -/
theorem not_forall_list_guarded :
    ¬ ∀ (ds : List Descriptor) (p : Program) (r : Expr) (type : TypeId),
      Table.ofDescriptors? ds = .ok p.table → p.constrainedType? r = some type →
      ((∃ part ∈ p.table.constituents type, p.table.isArray part = true) →
        ∀ node key optional, p.readsElement (.member node r (.computed key) optional) = true) ∧
      ((∃ part ∈ p.table.constituents type, p.table.isTuple part = true) →
        ∀ node key optional, key.isLiteral = false →
          p.readsElement (.member node r (.computed key) optional) = true) := by
  intro agree
  have typed := Branded.constrainedType?_list
  have reads := (agree _ _ _ _ Branded.ofDescriptors?_descriptors typed).1
    Branded.array_constituent
  exact Branded.no_array_member ((Program.forall_readsElement_iff typed).mp reads)

end ConditionLint
