import ConditionLint.Types.Kind
import Std.Data.HashMap

/-!
# Type tables

A table holds each descriptor once, in the order of first use, so that equal types have equal ids.
`intern` looks a descriptor up and appends it where it is new; the builders normalize unions and
intersections before they intern them. `ofDescriptors?` accepts a list exactly when it is a table
that interning could have built, and names the first fault otherwise.
-/

set_option autoImplicit false

namespace ConditionLint

/-- A type table: the descriptors by id, and the id of each descriptor. -/
structure Table where
  entries : Array Descriptor
  ids : Std.HashMap Descriptor TypeId
deriving Inhabited

namespace Table

def empty : Table :=
  ⟨#[], ∅⟩

def size (t : Table) : Nat :=
  t.entries.size

def get? (t : Table) (id : TypeId) : Option Descriptor :=
  t.entries[id.index]?

def contains (t : Table) (id : TypeId) : Bool :=
  id.index < t.size

def push (t : Table) (d : Descriptor) : Table :=
  ⟨t.entries.push d, t.ids.insert d ⟨t.size⟩⟩

/-- The id of a descriptor, which is appended if it is not in the table. -/
def intern (t : Table) (d : Descriptor) : Table × TypeId :=
  match t.ids[d]? with
  | some id => (t, id)
  | none => (t.push d, ⟨t.size⟩)

def initial : Table :=
  wellKnown.foldl (fun t d => (t.intern d).1) empty

def kind? (t : Table) (id : TypeId) : Option Kind :=
  (t.get? id).map Descriptor.kind

/-- The members of a union; any other type is its own only member. -/
def unionParts (t : Table) (id : TypeId) : List TypeId :=
  match t.get? id with
  | some (.union members) => members
  | _ => [id]

/-- The members of an intersection; any other type is its own only member. -/
def intersectionParts (t : Table) (id : TypeId) : List TypeId :=
  match t.get? id with
  | some (.intersection members) => members
  | _ => [id]

def insertId (id : TypeId) : List TypeId → List TypeId
  | [] => [id]
  | head :: tail =>
    if id.index < head.index then id :: head :: tail
    else if id = head then head :: tail
    else head :: insertId id tail

/-- The ids of a list, each once and in increasing order. -/
def ascending (ids : List TypeId) : List TypeId :=
  ids.foldr insertId []

/-- A literal whose widened primitive is among the members adds nothing to a union. -/
def isAbsorbed (t : Table) (members : List TypeId) (id : TypeId) : Bool :=
  match t.get? id with
  | some (.literal (.string _)) => members.contains .string
  | some (.literal (.number _)) => members.contains .number
  | some (.literal (.bigint _)) => members.contains .bigint
  | _ => false

/-- The normalized union: flat, without `never`, absorbed literals and repetitions. `any` and
`unknown` take over the whole union; no member makes `never`, and one member is itself. -/
def union (t : Table) (members : List TypeId) : Table × TypeId :=
  let flat := members.flatMap t.unionParts
  if flat.contains .any then (t, .any)
  else if flat.contains .unknown then (t, .unknown)
  else
    match ascending (flat.filter fun id => id != .never && !t.isAbsorbed flat id) with
    | [] => (t, .never)
    | [single] => (t, single)
    | ids => t.intern (.union ids)

/-- The normalized intersection: flat, without `unknown` and repetitions. `never` and then `any`
take over the whole intersection; no member makes `unknown`, and one member is itself. -/
def intersection (t : Table) (members : List TypeId) : Table × TypeId :=
  let flat := members.flatMap t.intersectionParts
  if flat.contains .never then (t, .never)
  else if flat.contains .any then (t, .any)
  else
    match ascending (flat.filter (· != .unknown)) with
    | [] => (t, .unknown)
    | [single] => (t, single)
    | ids => t.intern (.intersection ids)

def literal (t : Table) (value : LiteralValue) : Table × TypeId :=
  t.intern (.literal value)

def array (t : Table) (element : TypeId) : Table × TypeId :=
  t.intern (.array element)

def tuple (t : Table) (elements : List TypeId) : Table × TypeId :=
  t.intern (.tuple elements)

/-- The object type with the given properties only. -/
def object (t : Table) (properties : List Property) : Table × TypeId :=
  t.intern (.object ⟨properties, [], []⟩)

/-- The object type with one index signature only. -/
def record (t : Table) (key : IndexKind) (value : TypeId) : Table × TypeId :=
  t.intern (.object ⟨[], [⟨key, value⟩], []⟩)

/-- The object type with one call signature only. -/
def function (t : Table) (params : List TypeId) (returnType : TypeId) : Table × TypeId :=
  t.intern (.object ⟨[], [], [⟨params, returnType⟩]⟩)

def typeParameter (t : Table) (name : String) (constraint : Option TypeId) : Table × TypeId :=
  t.intern (.typeParameter name constraint)

def indexedAccess (t : Table) (object index : TypeId) : Table × TypeId :=
  t.intern (.indexedAccess object index)

end Table

inductive Composite where
  | union
  | intersection
deriving DecidableEq, Repr, Inhabited

inductive Irregularity where
  | fewerThanTwo
  | nested
  | never
deriving DecidableEq, Repr, Inhabited

inductive TableFault where
  | missingWellKnown (size : Nat)
  | wellKnownMismatch (index : Nat) (expected : Descriptor)
  | danglingReference (index : Nat) (target : TypeId)
  | unnormalized (index : Nat) (composite : Composite) (irregularity : Irregularity)
  | duplicate (index : Nat) (first : TypeId)
deriving DecidableEq, Repr, Inhabited

namespace Table

def memberIrregularity? (t : Table) (composite : Composite) (member : TypeId) :
    Option Irregularity :=
  match composite, t.get? member with
  | .union, some (.union _) => some .nested
  | .intersection, some (.intersection _) => some .nested
  | .union, _ => if member = .never then some .never else none
  | .intersection, _ => none

/-- What is wrong with the members of a composite type, the first member at fault deciding. -/
def irregularity? (t : Table) (composite : Composite) (members : List TypeId) :
    Option Irregularity :=
  if members.length < 2 then some .fewerThanTwo
  else members.findSome? (t.memberIrregularity? composite)

def composite? : Descriptor → Option (Composite × List TypeId)
  | .union members => some (.union, members)
  | .intersection members => some (.intersection, members)
  | _ => none

/-- Why a descriptor cannot be the next entry of a table: a reference that does not come before
it, members that are not normalized, or an equal entry. -/
def entryFault? (t : Table) (d : Descriptor) : Option TableFault :=
  match d.references.find? fun target => t.size ≤ target.index with
  | some target => some (.danglingReference t.size target)
  | none =>
    match (composite? d).bind fun (composite, members) =>
        (t.irregularity? composite members).map fun reason => (composite, reason) with
    | some (composite, reason) => some (.unnormalized t.size composite reason)
    | none => t.ids[d]?.map (.duplicate t.size)

def extend? (t : Table) : List Descriptor → Except TableFault Table
  | [] => .ok t
  | d :: rest =>
    match t.entryFault? d with
    | some fault => .error fault
    | none => (t.push d).extend? rest

/-- The first place from `index` on where a list differs from the expected descriptors. -/
def mismatch? (index : Nat) : List Descriptor → List Descriptor → Option TableFault
  | expected :: expecteds, found :: founds =>
    if found = expected then mismatch? (index + 1) expecteds founds
    else some (.wellKnownMismatch index expected)
  | _, _ => none

def ofDescriptors? (ds : List Descriptor) : Except TableFault Table :=
  if ds.length < wellKnown.length then .error (.missingWellKnown ds.length)
  else
    match mismatch? 0 wellKnown ds with
    | some fault => .error fault
    | none => empty.extend? ds

end Table

end ConditionLint
