import ConditionLint.Toml.Value

/-!
# Growing tables

No key is ever defined twice. A header may add to tables that earlier headers and dotted keys
opened on its way, and may define at its end a table that was only implied so far. A dotted key may
add to tables that dotted keys opened, but to none that has a header.
-/

set_option autoImplicit false

namespace ConditionLint.Toml.Entries

/-- Give a key its value: in place if the key is there, and last otherwise. -/
def set (key : String) (value : Value) : Entries → Entries
  | [] => [(key, value)]
  | (name, old) :: rest =>
    if name = key then (key, value) :: rest else (name, old) :: set key value rest

def define? (key : String) (value : Value) (t : Entries) : Option Entries :=
  match t.lookup key with
  | some _ => none
  | none => some (t ++ [(key, value)])

/-- Change the last of the tables that headers have added one by one. -/
def changeLast? (f : Entries → Option Entries) : List Entries → Option (List Entries)
  | [] => none
  | [last] => (f last).map ([·])
  | element :: rest => (changeLast? f rest).map (element :: ·)

/-- Change the table at the end of a header's path. Tables that are missing on the way become
implied ones. -/
def change? (f : Entries → Option Entries) : List String → Entries → Option Entries
  | [], t => f t
  | key :: path, t =>
    match t.lookup key with
    | none => (change? f path []).map fun inner => set key (.table .implied inner) t
    | some (.table .inline _) => none
    | some (.table origin inner) =>
      (change? f path inner).map fun inner => set key (.table origin inner) t
    | some (.tables elements) =>
      (changeLast? (change? f path) elements).map fun elements => set key (.tables elements) t
    | some _ => none

/-- Define a key in the table at the end of a path of dotted keys, which has to be a table that
dotted keys opened. -/
def defineDotted? (key : String) (value : Value) : List String → Entries → Option Entries
  | [], t => define? key value t
  | name :: path, t =>
    match t.lookup name with
    | none => (defineDotted? key value path []).map fun inner => set name (.table .dotted inner) t
    | some (.table .dotted inner) =>
      (defineDotted? key value path inner).map fun inner => set name (.table .dotted inner) t
    | some (.table .implied inner) =>
      if path.isEmpty then none
      else
        (defineDotted? key value path inner).map fun inner => set name (.table .implied inner) t
    | some (.tables elements) =>
      if path.isEmpty then none
      else
        (changeLast? (defineDotted? key value path) elements).map fun elements =>
          set name (.tables elements) t
    | some _ => none

def add? (key : List String) (value : Value) (t : Entries) : Option Entries :=
  key.getLast?.bind fun last => defineDotted? last value key.dropLast t

/-- Define a table of its own, which may have been implied before. -/
def openTable? (key : String) (t : Entries) : Option Entries :=
  match t.lookup key with
  | none => some (t ++ [(key, .table .header [])])
  | some (.table .implied inner) => some (set key (.table .header inner) t)
  | some _ => none

def openElement? (key : String) (t : Entries) : Option Entries :=
  match t.lookup key with
  | none => some (t ++ [(key, .tables [[]])])
  | some (.tables elements) => some (set key (.tables (elements ++ [[]])) t)
  | some _ => none

def open? (path : List String) (isElement : Bool) (t : Entries) : Option Entries :=
  path.getLast?.bind fun key =>
    change? (if isElement then openElement? key else openTable? key) path.dropLast t

end ConditionLint.Toml.Entries
