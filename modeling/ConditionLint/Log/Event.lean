import ConditionLint.Text.Whitespace

/-!
# Log events

An event tells what happened in some part of the program, with named values. A filter says which
events are shown: its most specific rule about an event decides, by the start of the part's name and
the names of the values, and of events without a rule only warnings and errors are shown.
-/

set_option autoImplicit false

namespace ConditionLint.Log

inductive Level where
  | error
  | warn
  | info
  | debug
  | trace
deriving DecidableEq, Repr, Inhabited

namespace Level

def name : Level → String
  | error => "ERROR"
  | warn => "WARN"
  | info => "INFO"
  | debug => "DEBUG"
  | trace => "TRACE"

def rank : Level → Nat
  | error => 1
  | warn => 2
  | info => 3
  | debug => 4
  | trace => 5

end Level

structure Event where
  level : Level
  part : String
  message : String
  values : List (String × String)
deriving Repr

def Event.text (e : Event) : String :=
  e.level.name ++ " " ++ e.part ++ ": " ++ e.message ++
    String.join (e.values.map fun (name, value) => " " ++ name ++ "=" ++ value)

/-- The names of the values of an event. Its message is one of them. -/
def Event.valueNames (e : Event) : List String :=
  "message" :: e.values.map Prod.fst

/-- What is shown of some events: those up to a rank. -/
structure Rule where
  /-- How the names of the parts start that the rule is about. -/
  start : String
  /-- The name of a value that the events have; all events if there is none. -/
  value : Option String
  rank : Nat
deriving DecidableEq, Repr

namespace Rule

def concerns (r : Rule) (e : Event) : Bool :=
  e.part.startsWith r.start && r.value.all e.valueNames.contains

/-- The first rule is at least as specific as the second. The longer start decides, then whether
the rule names a value, then the order of those names. -/
def supersedes (a b : Rule) : Bool :=
  if a.start.length = b.start.length then
    match a.value, b.value with
    | some x, some y => y ≤ x
    | none, some _ => false
    | _, none => true
  else
    b.start.length < a.start.length

end Rule

abbrev Filter := List Rule

def rankOfNumber? (digits : List Char) : Option Nat :=
  if !digits.isEmpty && digits.all Char.isDigit then
    let rank := digits.foldl (fun n c => 10 * n + (c.toNat - '0'.toNat)) 0
    if rank ≤ Level.trace.rank then some rank else none
  else
    none

/-- The rank that a word for a level stands for: a number, perhaps behind a plus sign, or a name in
whatever case. Nothing is shown at the rank of `off`. -/
def rankOf? (word : String) : Option Nat :=
  match word.toLower with
  | "off" => some 0
  | "error" => some Level.error.rank
  | "warn" => some Level.warn.rank
  | "info" => some Level.info.rank
  | "debug" => some Level.debug.rank
  | "trace" => some Level.trace.rank
  | word =>
    match word.toList with
    | '+' :: digits => rankOfNumber? digits
    | digits => rankOfNumber? digits

/-- The rank at the end of an item. All levels are shown where none is given. -/
def rankAfter? : List Char → Option Nat
  | [] | ['='] => some Level.trace.rank
  | '=' :: word => rankOf? (String.ofList word)
  | _ => none

def valueName? (cs : List Char) : Option (String × List Char) :=
  let name := cs.takeWhile (· != '\x7d')
  match cs.dropWhile (· != '\x7d') with
  | '\x7d' :: ']' :: rest =>
    if name.isEmpty || name.contains '=' then none else some (String.ofList name, rest)
  | _ => none

/-- Read one item of a filter: how the parts start, then perhaps the name of a value in brackets
and braces, then perhaps a level behind an equals sign. There has to be a start or a value, and a
level alone sets no rule. -/
def rule? (item : List Char) : Option Rule :=
  let start := item.takeWhile fun c => c != '=' && c != '['
  match item.dropWhile fun c => c != '=' && c != '[' with
  | '[' :: '\x7b' :: inner => do
    let (value, rest) ← valueName? inner
    let rank ← rankAfter? (if rest.all Text.isWhitespace then [] else rest)
    return ⟨String.ofList start, some value, rank⟩
  | rest => do
    guard (!start.isEmpty && !(rest.isEmpty && (rankOf? (String.ofList start)).isSome))
    return ⟨String.ofList start, none, ← rankAfter? rest⟩

namespace Filter

/-- Read a filter: items between commas, of which those that are none are left out. -/
def ofText (text : String) : Filter :=
  (text.splitOn ",").filterMap fun item => rule? item.toList

def defaultRank : Nat :=
  Level.warn.rank

/-- The rule for an event: the most specific one, and of equal ones the last. -/
def ruleFor? (f : Filter) (e : Event) : Option Rule :=
  (f.filter (·.concerns e)).foldl
    (fun best rule => if best.all rule.supersedes then some rule else best) none

def shows (f : Filter) (e : Event) : Bool :=
  e.level.rank ≤ ((f.ruleFor? e).map Rule.rank).getD defaultRank

end Filter

end ConditionLint.Log
