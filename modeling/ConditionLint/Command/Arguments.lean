import ConditionLint.Command.Style
import ConditionLint.Files.Path

/-!
# Arguments

What the program is asked to do. Options come as `--name value` or `--name=value`, each at most
once, in any order among the paths; everything behind `--` is a path.
-/

set_option autoImplicit false

namespace ConditionLint.Command

inductive Format where
  | pretty
  | json
deriving DecidableEq, Repr

def Format.ofText? : String → Option Format
  | "pretty" => some pretty
  | "json" => some json
  | _ => none

structure LintArguments where
  /-- Files, directories and patterns. -/
  paths : List String
  format : Format
  fix : Bool
  /-- The configuration file; the nearest one if none is given. -/
  config : Option Files.Path
  color : Option ColorChoice
deriving DecidableEq, Repr

inductive Invocation where
  | lint (arguments : LintArguments)
  | rules
  | version
  | help
deriving DecidableEq, Repr

structure Draft where
  /-- The paths, last first. -/
  paths : List String
  format : Option Format
  fix : Bool
  config : Option Files.Path
  color : Option ColorChoice

namespace Draft

def empty : Draft :=
  ⟨[], none, false, none, none⟩

/-- The arguments once all are read. Without paths the working directory is linted. -/
def finish (d : Draft) : Invocation :=
  .lint
    { paths := if d.paths.isEmpty then ["."] else d.paths.reverse
      format := d.format.getD .pretty
      fix := d.fix
      config := d.config
      color := d.color }

def set? (d : Draft) (name value : String) : Option Draft :=
  match name with
  | "--format" =>
    if d.format.isSome then none
    else (Format.ofText? value).map fun format => { d with format := some format }
  | "--config" =>
    if d.config.isSome || value.isEmpty then none
    else some { d with config := some (.ofText value) }
  | "--color" =>
    if d.color.isSome then none
    else (ColorChoice.ofText? value).map fun color => { d with color := some color }
  | _ => none

end Draft

def isOption (argument : String) : Bool :=
  argument.startsWith "-" && argument != "-"

def isHelp (argument : String) : Bool :=
  argument == "--help" || (argument.startsWith "-h")

/-- The argument takes a value, which is the next argument. -/
def takesValue (argument : String) : Bool :=
  ["--format", "--config", "--color"].contains argument

def splitValue? (argument : String) : Option (String × String) :=
  let cs := argument.toList
  match cs.dropWhile (· != '=') with
  | _ :: value => some (String.ofList (cs.takeWhile (· != '=')), String.ofList value)
  | [] => none

def readLint (d : Draft) : List String → Option Invocation
  | [] => some d.finish
  | [argument] =>
    if argument = "--" then some d.finish
    else if isHelp argument then some .help
    else if argument = "--fix" then if d.fix then none else some { d with fix := true }.finish
    else if isOption argument then
      (splitValue? argument).bind fun (name, value) => (d.set? name value).map Draft.finish
    else some { d with paths := argument :: d.paths }.finish
  | argument :: next :: rest =>
    if argument = "--" then some { d with paths := (next :: rest).reverse ++ d.paths }.finish
    else if isHelp argument then some .help
    else if argument = "--fix" then
      if d.fix then none else readLint { d with fix := true } (next :: rest)
    else if takesValue argument then
      if isOption next then none else (d.set? argument next).bind fun d => readLint d rest
    else if isOption argument then
      (splitValue? argument).bind fun (name, value) =>
        (d.set? name value).bind fun d => readLint d (next :: rest)
    else readLint { d with paths := argument :: d.paths } (next :: rest)

/-- Read what follows the name of a command that takes no arguments. -/
def readNothing (invocation : Invocation) : List String → Option Invocation
  | [] | ["--"] => some invocation
  | argument :: _ => if isHelp argument then some .help else none

def Invocation.ofList? : List String → Option Invocation
  | "lint" :: rest => readLint .empty rest
  | "rules" :: rest => readNothing .rules rest
  | ["help"] | ["help", "lint"] | ["help", "rules"] | ["help", "help"] => some .help
  | argument :: _ =>
    if argument == "--version" || argument.startsWith "-V" then some .version
    else if isHelp argument then some .help
    else none
  | [] => none

end ConditionLint.Command
