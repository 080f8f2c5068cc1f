import ConditionLint.Files.Tree
import ConditionLint.Log.Event

/-!
# Plans

What a command is going to do, step by step, and the code that it ends with. A file that cannot be
written ends the plan early.
-/

set_option autoImplicit false

namespace ConditionLint.Command

inductive Effect where
  | print (text : String)
  /-- Print a text where problems are told. -/
  | complain (text : String)
  | log (event : Log.Event)
  | write (path : Files.Path) (text : String)
deriving Repr

structure Plan where
  effects : List Effect
  code : Nat
deriving Repr

def successCode : Nat := 0

def failureCode : Nat := 1

/-- The code of a run that was asked for something it does not understand. -/
def usageCode : Nat := 2

/-- The code of a run that met tokens which do not belong to their tree. -/
def brokenCode : Nat := 101

/-- The last words of a run that cannot go on. -/
def failure (message : String) : Effect :=
  .complain ("Error: " ++ message ++ "\n")

def Plan.failed (before : List Effect) (message : String) : Plan :=
  ⟨before ++ [failure message], failureCode⟩

structure Host (m : Type → Type) where
  print : String → m Unit
  complain : String → m Unit
  log : Log.Event → m Unit
  /-- Write a file, and tell whether that was possible. -/
  write : Files.Path → String → m Bool

def Host.perform {m : Type → Type} [Monad m] (host : Host m) (code : Nat) : List Effect → m Nat
  | [] => pure code
  | .print text :: rest => do
    host.print text
    host.perform code rest
  | .complain text :: rest => do
    host.complain text
    host.perform code rest
  | .log event :: rest => do
    host.log event
    host.perform code rest
  | .write path text :: rest => do
    if ← host.write path text then
      host.perform code rest
    else
      host.complain ("Error: failed to write " ++ path.text ++ "\n")
      pure failureCode

def Host.run {m : Type → Type} [Monad m] (host : Host m) (plan : Plan) : m Nat :=
  host.perform plan.code plan.effects

end ConditionLint.Command
