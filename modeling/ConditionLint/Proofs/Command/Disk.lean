import ConditionLint.Command.Run
import ConditionLint.Proofs.Files.Target

/-!
# Plans on a disk

Plans carried out where writing changes the world. No file that is written makes another path lead
elsewhere, so a plan is carried out to its end exactly if each of its files can be written at the
start.
-/

set_option autoImplicit false

namespace ConditionLint.Command

open Files

variable {w : World}

/-!
## Writing files
-/

namespace World

/-- The world with a file written, unless its path leads to no place for a file. -/
def write (w : World) (path : Path) (text : String) : World :=
  match w.files.target? path with
  | some place =>
    { files := w.files.add place .file
      read := fun q => if w.files.target? q = some place then .ok text else w.read q }
  | none => w

theorem target?_write (w : World) (path : Path) (text : String) (q : Path) :
    (w.write path text).files.target? q = w.files.target? q := by
  unfold write
  split
  · rename_i place targets
    exact FileTree.target?_add targets q
  · rfl

end World

/-!
## Taking steps
-/

/-- The world, and what has been told so far. -/
structure Session where
  world : World
  printed : String
  complained : String

def Session.host : Host (StateM Session) where
  print := fun text => modify fun s => { s with printed := s.printed ++ text }
  complain := fun text => modify fun s => { s with complained := s.complained ++ text }
  log := fun _ => pure ()
  write := fun path text => do
    let s ← get
    set { s with world := s.world.write path text }
    return (s.world.files.target? path).isSome

/-- Carry out a plan in a world, and give the code that it ends with. -/
def World.run (w : World) (plan : Plan) : Nat × Session :=
  (Session.host.run plan).run ⟨w, "", ""⟩

/-- Every file that is written has a place. -/
def World.CanWrite (w : World) (effects : List Effect) : Prop :=
  ∀ path text, .write path text ∈ effects → (w.files.target? path).isSome

namespace Session

variable {s : Session} {effects : List Effect}

/-- The session after a step. -/
def step (s : Session) : Effect → Session
  | .print text => { s with printed := s.printed ++ text }
  | .complain text => { s with complained := s.complained ++ text }
  | .log _ => s
  | .write path text => { s with world := s.world.write path text }

/-- The session after steps that all are possible. -/
def after (s : Session) (effects : List Effect) : Session :=
  effects.foldl step s

private theorem target?_step (s : Session) (effect : Effect) (q : Path) :
    (s.step effect).world.files.target? q = s.world.files.target? q := by
  cases effect with
  | write path text => exact World.target?_write ..
  | _ => rfl

private theorem perform_cons (code : Nat) {effect : Effect} (possible : s.world.CanWrite [effect])
    (rest : List Effect) :
    (host.perform code (effect :: rest)).run s = (host.perform code rest).run (s.step effect) := by
  cases effect with
  | write path text =>
      have place := possible path text (List.mem_singleton_self _)
      have written : (host.write path text).run s = (true, s.step (.write path text)) :=
        congrArg (·, s.step (.write path text)) place
      rw [Host.perform, StateT.run_bind, written]
      rfl
  | _ => rfl

/-- Steps that are possible are all taken, and end with the code of the plan. -/
theorem perform_eq (code : Nat) (possible : s.world.CanWrite effects) :
    (host.perform code effects).run s = (code, s.after effects) := by
  induction effects generalizing s with
  | nil => rfl
  | cons effect rest ih =>
      have first : s.world.CanWrite [effect] := by
        intro path text member
        exact possible path text (List.mem_cons.mpr (.inl (List.mem_singleton.mp member)))
      have later : (s.step effect).world.CanWrite rest := by
        intro path text member
        rw [target?_step]
        exact possible path text (List.mem_cons_of_mem _ member)
      rw [perform_cons code first, ih later]
      rfl

end Session

theorem World.run_eq {plan : Plan} (possible : w.CanWrite plan.effects) :
    w.run plan = (plan.code, Session.after ⟨w, "", ""⟩ plan.effects) :=
  Session.perform_eq plan.code possible

end ConditionLint.Command
