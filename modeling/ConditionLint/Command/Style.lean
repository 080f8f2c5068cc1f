/-!
# Styled output

Text in bold or colour, by the escape sequences of terminals. Where colours are off, styled text is
plain text.
-/

set_option autoImplicit false

namespace ConditionLint.Command

inductive Color where
  | red
  | green
  | yellow
  | cyan
deriving DecidableEq, Repr

def Color.number : Color → Nat
  | .red => 1
  | .green => 2
  | .yellow => 3
  | .cyan => 6

structure Style where
  isBold : Bool
  color : Option Color
deriving DecidableEq, Repr

namespace Style

def success : Style := ⟨true, some .green⟩

def error : Style := ⟨true, some .red⟩

def warning : Style := ⟨true, some .yellow⟩

def hint : Style := ⟨false, some .cyan⟩

def strong : Style := ⟨true, none⟩

def escape (code : String) : String :=
  "\x1b[" ++ code ++ "m"

def apply (style : Style) (isOn : Bool) (text : String) : String :=
  if isOn then
    escape "0" ++ (if style.isBold then escape "1" else "") ++
      ((style.color.map fun color => escape ("3" ++ toString color.number)).getD "") ++ text ++
      escape "0"
  else
    text

end Style

inductive ColorChoice where
  | auto
  | always
  | never
deriving DecidableEq, Repr

def ColorChoice.ofText? : String → Option ColorChoice
  | "auto" => some auto
  | "always" => some always
  | "never" => some never
  | _ => none

structure Environment where
  noColor : Bool
  terminal : Option String
  logFilter : Option String

/-- Colours are on: unless the user wants none, they are when they are asked for, and else when the
terminal has some. -/
def Environment.hasColors (e : Environment) (choice : Option ColorChoice) : Bool :=
  if e.noColor then false
  else
    match choice with
    | some .always => true
    | some .never => false
    | some .auto | none => e.terminal.any (· != "dumb")

end ConditionLint.Command
