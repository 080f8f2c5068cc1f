/-!
# Lines of a text

A line ends after each line feed. The text after the last line feed is a line too, so every text
has at least one line.
-/

set_option autoImplicit false

namespace ConditionLint.Text

/-- The lines of a text, each with its line feed. -/
def lines : List Char → List (List Char)
  | [] => [[]]
  | c :: cs =>
    if c = '\n' then
      ['\n'] :: lines cs
    else
      match lines cs with
      | [] => [[c]]
      | line :: rest => (c :: line) :: rest

end ConditionLint.Text
