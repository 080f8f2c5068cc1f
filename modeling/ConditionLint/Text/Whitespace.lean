import ConditionLint.Text.Ranges

/-!
# Whitespace

The characters with the Unicode property `White_Space`.
-/

set_option autoImplicit false

namespace ConditionLint.Text

/-- Ranges of characters that are whitespace. -/
def whitespaceRanges : Array (Nat × Nat) :=
  #[(0x09, 0x0D), (0x20, 0x20), (0x85, 0x85), (0xA0, 0xA0), (0x1680, 0x1680), (0x2000, 0x200A),
    (0x2028, 0x2029), (0x202F, 0x202F), (0x205F, 0x205F), (0x3000, 0x3000)]

def isWhitespace (c : Char) : Bool :=
  inRanges whitespaceRanges c

end ConditionLint.Text
