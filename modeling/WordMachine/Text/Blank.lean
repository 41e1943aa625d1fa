import WordMachine.Text.Range

/-!
# Blank characters

What counts as space between the parts of a text: the characters that have the
Unicode property *White_Space*, listed as closed ranges of code points, and the
trimming of a text at both ends.
-/

namespace WordMachine.Text

/-- The code points with the property *White_Space*, as ascending closed ranges. -/
def blankRanges : List (Nat × Nat) :=
  [(0x09, 0x0D), (0x20, 0x20), (0x85, 0x85), (0xA0, 0xA0), (0x1680, 0x1680),
    (0x2000, 0x200A), (0x2028, 0x2029), (0x202F, 0x202F), (0x205F, 0x205F), (0x3000, 0x3000)]

/-- Whether a character is space. -/
def isBlank (c : Char) : Bool := inRanges blankRanges c

/-- The text without the space it starts with. -/
def trimStart (cs : List Char) : List Char := cs.dropWhile isBlank

/-- The text without the space it ends with. -/
def trimEnd (cs : List Char) : List Char := (trimStart cs.reverse).reverse

/-- The text without the space at either end. -/
def trim (cs : List Char) : List Char := trimEnd (trimStart cs)

end WordMachine.Text
