/-!
# Letter case

Names are compared without regard to the case of the letters `A` to `Z`; no
other letter has a case here.
-/

namespace WordMachine.Text

/-- The text with `a` to `z` written as `A` to `Z`. -/
def upper (cs : List Char) : List Char := cs.map Char.toUpper

end WordMachine.Text
