import WordMachine.Numeral.Digit
import WordMachine.Text.Blank

/-!
# Bounded numbers

Numbers on a command line: digits, with a `+` in front or not, of a value up to
a bound (`readBounded`). `readMarked` also takes base sixteen, behind `0x` or
`0X`, and space at either end. Digits are read from the left, and the first
thing that is wrong is the fault: a character that is no digit, or a digit that
takes the value past the bound.
-/

namespace WordMachine.Numeral

/-- The largest number of sixteen bits. -/
def max16 : Nat := 0xFFFF

/-- The largest number of thirty-two bits. -/
def max32 : Nat := 0xFFFFFFFF

/-- The largest number of sixty-four bits. -/
def max64 : Nat := 0xFFFFFFFFFFFFFFFF

/-- Why a text is not a number up to a bound. -/
inductive NumberFault where
  | empty
  | invalidDigit
  | tooLarge
deriving DecidableEq, Repr

/-- The words for why a text is not a number. -/
def NumberFault.message : NumberFault → String
  | empty => "cannot parse integer from empty string"
  | invalidDigit => "invalid digit found in string"
  | tooLarge => "number too large to fit in target type"

/-- Reads digits on after others, which have the value `n`. -/
def readDigits (base bound n : Nat) : List Char → Except NumberFault Nat
  | [] => .ok n
  | c :: rest =>
    match digit? base c with
    | none => .error .invalidDigit
    | some d => if base * n + d ≤ bound then readDigits base bound (base * n + d) rest
      else .error .tooLarge

/-- Reads a number of at most `bound`, in base `base`. -/
def readBounded (base bound : Nat) : List Char → Except NumberFault Nat
  | [] => .error .empty
  | ['+'] => .error .invalidDigit
  | '+' :: digits => readDigits base bound 0 digits
  | digits => readDigits base bound 0 digits

/-- Reads a number of at most `bound`, in base sixteen if it has that mark and in
    base ten otherwise, space at either end aside. -/
def readMarked (bound : Nat) (text : String) : Except NumberFault Nat :=
  match Text.trim text.toList with
  | '0' :: 'x' :: digits => readBounded 16 bound digits
  | '0' :: 'X' :: digits => readBounded 16 bound digits
  | digits => readBounded 10 bound digits

end WordMachine.Numeral
