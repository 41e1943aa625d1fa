import WordMachine.Numeral.Digit
import WordMachine.Text.Blank
import WordMachine.Text.Case

/-!
# Registers

Sixteen registers, `R0` to `R15`. The last four have a role, and are called by
it: the frame pointer `FP`, the stack pointer `SP`, the link register `LR` and
the program counter `PC`. A text may name any register by either name or by its
number, in any letter case (`Register.ofName?`).
-/

namespace WordMachine

/-- A register, by its number. -/
structure Register where
  index : Fin 16
deriving DecidableEq, Repr

namespace Register

/-- The number of a register is below sixteen. -/
theorem index_lt (r : Register) : r.index.val < 16 := r.index.isLt

/-- The register that `LDI` loads. -/
def r0 : Register := ⟨0⟩

/-- The stack pointer. -/
def sp : Register := ⟨13⟩

/-- The program counter. -/
def pc : Register := ⟨15⟩

/-- The names of the registers, in the order of their numbers. -/
def names : Vector String 16 :=
  #v["R0", "R1", "R2", "R3", "R4", "R5", "R6", "R7", "R8", "R9", "R10", "R11",
    "FP", "SP", "LR", "PC"]

/-- The name that a register is written with. -/
def name (r : Register) : String := names.get r.index

/-- All registers, in the order of their numbers. -/
def all : List Register := (List.finRange 16).map Register.mk

/-- The register with a given number, if there is one. -/
def ofIndex? (n : Nat) : Option Register :=
  if h : n < 16 then some ⟨n, h⟩ else none

/-- The register that a text in capitals names by its number: `R` and decimal
    digits, with any number of zeros in front. -/
def ofNumber? : List Char → Option Register
  | 'R' :: digits => (Numeral.magnitude? 10 digits).bind ofIndex?
  | _ => none

/-- The register that a token names, space around it and letter case aside. -/
def ofName? (token : String) : Option Register :=
  let text := Text.upper (Text.trim token.toList)
  (all.find? fun r => r.name.toList == text).or (ofNumber? text)

/-- Whether a token is meant as a register by its number, whether or not there
    is one: the letter `R` and decimal digits. -/
def looksNumbered (token : String) : Bool :=
  match Text.trim token.toList with
  | 'R' :: digits => !digits.isEmpty && digits.all Char.isDigit
  | 'r' :: digits => !digits.isEmpty && digits.all Char.isDigit
  | _ => false

end Register

end WordMachine
