import WordMachine.Numeral.Digit
import WordMachine.Word

/-!
# The status word

One word of the machine holds its flags: the negative, zero, overflow and carry
flag of the last operation (`N`, `Z`, `V`, `C`), the interrupt and the
supervisor flag (`I`, `S`), and the fields `SR`, `DS`, `ER` and `DE`, which
instructions can set bit by bit and which mean nothing to the machine.
-/

namespace WordMachine

/-- The status word. -/
structure Status where
  bits : Word
deriving DecidableEq, Repr

namespace Status

/-- The status word without any flag. -/
def clear : Status := ⟨0⟩

/-- The flags and fields of a status word, each by the bits it takes. -/
def parts : List (String × Word) :=
  [("N", 1 <<< 0), ("Z", 1 <<< 1), ("V", 1 <<< 2), ("C", 1 <<< 3), ("I", 1 <<< 4),
    ("S", 1 <<< 5), ("SR", 0b1111 <<< 6), ("DS", 1 <<< 10), ("ER", 0b1111 <<< 11),
    ("DE", 1 <<< 15)]

variable (s : Status)

/-- The last result was negative. -/
def negative : Bool := s.bits.getLsbD 0

/-- The last result was zero. -/
def zero : Bool := s.bits.getLsbD 1

/-- The last result was outside the signed numbers of a word. -/
def overflow : Bool := s.bits.getLsbD 2

/-- The last operation carried a bit out. -/
def carry : Bool := s.bits.getLsbD 3

/-- The field `SR`. -/
def sr : Word := (s.bits >>> 6) &&& 0xF

/-- The field `ER`. -/
def er : Word := (s.bits >>> 11) &&& 0xF

/-- The status word with one bit set or cleared. -/
def setBit (bit : Nat) (value : Bool) : Status :=
  let mask : Word := 1 <<< bit
  ⟨if value then s.bits ||| mask else s.bits &&& ~~~mask⟩

/-- The status word with the four flags of an operation. -/
def setArithmetic (negative zero overflow carry : Bool) : Status :=
  (((s.setBit 0 negative).setBit 1 zero).setBit 2 overflow).setBit 3 carry

/-- The status word on entry to the supervisor: its flag set, interrupts off. -/
def enterSupervisor : Status := (s.setBit 5 true).setBit 4 false

/-- The names of the parts whose bits are all set, and then the bits of the
    other parts as one number. -/
def names : List String :=
  let whole := parts.filter fun part => s.bits &&& part.2 == part.2
  let rest := s.bits &&& ~~~(whole.foldl (fun w part => w ||| part.2) 0)
  whole.map Prod.fst ++ if rest = 0 then [] else ["0x" ++ Numeral.hex 0 rest.toNat]

/-- The parts that are set, joined by bars; empty if there are none. -/
def text : String := " | ".intercalate s.names

/-- The parts that are set, marked as a status word. -/
def describe : String :=
  let text := if s.bits = 0 then "0x0" else s.text
  s!"Psw({text})"

end Status

end WordMachine
