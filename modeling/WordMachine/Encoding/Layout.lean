import WordMachine.Encoding.Field
import WordMachine.Instruction.Basic

/-!
# The layout of instruction words

For every family of instructions the opcode and the fields of its words, and for
every choice a field makes the code that stands for it. Both encoding and
decoding read these tables, so they cannot disagree on where a value stands.

Opcodes overlap: shifts lie in the space of the operations on two words, and the
words of the last families lie in the space of the first ones that start alike.
The family with the longest opcode is the one a word belongs to.
-/

namespace WordMachine.Layout

/-- The word that stops the machine. -/
def haltWord : Word := 0xFFFF

namespace LoadImmediate

/-- Words of the form `0 value`. -/
def opcode : Opcode := ⟨1, 0b0⟩

/-- The number to load, without sign. -/
def value : Field := ⟨0, 15⟩

end LoadImmediate

namespace Transfer

/-- Words of the form `10 direction register base offset`. -/
def opcode : Opcode := ⟨2, 0b10⟩

/-- Whether the word loads or stores. -/
def direction : Field := ⟨13, 1⟩

/-- The register that is loaded or stored. -/
def register : Field := ⟨9, 4⟩

/-- The register that the address starts from. -/
def base : Field := ⟨5, 4⟩

/-- What is added to it, with sign. -/
def offset : Field := ⟨0, 5⟩

/-- The direction from memory to register. -/
def loads : Word := 0

/-- The direction from register to memory. -/
def stores : Word := 1

end Transfer

namespace Alu

/-- Words of the form `110 operation target write immediate operand`. -/
def opcode : Opcode := ⟨3, 0b110⟩

/-- The code of the operation. -/
def operation : Field := ⟨10, 3⟩

/-- The register that holds the first operand and takes the result. -/
def target : Field := ⟨6, 4⟩

/-- One if the result is written back. -/
def write : Field := ⟨5, 1⟩

/-- One if the second operand is a number, and not a register. -/
def immediate : Field := ⟨4, 1⟩

/-- The second operand. -/
def operand : Field := ⟨0, 4⟩

end Alu

namespace Shift

/-- Words of the form `110111 target kind count`. -/
def opcode : Opcode := ⟨6, 0b110111⟩

/-- The register to shift. -/
def target : Field := ⟨6, 4⟩

/-- The code of the way to shift. -/
def kind : Field := ⟨4, 2⟩

/-- How far to shift. -/
def count : Field := ⟨0, 4⟩

end Shift

namespace Branch

/-- Words of the form `1110 condition offset`. -/
def opcode : Opcode := ⟨4, 0b1110⟩

/-- The code of the condition. -/
def condition : Field := ⟨9, 3⟩

/-- How far to go from the next instruction, with sign. -/
def offset : Field := ⟨0, 9⟩

end Branch

namespace Move

/-- Words of the form `111110 target source addend`. -/
def opcode : Opcode := ⟨6, 0b111110⟩

/-- The register to copy to. -/
def target : Field := ⟨6, 4⟩

/-- The register to copy from. -/
def source : Field := ⟨2, 4⟩

/-- What is added to the copy, without sign. -/
def addend : Field := ⟨0, 2⟩

end Move

namespace LoadSigned

/-- Words of the form `1111110 target value`. -/
def opcode : Opcode := ⟨7, 0b1111110⟩

/-- The register to load. -/
def target : Field := ⟨5, 4⟩

/-- The number to load, with sign. -/
def value : Field := ⟨0, 5⟩

end LoadSigned

namespace Flag

/-- Words of the form `11111110 kind index`. -/
def opcode : Opcode := ⟨8, 0b11111110⟩

/-- The code for setting or clearing, and of the group. -/
def kind : Field := ⟨4, 4⟩

/-- The number of the flag in its group. -/
def index : Field := ⟨0, 4⟩

end Flag

namespace System

/-- Words of the form `1111111111110 operation`. -/
def opcode : Opcode := ⟨13, 0b1111111111110⟩

/-- The code of the operation. -/
def operation : Field := ⟨0, 3⟩

end System

end WordMachine.Layout

namespace WordMachine

/-! ## Codes -/

/-- The code of an operation on two words. -/
def AluOp.code : AluOp → Word
  | add => 0
  | sub => 1
  | and => 2
  | or => 3
  | xor => 4

/-- The operation on two words with a given code, if there is one. -/
def AluOp.ofCode? (code : Word) : Option AluOp := all.find? (·.code == code)

/-- The code of a way to shift. -/
def ShiftOp.code : ShiftOp → Word
  | left => 0
  | right => 1
  | arithmetic => 2
  | rotate => 3

/-- The way to shift with a given code, if there is one. -/
def ShiftOp.ofCode? (code : Word) : Option ShiftOp := all.find? (·.code == code)

/-- The code of a condition. -/
def Condition.code : Condition → Word
  | zero => 0
  | notZero => 1
  | carry => 2
  | notCarry => 3
  | negative => 4
  | notNegative => 5
  | overflow => 6
  | notOverflow => 7

/-- The condition with a given code, if there is one. -/
def Condition.ofCode? (code : Word) : Option Condition := all.find? (·.code == code)

/-- The code of an operation without operands. -/
def SystemOp.code : SystemOp → Word
  | nop => 0
  | hlt => 1
  | swi => 2
  | reti => 3

/-- The operation without operands with a given code, if there is one. -/
def SystemOp.ofCode? (code : Word) : Option SystemOp := all.find? (·.code == code)

/-- The code for setting, or clearing, a flag of a group. -/
def FlagGroup.code (set : Bool) : FlagGroup → Word
  | low => if set then 0xC else 0xD
  | high => if set then 0xE else 0xF

/-- What a code does to a flag, and in which group, if it does anything. -/
def FlagGroup.ofCode? (code : Word) : Option (Bool × FlagGroup) :=
  [(true, low), (false, low), (true, high), (false, high)].find? fun (set, group) =>
    group.code set == code

end WordMachine
