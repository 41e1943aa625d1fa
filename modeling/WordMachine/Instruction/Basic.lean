import WordMachine.Register
import WordMachine.Word

/-!
# Instructions

What an instruction word can say. An immediate operand is an unbounded number
here: whether it fits the field that would hold it is for the encoding to tell,
and decoding only yields numbers that fit.
-/

namespace WordMachine

/-- The operations on two words that set the arithmetic flags. -/
inductive AluOp where
  | add
  | sub
  | and
  | or
  | xor
deriving DecidableEq, Repr

namespace AluOp

/-- All operations. -/
def all : List AluOp := [add, sub, and, or, xor]

/-- The name of the operation when its result is written back. -/
def mnemonic : AluOp → String
  | add => "ADD"
  | sub => "SUB"
  | and => "AND"
  | or => "OR"
  | xor => "XOR"

/-- The name of the form that only sets the flags, for the operations that have one. -/
def flagsOnlyMnemonic? : AluOp → Option String
  | add => some "ANW"
  | sub => some "CMP"
  | and => some "TBS"
  | or => none
  | xor => none

end AluOp

/-- The ways to shift a word. -/
inductive ShiftOp where
  /-- To the left, zeros coming in. -/
  | left
  /-- To the right, zeros coming in. -/
  | right
  /-- To the right, copies of the sign coming in. -/
  | arithmetic
  /-- To the right, what goes out coming in again. -/
  | rotate
deriving DecidableEq, Repr

namespace ShiftOp

/-- All ways to shift. -/
def all : List ShiftOp := [left, right, arithmetic, rotate]

/-- The name of the operation. -/
def mnemonic : ShiftOp → String
  | left => "SL"
  | right => "SR"
  | arithmetic => "SRA"
  | rotate => "ROR"

end ShiftOp

/-- What a branch tests: that a flag is set, or that it is clear. -/
inductive Condition where
  | zero
  | notZero
  | carry
  | notCarry
  | negative
  | notNegative
  | overflow
  | notOverflow
deriving DecidableEq, Repr

namespace Condition

/-- All conditions. -/
def all : List Condition :=
  [zero, notZero, carry, notCarry, negative, notNegative, overflow, notOverflow]

/-- The name of the branch on the condition. -/
def mnemonic : Condition → String
  | zero => "JZ"
  | notZero => "JNZ"
  | carry => "JC"
  | notCarry => "JNC"
  | negative => "JN"
  | notNegative => "JNN"
  | overflow => "JO"
  | notOverflow => "JNO"

end Condition

/-- Where in the status word an instruction on one flag starts to count. -/
inductive FlagGroup where
  /-- From the lowest bit, the negative flag. -/
  | low
  /-- From the fifth bit, the interrupt flag. -/
  | high
deriving DecidableEq, Repr

namespace FlagGroup

/-- The bit of the status word that is number zero of the group. -/
def base : FlagGroup → Nat
  | low => 0
  | high => 4

/-- The bit of the status word that is number `index` of the group; counting
    goes on from the lowest bit after the highest. -/
def bit (group : FlagGroup) (index : Nat) : Nat := (group.base + index) % 16

end FlagGroup

/-- The operations without operands. -/
inductive SystemOp where
  /-- Does nothing. -/
  | nop
  /-- Stops the machine. -/
  | hlt
  /-- Calls the supervisor. -/
  | swi
  /-- Returns from a call of the supervisor. -/
  | reti
deriving DecidableEq, Repr

namespace SystemOp

/-- All operations. -/
def all : List SystemOp := [nop, hlt, swi, reti]

/-- The name of the operation. -/
def mnemonic : SystemOp → String
  | nop => "NOP"
  | hlt => "HLT"
  | swi => "SWI"
  | reti => "RETI"

end SystemOp

/-- The second operand of an operation on two words. -/
inductive Operand where
  | register (r : Register)
  | immediate (value : Nat)
deriving DecidableEq, Repr

/-- An instruction of the machine. -/
inductive Instruction where
  /-- Loads a number into the register `R0`. -/
  | loadImmediate (value : Nat)
  /-- Loads a register from the memory at `base + offset`. -/
  | load (target base : Register) (offset : Int)
  /-- Stores a register into the memory at `base + offset`. -/
  | store (source base : Register) (offset : Int)
  /-- Operates on a register and an operand; the result goes into the register if
      `write` holds, and otherwise only shows in the flags. -/
  | alu (op : AluOp) (target : Register) (operand : Operand) (write : Bool)
  /-- Shifts a register. -/
  | shift (op : ShiftOp) (target : Register) (count : Nat)
  /-- Goes on `offset` words after the next instruction, if the condition holds. -/
  | branch (condition : Condition) (offset : Int)
  /-- Copies a register, plus a small number, to another. -/
  | move (target source : Register) (addend : Nat)
  /-- Loads a small signed number into a register. -/
  | loadSigned (target : Register) (value : Int)
  /-- Sets or clears one bit of the status word. -/
  | flag (set : Bool) (group : FlagGroup) (index : Nat)
  /-- One of the operations without operands. -/
  | system (op : SystemOp)
  /-- Stops the machine, as the word of sixteen ones does. -/
  | halt
  /-- A word that is no instruction; it does nothing. -/
  | unknown (word : Word)
deriving DecidableEq, Repr

end WordMachine
