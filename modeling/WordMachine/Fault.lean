import WordMachine.Instruction.Basic
import WordMachine.Numeral.Digit

/-!
# Faults

Why a line of source text, or an instruction, has no words. A fault says its
cause; the wording is in `Fault.message` and the functions it calls, and nowhere
else. A `LineFault` is a fault and the line it belongs to.
-/

namespace WordMachine

/-- What would have been right in place of a wrong immediate value. -/
inductive Expected where
  /-- A number from `least` to `most`. -/
  | range (least most : Int)
  | number
  | numberOrLabel
  | address
  | flagIndex
deriving DecidableEq, Repr

/-- The words for what would have been right. -/
def Expected.text : Expected → String
  | range least most =>
    let least := Numeral.integer least
    let most := Numeral.integer most
    s!"{least}..={most}"
  | number => "a number"
  | numberOrLabel => "a number or label"
  | address => "an address in 0..=0xFFFF"
  | flagIndex => "a flag index in 0..=15"

/-- How many operands something takes: at least `least`, and at most `most` if there is a bound. -/
structure Arity where
  least : Nat
  most : Option Nat
deriving DecidableEq, Repr

namespace Arity

/-- Exactly `n` operands. -/
def exactly (n : Nat) : Arity := ⟨n, some n⟩

/-- `n` operands, and optionally one more. -/
def orOneMore (n : Nat) : Arity := ⟨n, some (n + 1)⟩

/-- `n` operands or more. -/
def atLeast (n : Nat) : Arity := ⟨n, none⟩

/-- Whether `n` operands are allowed. -/
def allows (a : Arity) (n : Nat) : Bool :=
  a.least ≤ n && a.most.all (n ≤ ·)

/-- The words for the number of operands. -/
def text (a : Arity) : String :=
  let least := Numeral.natural a.least
  match a.most with
  | none => s!"at least {least}"
  | some most =>
    if most = a.least then least
    else
      let most := Numeral.natural most
      s!"{least} or {most}"

end Arity

/-- Why a line or an instruction has no words. -/
inductive Fault where
  | unknownRegister (token : String)
  | invalidImmediate (value : String) (expected : Expected)
  | unknownLabel (name : String)
  | unknownInstruction (mnemonic : String)
  | branchOutOfRange (offset : Int)
  | flagIndexOutOfRange (index : Int)
  | operandCount (mnemonic : String) (expected : Arity) (found : Nat)
  | unknownDirective (name : String)
  | invalidLabel (name : String)
  | labelNotAlone (name : String)
  | duplicateLabel (name : String) (firstLine : Nat)
  | addressOverflow (address : Nat)
  /-- The operation has no form that only sets the flags. -/
  | flagsOnly (op : AluOp)
deriving DecidableEq, Repr

namespace Fault

/-- The words for an operation that was to set flags only. -/
def flagsOnlyText (op : AluOp) : String := op.mnemonic ++ " without write-back"

/-- The words for a fault. -/
def message : Fault → String
  | unknownRegister token => s!"Unknown register: {token}"
  | invalidImmediate value expected =>
    let expected := expected.text
    s!"Invalid immediate value: {value} (expected {expected})"
  | unknownLabel name => s!"Unknown label: {name}"
  | unknownInstruction mnemonic => s!"Unknown instruction: {mnemonic}"
  | branchOutOfRange offset =>
    let offset := Numeral.integer offset
    s!"Branch target out of range: offset {offset} words (allowed -256..=255)"
  | flagIndexOutOfRange index =>
    let index := Numeral.integer index
    s!"Flag index {index} out of range (0-15)"
  | operandCount mnemonic expected found =>
    let expected := expected.text
    let found := Numeral.natural found
    s!"{mnemonic} expects {expected} operand(s), found {found}"
  | unknownDirective name => s!"Unknown directive: {name}"
  | invalidLabel name => s!"Invalid label name: {name}"
  | labelNotAlone name => s!"Label {name} must be on its own line"
  | duplicateLabel name firstLine =>
    let firstLine := Numeral.natural firstLine
    s!"Duplicate label: {name} (first defined on line {firstLine})"
  | addressOverflow address =>
    let address := Numeral.hex 0 address
    s!"Address 0x{address} is outside the 64K word address space"
  | flagsOnly op =>
    let form := flagsOnlyText op
    s!"{form} has no encoding"

end Fault

/-- A fault and the line of source text, counted from one, that it belongs to. -/
structure LineFault where
  line : Nat
  fault : Fault
deriving DecidableEq, Repr

/-- The words for a fault, behind its line. -/
def LineFault.message (e : LineFault) : String :=
  let line := Numeral.natural e.line
  let text := e.fault.message
  s!"Line {line}: {text}"

end WordMachine
