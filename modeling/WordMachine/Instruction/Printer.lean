import WordMachine.Encoding.Decode
import WordMachine.Instruction.Mnemonic

/-!
# The text of an instruction

How an instruction is written (`Instruction.text`), in the language that the
assembler reads: what a word says, written this way, assembles to that word
again. A word that is no instruction is written as the datum it is.
-/

namespace WordMachine

/-- The second operand of an operation on two words, as written. -/
def Operand.text : Operand → String
  | register r => r.name
  | immediate value => Numeral.natural value

/-- An instruction as written. -/
def Instruction.text : Instruction → String
  | loadImmediate value => "LDI " ++ Numeral.hexLiteral value
  | load target base offset =>
    let offset := Numeral.integer offset
    s!"LD {target.name}, {base.name}, {offset}"
  | store source base offset =>
    let offset := Numeral.integer offset
    s!"ST {source.name}, {base.name}, {offset}"
  | alu op target operand write =>
    let name := if write then op.mnemonic else op.flagsOnlyMnemonic?.getD op.mnemonic
    s!"{name} {target.name}, {operand.text}"
  | shift op target count =>
    let count := Numeral.natural count
    s!"{op.mnemonic} {target.name}, {count}"
  | branch condition offset =>
    let offset := Numeral.integer offset
    s!"{condition.mnemonic} {offset}"
  | move target source addend =>
    if addend = 0 then s!"MOV {target.name}, {source.name}"
    else
      let addend := Numeral.natural addend
      s!"MOV {target.name}, {source.name}, {addend}"
  | loadSigned target value =>
    let value := Numeral.integer value
    s!"LSI {target.name}, {value}"
  | flag set group index =>
    match Mnemonic.flagAlias? set group index with
    | some name => name
    | none => Mnemonic.flagName set group ++ " " ++ Numeral.natural index
  | system op => op.mnemonic
  | halt => "HALT"
  | unknown word => ".word " ++ Numeral.hexLiteral word.toNat

/-- The text of what a word says. -/
def disassemble (w : Word) : String := (Instruction.decode w).text

end WordMachine
