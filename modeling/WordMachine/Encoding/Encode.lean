import WordMachine.Encoding.Layout
import WordMachine.Fault

/-!
# Encoding

The word of an instruction (`Instruction.encode`). An immediate operand has to
fit its field, and an operation that would only set flags has to have such a
form; else the instruction has no word, and the fault says why.
-/

namespace WordMachine

namespace Field

variable (f : Field)

/-- The word with a number in the field, read without sign. -/
def encodeUnsigned (value : Int) : Except Fault Word :=
  if 0 ≤ value ∧ value ≤ f.maxUnsigned then .ok (f.put (BitVec.ofInt 16 value))
  else .error (.invalidImmediate (Numeral.integer value) (.range 0 f.maxUnsigned))

/-- The word with a number in the field, read with sign. -/
def encodeSigned (value : Int) : Except Fault Word :=
  if f.minSigned ≤ value ∧ value ≤ f.maxSigned then .ok (f.put (BitVec.ofInt 16 value))
  else .error (.invalidImmediate (Numeral.integer value) (.range f.minSigned f.maxSigned))

/-- The word with the number of a register in the field. -/
def encodeRegister (r : Register) : Word := f.put (BitVec.ofNat 16 r.index)

end Field

/-- The fields of the second operand of an operation on two words. -/
def Operand.encode : Operand → Except Fault Word
  | register r => .ok (Layout.Alu.operand.encodeRegister r)
  | immediate value =>
    (Layout.Alu.operand.encodeUnsigned value).map (Layout.Alu.immediate.put 1 ||| ·)

/-- The word of a transfer between a register and memory. -/
def encodeTransfer (direction : Word) (register base : Register) (offset : Int) :
    Except Fault Word :=
  (Layout.Transfer.offset.encodeSigned offset).map fun offset =>
    Layout.Transfer.opcode.word ||| Layout.Transfer.direction.put direction
      ||| Layout.Transfer.register.encodeRegister register
      ||| Layout.Transfer.base.encodeRegister base ||| offset

/-- The word of an instruction, or why it has none. -/
def Instruction.encode : Instruction → Except Fault Word
  | loadImmediate value =>
    (Layout.LoadImmediate.value.encodeUnsigned value).map fun value =>
      Layout.LoadImmediate.opcode.word ||| value
  | load target base offset => encodeTransfer Layout.Transfer.loads target base offset
  | store source base offset => encodeTransfer Layout.Transfer.stores source base offset
  | alu op target operand write =>
    if write = false ∧ op.flagsOnlyMnemonic? = none then .error (.flagsOnly op)
    else operand.encode.map fun operand =>
      Layout.Alu.opcode.word ||| Layout.Alu.operation.put op.code
        ||| Layout.Alu.target.encodeRegister target
        ||| Layout.Alu.write.put (if write then 1 else 0) ||| operand
  | shift op target count =>
    (Layout.Shift.count.encodeUnsigned count).map fun count =>
      Layout.Shift.opcode.word ||| Layout.Shift.target.encodeRegister target
        ||| Layout.Shift.kind.put op.code ||| count
  | branch condition offset =>
    let field := Layout.Branch.offset
    if field.minSigned ≤ offset ∧ offset ≤ field.maxSigned then
      .ok (Layout.Branch.opcode.word ||| Layout.Branch.condition.put condition.code
        ||| field.put (BitVec.ofInt 16 offset))
    else .error (.branchOutOfRange offset)
  | move target source addend =>
    (Layout.Move.addend.encodeUnsigned addend).map fun addend =>
      Layout.Move.opcode.word ||| Layout.Move.target.encodeRegister target
        ||| Layout.Move.source.encodeRegister source ||| addend
  | loadSigned target value =>
    (Layout.LoadSigned.value.encodeSigned value).map fun value =>
      Layout.LoadSigned.opcode.word ||| Layout.LoadSigned.target.encodeRegister target ||| value
  | flag set group index =>
    if (index : Int) ≤ Layout.Flag.index.maxUnsigned then
      .ok (Layout.Flag.opcode.word ||| Layout.Flag.kind.put (group.code set)
        ||| Layout.Flag.index.put (BitVec.ofNat 16 index))
    else .error (.flagIndexOutOfRange index)
  | system op => .ok (Layout.System.opcode.word ||| Layout.System.operation.put op.code)
  | halt => .ok Layout.haltWord
  | unknown word => .ok word

end WordMachine
