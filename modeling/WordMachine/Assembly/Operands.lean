import WordMachine.Assembly.Symbols
import WordMachine.Encoding.Encode

/-!
# Operands

From a mnemonic and the tokens of its operands to an instruction
(`Mnemonic.instruction`). Tokens are read from left to right, and the first that
is not what its place asks for is the fault. A place for a number has a range,
that of the field that the number goes into.
-/

namespace WordMachine

/-- The register that a token names. -/
def readRegister (token : String) : Except Fault Register :=
  match Register.ofName? token with
  | some r => .ok r
  | none => .error (.unknownRegister token)

/-- The number that a token writes. -/
def readNumber (token : String) (expected : Expected) : Except Fault Int :=
  match Numeral.literal? token with
  | some n => .ok n
  | none => .error (.invalidImmediate token expected)

namespace Field

variable (f : Field)

/-- The number that a token writes, if the field can hold it read without sign. -/
def readUnsigned (token : String) : Except Fault Nat := do
  let n ← readNumber token .number
  if 0 ≤ n ∧ n ≤ f.maxUnsigned then .ok n.toNat
  else .error (.invalidImmediate (Numeral.integer n) (.range 0 f.maxUnsigned))

/-- The number that a token writes, if the field can hold it read with sign. -/
def readSigned (token : String) : Except Fault Int := do
  let n ← readNumber token .number
  if f.minSigned ≤ n ∧ n ≤ f.maxSigned then .ok n
  else .error (.invalidImmediate (Numeral.integer n) (.range f.minSigned f.maxSigned))

end Field

/-- The second operand of an operation on two words. What is meant as a register
    but is none is not taken for a number. -/
def readOperand (token : String) : Except Fault Operand :=
  match Register.ofName? token with
  | some r => .ok (.register r)
  | none =>
    if Register.looksNumbered token then .error (.unknownRegister token)
    else (Layout.Alu.operand.readUnsigned token).map .immediate

/-- The offset of a branch: a number, or the way to a label from the word after
    the branch, which stands where the counter is. -/
def readTarget (symbols : SymbolTable) (counter : Nat) (token : String) : Except Fault Int :=
  match Numeral.literal? token with
  | some n => .ok n
  | none => (symbols.address token).map fun target => target.toNat - ((counter : Int) + 1)

/-- The offset of a branch, if a branch can have it. -/
def readBranch (symbols : SymbolTable) (counter : Nat) (token : String) : Except Fault Int := do
  let offset ← readTarget symbols counter token
  if Layout.Branch.offset.minSigned ≤ offset ∧ offset ≤ Layout.Branch.offset.maxSigned then
    .ok offset
  else .error (.branchOutOfRange offset)

/-- The number of a flag. -/
def readFlagIndex (token : String) : Except Fault Nat := do
  let n ← readNumber token .flagIndex
  if 0 ≤ n ∧ n ≤ Layout.Flag.index.maxUnsigned then .ok n.toNat
  else .error (.flagIndexOutOfRange n)

/-- A transfer between a register and memory, its offset read already. -/
def readTransfer (store : Bool) (register base : String) (offset : Except Fault Int) :
    Except Fault Instruction := do
  let register ← readRegister register
  let base ← readRegister base
  let offset ← offset
  .ok (if store then .store register base offset else .load register base offset)

/-- The instruction that a mnemonic and its operands say, at the place where the
    address counter stands. -/
def Mnemonic.instruction (m : Mnemonic) (symbols : SymbolTable) (counter : Nat)
    (operands : List String) : Except Fault Instruction :=
  match m.form, operands with
  | .loadImmediate, [value] =>
    (Layout.LoadImmediate.value.readUnsigned value).map .loadImmediate
  | .transfer store, [register, base] => readTransfer store register base (.ok 0)
  | .transfer store, [register, base, offset] =>
    readTransfer store register base (Layout.Transfer.offset.readSigned offset)
  | .alu op write, [target, operand] => do
    let target ← readRegister target
    let operand ← readOperand operand
    .ok (.alu op target operand write)
  | .shift op, [target] => (readRegister target).map (.shift op · 1)
  | .shift op, [target, count] => do
    let target ← readRegister target
    let count ← Layout.Shift.count.readUnsigned count
    .ok (.shift op target count)
  | .branch condition, [target] => (readBranch symbols counter target).map (.branch condition)
  | .move, [target, source] => do
    let target ← readRegister target
    let source ← readRegister source
    .ok (.move target source 0)
  | .move, [target, source, addend] => do
    let target ← readRegister target
    let source ← readRegister source
    let addend ← Layout.Move.addend.readUnsigned addend
    .ok (.move target source addend)
  | .loadSigned, [target, value] => do
    let target ← readRegister target
    let value ← Layout.LoadSigned.value.readSigned value
    .ok (.loadSigned target value)
  | .flag set group (some index), [] => .ok (.flag set group index)
  | .flag set group none, [index] => (readFlagIndex index).map (.flag set group)
  | .system op, [] => .ok (.system op)
  | .halt, [] => .ok .halt
  | form, operands => .error (.operandCount m.name form.arity operands.length)

end WordMachine
