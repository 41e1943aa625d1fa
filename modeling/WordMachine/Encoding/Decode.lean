import WordMachine.Encoding.Layout

/-!
# Decoding

The instruction that a word says (`Instruction.decode`). Every word says one, at
worst `Instruction.unknown`. Families with longer opcodes are tried first, since
their words also start with the shorter opcode of another family.
-/

namespace WordMachine

/-- The register whose number a field of a word holds. -/
def Field.getRegister (f : Field) (w : Word) : Register :=
  ⟨(f.get w).toNat % 16, Nat.mod_lt _ (Nat.succ_pos 15)⟩

namespace Layout

/-- The instruction of a word in the family of transfers. -/
def Transfer.decode (w : Word) : Instruction :=
  if direction.get w = stores then
    .store (register.getRegister w) (base.getRegister w) (offset.getSigned w)
  else .load (register.getRegister w) (base.getRegister w) (offset.getSigned w)

/-- The instruction of a word in the family of operations on two words. -/
def Alu.decode (w : Word) : Option Instruction := do
  let op ← AluOp.ofCode? (operation.get w)
  let write := write.get w == 1
  if write = false ∧ op.flagsOnlyMnemonic? = none then none
  else
    let operand :=
      if immediate.get w = 1 then .immediate (operand.get w).toNat
      else .register (operand.getRegister w)
    some (.alu op (target.getRegister w) operand write)

/-- The instruction of a word in the family of shifts. -/
def Shift.decode (w : Word) : Option Instruction :=
  (ShiftOp.ofCode? (kind.get w)).map fun op =>
    .shift op (target.getRegister w) (count.get w).toNat

/-- The instruction of a word in the family of branches. -/
def Branch.decode (w : Word) : Option Instruction :=
  (Condition.ofCode? (condition.get w)).map fun condition =>
    .branch condition (offset.getSigned w)

/-- The instruction of a word in the family of moves. -/
def Move.decode (w : Word) : Instruction :=
  .move (target.getRegister w) (source.getRegister w) (addend.get w).toNat

/-- The instruction of a word in the family of loads of a signed number. -/
def LoadSigned.decode (w : Word) : Instruction :=
  .loadSigned (target.getRegister w) (value.getSigned w)

/-- The instruction of a word in the family of operations on one flag. -/
def Flag.decode (w : Word) : Option Instruction :=
  (FlagGroup.ofCode? (kind.get w)).map fun (set, group) =>
    .flag set group (index.get w).toNat

/-- The instruction of a word in the family of operations without operands. -/
def System.decode (w : Word) : Option Instruction :=
  (SystemOp.ofCode? (operation.get w)).map .system

end Layout

/-- The instruction that a word says. -/
def Instruction.decode (w : Word) : Instruction :=
  if w = Layout.haltWord then .halt
  else if Layout.System.opcode.leads w then (Layout.System.decode w).getD (.unknown w)
  else if Layout.Flag.opcode.leads w then (Layout.Flag.decode w).getD (.unknown w)
  else if Layout.LoadSigned.opcode.leads w then Layout.LoadSigned.decode w
  else if Layout.Move.opcode.leads w then Layout.Move.decode w
  else if Layout.Shift.opcode.leads w then (Layout.Shift.decode w).getD (.unknown w)
  else if Layout.Branch.opcode.leads w then (Layout.Branch.decode w).getD (.unknown w)
  else if Layout.Alu.opcode.leads w then (Layout.Alu.decode w).getD (.unknown w)
  else if Layout.Transfer.opcode.leads w then Layout.Transfer.decode w
  else if Layout.LoadImmediate.opcode.leads w then
    .loadImmediate (Layout.LoadImmediate.value.get w).toNat
  else .unknown w

end WordMachine
