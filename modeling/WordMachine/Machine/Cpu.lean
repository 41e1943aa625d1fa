import WordMachine.Machine.Arithmetic
import WordMachine.Machine.Status

/-!
# The processor

The registers of the processor. Beside the sixteen that instructions name there
are the status word, the segment registers, which are kept and never used to
find an address, and the shadow: what a call of the supervisor saves and the
return from it restores.
-/

namespace WordMachine

/-- What a processor is built with. -/
structure Settings where
  /-- What the stack pointer starts with. -/
  stackReset : Word := 0x7FFF
  /-- Where a call of the supervisor goes. -/
  supervisorEntry : Word := 0x0020
deriving DecidableEq, Repr

/-- The segment registers. -/
structure Segments where
  code : Word := 0
  data : Word := 0
  stack : Word := 0
  extra : Word := 0
deriving DecidableEq, Repr

/-- What a call of the supervisor saves. -/
structure Shadow where
  status : Status := .clear
  pc : Word := 0
  code : Word := 0
deriving DecidableEq, Repr

/-- The state of the processor. -/
structure Cpu where
  registers : Vector Word 16
  status : Status
  segments : Segments
  shadow : Shadow
  /-- Whether the last instruction went on to another. -/
  running : Bool
  settings : Settings
deriving DecidableEq

namespace Cpu

/-- The content of a register. -/
def get (cpu : Cpu) (r : Register) : Word := cpu.registers.get r.index

/-- The processor with another content of a register. -/
def set (cpu : Cpu) (r : Register) (w : Word) : Cpu :=
  { cpu with registers := cpu.registers.set r.index.val w r.index_lt }

/-- The program counter. -/
def pc (cpu : Cpu) : Word := cpu.get .pc

/-- The processor with another program counter. -/
def setPc (cpu : Cpu) (w : Word) : Cpu := cpu.set .pc w

/-- The processor as it starts: nothing set but the stack pointer. -/
def start (settings : Settings) : Cpu where
  registers := (Vector.replicate 16 0).set Register.sp.index settings.stackReset
  status := .clear
  segments := {}
  shadow := {}
  running := false
  settings := settings

/-- The processor started anew. -/
def reset (cpu : Cpu) : Cpu := start cpu.settings

/-- The address `base + offset`. -/
def address (cpu : Cpu) (base : Register) (offset : Int) : Word :=
  cpu.get base + BitVec.ofInt 16 offset

/-- The value of the second operand of an operation on two words. -/
def operand (cpu : Cpu) : Operand → Word
  | .register r => cpu.get r
  | .immediate value => BitVec.ofNat 16 value

/-- The processor with the flags of a result. -/
def setFlags (cpu : Cpu) (r : Result) : Cpu :=
  { cpu with
    status := cpu.status.setArithmetic r.value.msb (r.value == 0) r.overflow r.carry }

/-- The processor on entry to the supervisor. -/
def enterSupervisor (cpu : Cpu) : Cpu :=
  let shadow := { status := cpu.status, pc := cpu.pc, code := cpu.segments.code }
  { cpu with shadow := shadow, status := cpu.status.enterSupervisor }.setPc
    cpu.settings.supervisorEntry

/-- The processor on return from the supervisor. -/
def leaveSupervisor (cpu : Cpu) : Cpu :=
  { cpu with
    status := cpu.shadow.status
    segments := { cpu.segments with code := cpu.shadow.code } }.setPc cpu.shadow.pc

end Cpu

/-- Whether the flags meet a condition. -/
def Condition.holds (s : Status) : Condition → Bool
  | zero => s.zero
  | notZero => !s.zero
  | carry => s.carry
  | notCarry => !s.carry
  | negative => s.negative
  | notNegative => !s.negative
  | overflow => s.overflow
  | notOverflow => !s.overflow

end WordMachine
