import WordMachine.Encoding.Decode
import WordMachine.Machine.Cpu
import WordMachine.Memory

/-!
# The machine

A processor and its memory. The machine goes from instruction to instruction:
`Machine.execute` is what one instruction does, `Machine.step` fetches the word
at the program counter and executes what it says, and `Machine.run` takes steps
until one stops the machine or a number of them is reached.

The program counter stands at the next instruction while one executes, so that
an instruction which reads it finds that address, and one which writes it is a
jump. When an instruction stops the machine, the program counter goes back to
it, and every further step stops there again.
-/

namespace WordMachine

/-- A processor and its memory. -/
structure Machine where
  cpu : Cpu
  memory : Memory

/-- Whether the machine goes on after an instruction. -/
inductive Flow where
  | next
  | stop
deriving DecidableEq, Repr

/-- How a run ended. -/
structure Outcome where
  /-- The number of instructions executed. -/
  steps : Nat
  /-- Whether the last of them stopped the machine. -/
  halted : Bool
deriving DecidableEq, Repr

namespace Machine

/-- The word in memory that stops the machine. A new machine has it everywhere, so
    that a program that leaves its own words comes to a stop. -/
def stopWord : Word := 0xFFFF

/-- A new machine. -/
def start (settings : Settings) : Machine := ⟨Cpu.start settings, .filled stopWord⟩

/-- The machine with its processor started anew and its memory as it is. -/
def reset (m : Machine) : Machine := { m with cpu := m.cpu.reset }

/-- The machine with another content of a register. -/
def set (m : Machine) (r : Register) (w : Word) : Machine := { m with cpu := m.cpu.set r w }

/-- The machine with another program counter. -/
def setPc (m : Machine) (w : Word) : Machine := m.set .pc w

/-- An operation on two words, in the processor. -/
def alu (cpu : Cpu) (op : AluOp) (target : Register) (operand : Operand) (write : Bool) : Cpu :=
  let result := op.apply (cpu.get target) (cpu.operand operand)
  let cpu := cpu.setFlags result
  if write then cpu.set target result.value else cpu

/-- A shift, in the processor. -/
def shift (cpu : Cpu) (op : ShiftOp) (target : Register) (count : Nat) : Cpu :=
  let result := op.apply (cpu.get target) count
  (cpu.setFlags result).set target result.value

/-- What an instruction does. -/
def execute (m : Machine) : Instruction → Machine × Flow
  | .loadImmediate value => (m.set .r0 (BitVec.ofNat 16 value), .next)
  | .load target base offset =>
    (m.set target (m.memory.read (m.cpu.address base offset)), .next)
  | .store source base offset =>
    let address := m.cpu.address base offset
    let word := m.cpu.get source
    ({ m with memory := m.memory.write address word }, .next)
  | .alu op target operand write =>
    ({ m with cpu := alu m.cpu op target operand write }, .next)
  | .shift op target count => ({ m with cpu := shift m.cpu op target count }, .next)
  | .branch condition offset =>
    if condition.holds m.cpu.status then (m.setPc (m.cpu.pc + BitVec.ofInt 16 offset), .next)
    else (m, .next)
  | .move target source addend =>
    (m.set target (m.cpu.get source + BitVec.ofNat 16 addend), .next)
  | .loadSigned target value => (m.set target (BitVec.ofInt 16 value), .next)
  | .flag set group index =>
    let status := m.cpu.status.setBit (group.bit index) set
    ({ m with cpu := { m.cpu with status := status } }, .next)
  | .system .nop => (m, .next)
  | .system .hlt => (m, .stop)
  | .system .swi => ({ m with cpu := m.cpu.enterSupervisor }, .next)
  | .system .reti => ({ m with cpu := m.cpu.leaveSupervisor }, .next)
  | .halt => (m, .stop)
  | .unknown _ => (m, .next)

/-- The instruction that the machine executes next. -/
def fetch (m : Machine) : Instruction := .decode (m.memory.read m.cpu.pc)

/-- The machine while an instruction executes: the program counter stands at the
    next one. -/
def advance (m : Machine) : Machine :=
  let cpu := m.cpu.setPc (m.cpu.pc + 1)
  { m with cpu := { cpu with running := true } }

/-- The machine stopped at an instruction. -/
def stopAt (m : Machine) (pc : Word) : Machine :=
  let cpu := m.cpu.setPc pc
  { m with cpu := { cpu with running := false } }

/-- The machine after one instruction, and whether it goes on. -/
def step (m : Machine) : Machine × Bool :=
  let pc := m.cpu.pc
  let instruction := m.fetch
  match m.advance.execute instruction with
  | (m, .next) => (m, true)
  | (m, .stop) => (m.stopAt pc, false)

/-- Takes at most `limit` steps more, when `taken` are taken already. -/
def runFrom (taken : Nat) : Nat → Machine → Machine × Outcome
  | 0, m => (m, ⟨taken, false⟩)
  | limit + 1, m =>
    match m.step with
    | (m, true) => runFrom (taken + 1) limit m
    | (m, false) => (m, ⟨taken + 1, true⟩)

/-- Takes steps until one stops the machine, but at most `limit`. -/
def run (limit : Nat) (m : Machine) : Machine × Outcome := m.runFrom 0 limit

/-- The machine with words written from an address on, and how many of them there
    was room for. -/
def loadWords (m : Machine) (a : Word) (ws : List Word) : Machine × Nat :=
  let (memory, count) := m.memory.load a ws
  ({ m with memory := memory }, count)

/-- The machine with words written from the first address on. Words for which
    there is no room are left out. -/
def loadImage (m : Machine) (ws : List Word) : Machine :=
  { m with memory := (m.memory.load 0 (ws.take 0x10000)).1 }

/-- The machine with words written at their addresses, in order. -/
def loadChanges (m : Machine) (changes : List Change) : Machine :=
  { m with
    memory := changes.foldl (fun memory c => (memory.load c.address [c.value]).1) m.memory }

end Machine

end WordMachine
