import WordMachine.Machine.Basic
import WordMachine.Proofs.Machine.Cpu

/-!
# Steps of the machine

While an instruction executes the program counter stands at the next one, and nothing else has
changed but that the machine runs (`Machine.advance`). A branch goes on from there by its offset
if its condition holds, and does nothing if not (`goesOnAt_of_branch`).
-/

namespace WordMachine.Machine

variable {m : Machine} {condition : Condition} {offset : Int} {r : Register}

/-! ## The machine while an instruction executes -/

@[simp] theorem memory_advance : m.advance.memory = m.memory := rfl

@[simp] theorem status_advance : m.advance.cpu.status = m.cpu.status := rfl

@[simp] theorem segments_advance : m.advance.cpu.segments = m.cpu.segments := rfl

@[simp] theorem shadow_advance : m.advance.cpu.shadow = m.cpu.shadow := rfl

@[simp] theorem settings_advance : m.advance.cpu.settings = m.cpu.settings := rfl

@[simp] theorem pc_advance : m.advance.cpu.pc = m.cpu.pc + 1 :=
  Cpu.pc_setPc m.cpu (m.cpu.pc + 1)

theorem get_advance (h : r ≠ .pc) : m.advance.cpu.get r = m.cpu.get r :=
  Cpu.get_set_of_ne m.cpu (m.cpu.pc + 1) h

/-! ## Steps that go on -/

/-- A step executes the instruction that is fetched, and goes on if the instruction does. -/
theorem step_of_execute {i : Instruction} {m' : Machine} (hfetch : m.fetch = i)
    (h : m.advance.execute i = (m', .next)) : m.step = (m', true) := by
  simp only [step, hfetch, h]

theorem step_of_flag {value : Bool} {group : FlagGroup} {index : Nat}
    (h : m.fetch = .flag value group index) :
    m.step.1 = { m.advance with cpu := { m.advance.cpu with
      status := m.cpu.status.setBit (group.bit index) value } } :=
  congrArg Prod.fst (step_of_execute h rfl)

/-! ## Branches -/

theorem execute_branch_taken (h : condition.holds m.cpu.status = true) :
    m.execute (.branch condition offset)
      = (m.setPc (m.cpu.pc + BitVec.ofInt 16 offset), .next) := by
  rw [execute, if_pos h]

theorem execute_branch_fall (h : condition.holds m.cpu.status = false) :
    m.execute (.branch condition offset) = (m, .next) := by
  rw [execute, if_neg (by rw [h]; decide)]

theorem step_branch_taken (hfetch : m.fetch = .branch condition offset)
    (h : condition.holds m.cpu.status = true) :
    m.step = (m.advance.setPc (m.cpu.pc + 1 + BitVec.ofInt 16 offset), true) := by
  rw [step_of_execute hfetch (execute_branch_taken h), pc_advance]

theorem step_branch_fall (hfetch : m.fetch = .branch condition offset)
    (h : condition.holds m.cpu.status = false) : m.step = (m.advance, true) :=
  step_of_execute hfetch (execute_branch_fall h)

/-- The next step goes on, and changes nothing that a program can read but the program counter. -/
structure GoesOnAt (m : Machine) (pc : Word) : Prop where
  goes_on : m.step.2 = true
  memory : m.step.1.memory = m.memory
  status : m.step.1.cpu.status = m.cpu.status
  segments : m.step.1.cpu.segments = m.cpu.segments
  shadow : m.step.1.cpu.shadow = m.cpu.shadow
  settings : m.step.1.cpu.settings = m.cpu.settings
  registers : ∀ r, r ≠ .pc → m.step.1.cpu.get r = m.cpu.get r
  pc : m.step.1.cpu.pc = pc

/-- A branch goes on by its offset behind the next word if its condition holds, and at the next
    word if not. -/
theorem goesOnAt_of_branch (hfetch : m.fetch = .branch condition offset) :
    m.GoesOnAt (if condition.holds m.cpu.status then m.cpu.pc + 1 + BitVec.ofInt 16 offset
      else m.cpu.pc + 1) := by
  by_cases h : condition.holds m.cpu.status = true
  · have hstep := step_branch_taken hfetch h
    rw [if_pos h]
    constructor
    case registers =>
      rw [hstep]
      exact fun r hr => (Cpu.get_set_of_ne m.advance.cpu _ hr).trans (get_advance hr)
    case pc =>
      rw [hstep]
      exact Cpu.pc_setPc m.advance.cpu _
    all_goals simp [hstep, setPc, set]
  · have hstep := step_branch_fall hfetch (eq_false_of_ne_true h)
    rw [if_neg h]
    constructor
    case registers =>
      rw [hstep]
      exact fun r hr => get_advance hr
    case pc =>
      rw [hstep]
      exact pc_advance
    all_goals simp [hstep]

end WordMachine.Machine
