import Mathlib.Logic.Function.Basic
import WordMachine.Proofs.Machine.Arithmetic

/-!
# Code in memory

A program is run in the mind by keeping at hand what is in the registers and in memory
(`Machine.At`). Where the program counter stands at code (`Memory.HasCode`), that is known of the
machine behind the next step if it is known before it, with a rule for each kind of instruction:
an operation or a copy puts a word into one register (`Machine.At.alu`, `Machine.At.move`), a store
puts one into memory (`Machine.At.store`), and a branch moves the program counter
(`Machine.At.branch`). Steps that go on lead from machine to machine (`Machine.Leads`), and a run
takes them all, up to where the machine stops (`Machine.Leads.run`).
-/

namespace WordMachine

namespace Memory

variable {memory : Memory} {start x : Word} {code : List Instruction}

/-- The words from an address on say instructions, one behind the other. -/
def HasCode (memory : Memory) (start : Word) (code : List Instruction) : Prop :=
  ∀ (k : Nat) (i : Instruction), code[k]? = some i →
    Instruction.decode (memory.read (start + BitVec.ofNat 16 k)) = i

/-- Code does not change with a word beside it. -/
theorem HasCode.write (h : memory.HasCode start code)
    (hx : ∀ k < code.length, start + BitVec.ofNat 16 k ≠ x) (w : Word) :
    (memory.write x w).HasCode start code := by
  intro k i hk
  rw [read_write, if_neg (hx k (List.getElem?_eq_some_iff.1 hk).1)]
  exact h k i hk

/-- A memory has code if it shows changes that say the code. -/
theorem hasCode_of_changes {changes : List Change}
    (hsay : changes.map (fun c => (c.address, Instruction.decode c.value)) =
      code.zipIdx.map fun (i, k) => (start + BitVec.ofNat 16 k, i))
    (hread : ∀ c ∈ changes, memory.read c.address = c.value) : memory.HasCode start code := by
  intro k i hk
  have hchange := congrArg (·[k]?) hsay
  simp only [List.getElem?_map, List.getElem?_zipIdx, hk, Option.map_some,
    Option.map_eq_some_iff, Prod.mk.injEq] at hchange
  obtain ⟨c, hc, haddress, hvalue⟩ := hchange
  rw [Nat.zero_add] at haddress
  rw [← haddress, hread c (List.mem_of_getElem? hc), hvalue]

end Memory

/-- The word that an operand is, with these words in the registers. -/
def Operand.value (ρ : Register → Word) : Operand → Word
  | register r => ρ r
  | immediate value => BitVec.ofNat 16 value

namespace Machine

/-! ## Steps that go on -/

/-- So many steps, of which none stops the machine, lead to another one. -/
def Leads (m : Machine) (n : Nat) (m' : Machine) : Prop :=
  (∀ k < n, (m.after k).step.2 = true) ∧ m.after n = m'

namespace Leads

variable {m m' m'' : Machine} {j k n : Nat}

theorem refl (m : Machine) : m.Leads 0 m := ⟨nofun, m.after_zero⟩

theorem step (h : m.Leads n m') (hgoes : m'.step.2 = true) : m.Leads (n + 1) m'.step.1 := by
  obtain ⟨hbefore, rfl⟩ := h
  exact ⟨Nat.forall_lt_succ_right.2 ⟨hbefore, hgoes⟩, m.after_succ n⟩

theorem trans (h : m.Leads j m') (h' : m'.Leads k m'') : m.Leads (j + k) m'' := by
  induction k generalizing m'' with
  | zero =>
    obtain ⟨-, rfl⟩ := h'
    exact h
  | succ k ih =>
    obtain ⟨hgoes, rfl⟩ := h'
    obtain ⟨hbefore, hlast⟩ := Nat.forall_lt_succ_right.1 hgoes
    rw [after_succ]
    exact (ih ⟨hbefore, rfl⟩).step hlast

/-- A run that gets to where the machine stops leaves the machine there. -/
theorem run (h : m.Leads n m') (hstops : m'.step.2 = false) {limit : Nat} (hlimit : n < limit) :
    m.run limit = (m'.stopped, ⟨n + 1, true⟩) := by
  obtain ⟨hbefore, rfl⟩ := h
  rw [run_of_stopsAfter ⟨hstops, hbefore⟩ hlimit, after_succ_of_stopsAfter ⟨hstops, hbefore⟩]

end Leads

/-! ## What one step does -/

/-- The program counter stands at an address, and there are these words in the other registers and
    in memory. -/
structure At (m : Machine) (pc : Word) (ρ : Register → Word) (memory : Memory) : Prop where
  pc : m.cpu.pc = pc
  registers : ∀ r, r ≠ .pc → m.cpu.get r = ρ r
  memory : m.memory = memory

variable {m : Machine} {pc : Word} {ρ : Register → Word} {memory : Memory}

theorem at_self (m : Machine) : m.At m.cpu.pc m.cpu.get m.memory := ⟨rfl, fun _ _ => rfl, rfl⟩

namespace At

variable (h : m.At pc ρ memory)

include h

theorem fetch : m.fetch = .decode (memory.read pc) := by
  rw [Machine.fetch, h.pc, h.memory]

/-- The registers hold the same while the instruction executes. -/
theorem get_advance {r : Register} (hr : r ≠ .pc) : m.advance.cpu.get r = ρ r :=
  (Machine.get_advance hr).trans (h.registers r hr)

/-- An operation puts its result into the target, and tells by a flag whether it is zero. -/
theorem alu {op : AluOp} {target : Register} {operand : Operand}
    (hcode : .decode (memory.read pc) = Instruction.alu op target operand true)
    (htarget : target ≠ .pc) (hoperand : operand ≠ .register .pc) :
    m.step.2 = true ∧
    m.step.1.At (pc + 1) (Function.update ρ target (op.apply (ρ target) (operand.value ρ)).value)
      memory ∧
    (m.step.1.cpu.status.zero = true ↔ (op.apply (ρ target) (operand.value ρ)).value = 0) := by
  have hfetch := h.fetch.trans hcode
  have hvalue : m.advance.cpu.operand operand = operand.value ρ := by
    cases operand with
    | register r => exact h.get_advance fun hr => hoperand (congrArg Operand.register hr)
    | immediate value => rfl
  have hcomputes := m.advance.computes_alu op target operand true
  rw [h.get_advance htarget, hvalue] at hcomputes
  rw [step_of_not_stops (by rw [hfetch]; rfl), hfetch]
  refine ⟨rfl, ⟨?_, fun r hr => ?_, hcomputes.memory.trans h.memory⟩, hcomputes.status.zero⟩
  · rw [← h.pc, ← pc_advance]
    exact hcomputes.registers .pc htarget.symm
  · by_cases hsame : r = target
    · subst hsame
      rw [Function.update_self]
      exact hcomputes.written
    · rw [Function.update_of_ne hsame, ← h.get_advance hr]
      exact hcomputes.registers r hsame

/-- A copy puts what is in a register, and a number more, into another one. -/
theorem move {target source : Register} {addend : Nat}
    (hcode : .decode (memory.read pc) = Instruction.move target source addend)
    (htarget : target ≠ .pc) (hsource : source ≠ .pc) :
    m.step.2 = true ∧
    m.step.1.At (pc + 1) (Function.update ρ target (ρ source + BitVec.ofNat 16 addend)) memory := by
  have hfetch := h.fetch.trans hcode
  rw [step_of_not_stops (by rw [hfetch]; rfl), hfetch]
  refine ⟨rfl, ?_, fun r hr => ?_, h.memory⟩
  · rw [← h.pc, ← pc_advance]
    exact Cpu.get_set_of_ne _ _ htarget.symm
  · by_cases hsame : r = target
    · subst hsame
      rw [Function.update_self, ← h.get_advance hsource]
      exact Cpu.get_set_self _ _ _
    · rw [Function.update_of_ne hsame, ← h.get_advance hr]
      exact Cpu.get_set_of_ne _ _ hsame

/-- A store puts what is in a register into memory. -/
theorem store {source base : Register} {offset : Int}
    (hcode : .decode (memory.read pc) = Instruction.store source base offset)
    (hsource : source ≠ .pc) (hbase : base ≠ .pc) :
    m.step.2 = true ∧
    m.step.1.At (pc + 1) ρ (memory.write (ρ base + BitVec.ofInt 16 offset) (ρ source)) := by
  have hfetch := h.fetch.trans hcode
  rw [step_of_not_stops (by rw [hfetch]; rfl), hfetch]
  refine ⟨rfl, ?_, fun r hr => h.get_advance hr, ?_⟩
  · rw [← h.pc]
    exact pc_advance
  · rw [← h.get_advance hsource, ← h.get_advance hbase, ← h.memory]
    rfl

/-- A branch goes by the flags. -/
theorem branch {condition : Condition} {offset : Int}
    (hcode : .decode (memory.read pc) = Instruction.branch condition offset) :
    m.step.2 = true ∧
    m.step.1.At (if condition.holds m.cpu.status then pc + 1 + BitVec.ofInt 16 offset else pc + 1)
      ρ memory := by
  have hbranch := goesOnAt_of_branch (h.fetch.trans hcode)
  rw [h.pc] at hbranch
  exact ⟨hbranch.goes_on, hbranch.pc,
    fun r hr => (hbranch.registers r hr).trans (h.registers r hr), hbranch.memory.trans h.memory⟩

end At

end Machine

end WordMachine
