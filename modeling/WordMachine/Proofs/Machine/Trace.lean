import Mathlib.Logic.Function.Iterate
import WordMachine.Proofs.Machine.Step
import WordMachine.Proofs.Memory

/-!
# What steps read and store

A step reads the word at the program counter, and one word more if the instruction there is a load
(`Machine.reads`). It stores a word if the instruction is a store (`Machine.store?`), and changes
memory in no other way (`Machine.memory_step`). Of many steps, one behind the other, there is the
machine that they lead to (`Machine.after`), what each of them answers (`Machine.answers`), and what
they store, in order (`Machine.stores`). A machine that has stopped goes on to take steps, which
stop again.
-/

namespace WordMachine

/-- The instruction stops the machine. -/
def Instruction.stops : Instruction → Bool
  | halt => true
  | system .hlt => true
  | _ => false

namespace Cpu

/-- The address that an instruction loads a word from, if it is a load. -/
def load? (cpu : Cpu) : Instruction → Option Word
  | .load _ base offset => some (cpu.address base offset)
  | _ => none

/-- The word that an instruction stores, at its address, if it is a store. -/
def store? (cpu : Cpu) : Instruction → Option Change
  | .store source base offset => some ⟨cpu.address base offset, cpu.get source⟩
  | _ => none

end Cpu

namespace Machine

/-! ## Instructions -/

section Instructions

variable (m : Machine) (i : Instruction)

theorem flow_execute : (m.execute i).2 = if i.stops then .stop else .next := by
  cases i with
  | branch condition offset =>
    rw [execute]
    split <;> rfl
  | system op => cases op <;> rfl
  | _ => rfl

variable {i} in
theorem execute_of_stops (h : i.stops = true) : m.execute i = (m, .stop) := by
  cases i with
  | halt => rfl
  | system op =>
    cases op with
    | hlt => rfl
    | _ => cases h
  | _ => cases h

/-- An instruction changes memory only by what it stores. -/
theorem memory_execute :
    (m.execute i).1.memory =
      (m.cpu.store? i).elim m.memory fun c => m.memory.write c.address c.value := by
  cases i with
  | branch condition offset =>
    rw [execute]
    split <;> rfl
  | system op => cases op <;> rfl
  | _ => rfl

end Instructions

/-! ## Steps -/

section Steps

variable (m : Machine)

/-- The address that the next step loads a word from, if it executes a load. -/
def load? : Option Word := m.advance.cpu.load? m.fetch

/-- The word that the next step stores, at its address, if it executes a store. -/
def store? : Option Change := m.advance.cpu.store? m.fetch

/-- The addresses that the next step reads: that of the instruction, and that of a word to load. -/
def reads : List Word := m.cpu.pc :: m.load?.toList

variable {m}

theorem step_of_stops (h : m.fetch.stops = true) : m.step = (m.advance.stopAt m.cpu.pc, false) := by
  simp only [step, execute_of_stops m.advance h]

theorem step_of_not_stops (h : m.fetch.stops = false) :
    m.step = ((m.advance.execute m.fetch).1, true) := by
  refine step_of_execute rfl (Prod.ext rfl ?_)
  rw [flow_execute, h]
  rfl

/-- A step goes on unless it executes an instruction that stops the machine. -/
theorem snd_step : m.step.2 = !m.fetch.stops := by
  cases h : m.fetch.stops with
  | true => rw [step_of_stops h]; rfl
  | false => rw [step_of_not_stops h]; rfl

theorem memory_step :
    m.step.1.memory = m.store?.elim m.memory fun c => m.memory.write c.address c.value := by
  have hexecute := memory_execute m.advance m.fetch
  cases h : m.fetch.stops with
  | true =>
    rw [execute_of_stops m.advance h] at hexecute
    rw [step_of_stops h]
    exact hexecute
  | false =>
    rw [step_of_not_stops h]
    exact hexecute

/-- A step leaves the word at every address that it does not store to. -/
theorem read_step_of_forall_ne {x : Word} (h : ∀ c ∈ m.store?, c.address ≠ x) :
    m.step.1.memory.read x = m.memory.read x := by
  rw [memory_step]
  cases hstore : m.store? with
  | none => rfl
  | some c => rw [Option.elim_some, Memory.read_write, if_neg (h c hstore).symm]

theorem read_step_of_store? {c : Change} (h : m.store? = some c) :
    m.step.1.memory.read c.address = c.value := by
  rw [memory_step, h, Option.elim_some, Memory.read_write, if_pos rfl]

end Steps

/-! ## Many steps -/

section Many

variable (m : Machine) (n : Nat)

/-- The machine after `n` steps. -/
def after : Machine := (fun m => m.step.1)^[n] m

/-- What `n` steps answer: for each, whether the machine goes on. -/
def answers : List Bool := (List.range n).map fun k => (m.after k).step.2

/-- What `n` steps store, in order. -/
def stores : List Change := (List.range n).filterMap fun k => (m.after k).store?

@[simp] theorem after_zero : m.after 0 = m := rfl

theorem after_succ : m.after (n + 1) = (m.after n).step.1 :=
  Function.iterate_succ_apply' _ n m

@[simp] theorem stores_zero : m.stores 0 = [] := rfl

theorem stores_succ : m.stores (n + 1) = m.stores n ++ (m.after n).store?.toList := by
  rw [stores, List.range_succ, List.filterMap_append]
  cases h : (m.after n).store? <;> simp [stores, h]

end Many

end Machine

end WordMachine
