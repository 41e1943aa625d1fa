import WordMachine.Proofs.Encoding.Duality
import WordMachine.Proofs.Machine.Halting
import WordMachine.Proofs.Machine.Supervisor

/-!
# What a step leaves alone

An instruction has one register at most that it writes (`Instruction.target?`), and a few bits of
the status (`Instruction.statusBits`). What it does to the processor is one of four things
(`Cpu.Effect`): it calls the supervisor or returns from it, or else it changes nothing but these
bits, or nothing but these bits and its register, which is the program counter for a branch that is
taken. All that a step leaves as it is follows from this (`Machine.step_changes`), and the numbers
in the instruction are no larger than what it does with them can bear, since it was read from a
word.
-/

namespace WordMachine

namespace Instruction

/-- The register that the instruction puts a result into. -/
def target? : Instruction → Option Register
  | loadImmediate _ => some .r0
  | load target _ _ => some target
  | alu _ target _ write => if write then some target else none
  | shift _ target _ => some target
  | move target _ _ => some target
  | loadSigned target _ => some target
  | _ => none

/-- The bits of the status that the instruction sets or clears, but for a return from the
    supervisor, which replaces all of them. -/
def statusBits : Instruction → List Nat
  | alu _ _ _ _ => [0, 1, 2, 3]
  | shift _ _ _ => [0, 1, 2, 3]
  | flag _ group index => [group.bit index]
  | system .swi => [4, 5]
  | _ => []

end Instruction

namespace Status

variable {s : Status} {b : Nat}

theorem getLsbD_setBit_of_ne {bit : Nat} (hbit : bit < 16) (hb : b ≠ bit) (value : Bool) :
    (s.setBit bit value).bits.getLsbD b = s.bits.getLsbD b := by
  rw [getLsbD_setBit s hbit, if_neg hb]

theorem getLsbD_setArithmetic_of_notMem (hb : b ∉ [0, 1, 2, 3]) (n z v c : Bool) :
    (s.setArithmetic n z v c).bits.getLsbD b = s.bits.getLsbD b := by
  simp only [List.mem_cons, List.not_mem_nil, or_false, not_or] at hb
  obtain ⟨h0, h1, h2, h3⟩ := hb
  rw [setArithmetic, getLsbD_setBit_of_ne (by decide) h3, getLsbD_setBit_of_ne (by decide) h2,
    getLsbD_setBit_of_ne (by decide) h1, getLsbD_setBit_of_ne (by decide) h0]

end Status

/-! ## What an instruction does to the processor -/

namespace Cpu

variable {cpu : Cpu} {i : Instruction}

/-- The register that an instruction writes, with the program counter for a branch that is taken. -/
def written? (cpu : Cpu) : Instruction → Option Register
  | .branch condition _ => if condition.holds cpu.status then some .pc else none
  | i => i.target?

/-- The status is that of the processor but for the bits that the instruction sets or clears. -/
def HasBits (cpu : Cpu) (i : Instruction) (s : Status) : Prop :=
  ∀ b ∉ i.statusBits, s.bits.getLsbD b = cpu.status.bits.getLsbD b

/-- What an instruction makes of a processor. -/
inductive Effect (cpu : Cpu) (i : Instruction) : Cpu → Prop
  | calls (hi : i = .system .swi) : Effect cpu i cpu.enterSupervisor
  | returns (hi : i = .system .reti) : Effect cpu i cpu.leaveSupervisor
  | keeps (s : Status) (hs : cpu.HasBits i s) (hr : cpu.written? i = none) :
    Effect cpu i { cpu with status := s }
  | writes (s : Status) (hs : cpu.HasBits i s) (r : Register) (w : Word)
    (hr : cpu.written? i = some r) : Effect cpu i ({ cpu with status := s }.set r w)

theorem hasBits_self : cpu.HasBits i cpu.status := fun _ _ => rfl

theorem written?_eq_pc_iff : cpu.written? i = some .pc ↔
    (∃ condition offset, i = .branch condition offset ∧ condition.holds cpu.status = true) ∨
      i.target? = some .pc := by
  cases i with
  | branch condition offset => simp [written?, Instruction.target?]
  | _ => simp [written?]

theorem target?_of_written? {r : Register} (h : cpu.written? i = some r) (hr : r ≠ .pc) :
    i.target? = some r := by
  cases i with
  | branch condition offset =>
    rw [written?] at h
    split at h
    · exact absurd (Option.some.inj h).symm hr
    · cases h
  | _ => exact h

namespace Effect

variable {cpu' : Cpu} (h : cpu.Effect i cpu')

include h

theorem settings : cpu'.settings = cpu.settings := by
  cases h <;> rfl

theorem running : cpu'.running = cpu.running := by
  cases h <;> rfl

/-- Of the segment registers only that of the code changes, and only on a return. -/
theorem segments : ∃ code, cpu'.segments = { cpu.segments with code } ∧
    (i ≠ .system .reti → code = cpu.segments.code) := by
  rcases h with _ | hreturn | _ | _
  · exact ⟨_, rfl, fun _ => rfl⟩
  · exact ⟨_, rfl, fun hi => absurd hreturn hi⟩
  · exact ⟨_, rfl, fun _ => rfl⟩
  · exact ⟨_, rfl, fun _ => rfl⟩

theorem status (hi : i ≠ .system .reti) : cpu.HasBits i cpu'.status := by
  rcases h with rfl | hreturn | ⟨s, hs, -⟩ | ⟨s, hs, -, -, -⟩
  · intro b hb
    have h4 : b ≠ 4 := fun heq => hb (heq ▸ List.mem_cons_self)
    have h5 : b ≠ 5 := fun heq => hb (heq ▸ List.mem_cons_of_mem _ List.mem_cons_self)
    exact (Status.getLsbD_enterSupervisor _ _).trans ((if_neg h5).trans (if_neg h4))
  · exact absurd hreturn hi
  · exact hs
  · exact hs

theorem get {r : Register} (hr : r ≠ .pc) (htarget : i.target? ≠ some r) :
    cpu'.get r = cpu.get r := by
  rcases h with _ | _ | _ | ⟨s, hs, t, w, ht⟩
  · exact get_set_of_ne _ _ hr
  · exact get_set_of_ne _ _ hr
  · rfl
  · refine get_set_of_ne _ _ ?_
    rintro rfl
    exact htarget (target?_of_written? ht hr)

theorem pc (hcall : i ≠ .system .swi) (hreturn : i ≠ .system .reti)
    (hpc : cpu.written? i ≠ some .pc) : cpu'.pc = cpu.pc := by
  rcases h with hi | hi | _ | ⟨s, hs, r, w, hr⟩
  · exact absurd hi hcall
  · exact absurd hi hreturn
  · rfl
  · refine get_set_of_ne _ _ ?_
    rintro rfl
    exact hpc hr

end Effect

end Cpu

namespace Machine

/-- Every instruction has one of the four effects. -/
theorem effect_execute (m : Machine) (i : Instruction) :
    m.cpu.Effect i (m.execute i).1.cpu := by
  -- Flags are changed by operations and shifts, and one of them by an instruction for it; a call
  -- and a return have cases of their own, and for all others the status is the same.
  cases i with
  | loadImmediate value => exact .writes _ Cpu.hasBits_self _ _ rfl
  | load target base offset => exact .writes _ Cpu.hasBits_self _ _ rfl
  | store source base offset => exact .keeps _ Cpu.hasBits_self rfl
  | alu op target operand write =>
    have hbits : m.cpu.HasBits (.alu op target operand write) (m.cpu.setFlags
        (op.apply (m.cpu.get target) (m.cpu.operand operand))).status :=
      fun b hb => Status.getLsbD_setArithmetic_of_notMem hb _ _ _ _
    rcases write with _ | _
    · exact .keeps _ hbits rfl
    · exact .writes _ hbits _ _ rfl
  | shift op target count =>
    exact .writes _ (fun b hb => Status.getLsbD_setArithmetic_of_notMem hb _ _ _ _) _ _ rfl
  | branch condition offset =>
    by_cases h : condition.holds m.cpu.status = true
    · rw [execute_branch_taken h]
      exact .writes _ Cpu.hasBits_self .pc _ (if_pos h)
    · rw [execute_branch_fall (eq_false_of_ne_true h)]
      exact .keeps _ Cpu.hasBits_self (if_neg h)
  | move target source addend => exact .writes _ Cpu.hasBits_self _ _ rfl
  | loadSigned target value => exact .writes _ Cpu.hasBits_self _ _ rfl
  | flag set group index =>
    refine .keeps _ (fun b hb => ?_) rfl
    have hne : b ≠ group.bit index := fun heq => hb (List.mem_singleton.2 heq)
    exact Status.getLsbD_setBit_of_ne (Nat.mod_lt _ (by decide)) hne _
  | system op =>
    rcases op with _ | _ | _ | _
    · exact .keeps _ Cpu.hasBits_self rfl
    · exact .keeps _ Cpu.hasBits_self rfl
    · exact .calls rfl
    · exact .returns rfl
  | halt => exact .keeps _ Cpu.hasBits_self rfl
  | unknown w => exact .keeps _ Cpu.hasBits_self rfl

/-! ## What a step leaves alone -/

variable {m : Machine}

/-- A step stops the machine where it is, or executes the instruction and goes on. -/
theorem step_cases (m : Machine) : m.step = (m.stopped, false) ∨
    m.step.2 = true ∧ m.advance.cpu.Effect m.fetch m.step.1.cpu := by
  by_cases hstops : m.fetch.stops = true
  · exact .inl ((step_of_stops hstops).trans (congrArg (·, false) m.stopAt_advance))
  · rw [step_of_not_stops (eq_false_of_ne_true hstops)]
    exact .inr ⟨rfl, effect_execute m.advance m.fetch⟩

/-- What an instruction finds in a register: in the program counter the next address. -/
def found (m : Machine) (r : Register) : Word := if r = .pc then m.cpu.pc + 1 else m.cpu.get r

theorem get_advance_eq_found (m : Machine) (r : Register) : m.advance.cpu.get r = m.found r := by
  rw [found]
  split
  · next h =>
    subst h
    exact pc_advance
  · next h => exact get_advance h

/-- The instruction at the program counter goes on elsewhere than at the next one: it is a branch
    that is taken, calls the supervisor or returns from it, or puts its result into the program
    counter. -/
def Jumps (m : Machine) : Prop :=
  (∃ condition offset, m.fetch = .branch condition offset ∧
    condition.holds m.cpu.status = true) ∨
  m.fetch = .system .swi ∨ m.fetch = .system .reti ∨ m.fetch.target? = some .pc

/-- What the next step may change, and that it keeps to what there is: no shift is too long for a
    word, and no number of a register or address is too large. -/
structure StepChanges (m : Machine) : Prop where
  count : ∀ op target count, m.fetch = .shift op target count → count < 16
  bit : ∀ value group index, m.fetch = .flag value group index →
    index < 16 ∧ group.bit index < 16
  register : ∀ r : Register, r.index.val < m.cpu.registers.size
  address : ∀ x : Word, x.toNat < m.memory.cells.size
  /-- A store changes memory at its address, where it puts what it finds in its register. -/
  store : ∀ source base offset, m.fetch = .store source base offset → ∀ x,
    m.step.1.memory.read x = if x = m.found base + BitVec.ofInt 16 offset then m.found source
      else m.memory.read x
  memory : (∀ source base offset, m.fetch ≠ .store source base offset) →
    m.step.1.memory = m.memory
  registers : ∀ r, r ≠ .pc → m.fetch.target? ≠ some r → m.step.1.cpu.get r = m.cpu.get r
  status : m.fetch ≠ .system .reti → ∀ b ∉ m.fetch.statusBits,
    m.step.1.cpu.status.bits.getLsbD b = m.cpu.status.bits.getLsbD b
  returned : m.fetch = .system .reti → m.step.1.cpu.status = m.cpu.shadow.status
  shadow : m.fetch ≠ .system .swi → m.step.1.cpu.shadow = m.cpu.shadow
  /-- Of the segment registers that of the code may change, and only on a return. -/
  segments : ∃ code, m.step.1.cpu.segments = { m.cpu.segments with code } ∧
    (m.fetch ≠ .system .reti → code = m.cpu.segments.code)
  settings : m.step.1.cpu.settings = m.cpu.settings
  stopped : m.step.2 = false → m.step.1.cpu.pc = m.cpu.pc
  next : m.step.2 = true → ¬m.Jumps → m.step.1.cpu.pc = m.cpu.pc + 1
  unknown : ∀ w, m.fetch = .unknown w → m.step.1.cpu.pc = m.cpu.pc + 1
  /-- An operation that sets flags only goes on at the next address, even on the program counter. -/
  flagsOnly : ∀ op target operand, m.fetch = .alu op target operand false →
    m.step.1.cpu.pc = m.cpu.pc + 1

/-- Only a store stores a word. -/
theorem store?_eq_none_iff : m.store? = none ↔
    ∀ source base offset, m.fetch ≠ .store source base offset := by
  rw [store?]
  rcases m.fetch with _ | _ | _ | _ | _ | _ | _ | _ | _ | _ | _ | _ <;> simp [Cpu.store?]

theorem store?_of_fetch {source base : Register} {offset : Int}
    (h : m.fetch = .store source base offset) :
    m.store? = some ⟨m.found base + BitVec.ofInt 16 offset, m.found source⟩ := by
  rw [store?, h, Cpu.store?, Cpu.address, get_advance_eq_found, get_advance_eq_found]

theorem pc_step_of_not_jumps (hnext : m.step.2 = true) (hjumps : ¬m.Jumps) :
    m.step.1.cpu.pc = m.cpu.pc + 1 := by
  simp only [Jumps, not_or] at hjumps
  obtain ⟨hbranch, hcall, hreturn, htarget⟩ := hjumps
  rcases m.step_cases with hstop | ⟨-, heffect⟩
  · rw [hstop] at hnext
    cases hnext
  · rw [heffect.pc hcall hreturn ?_, pc_advance]
    rw [Ne, Cpu.written?_eq_pc_iff]
    exact not_or.2 ⟨hbranch, htarget⟩

theorem get_step {r : Register} (hr : r ≠ .pc) (htarget : m.fetch.target? ≠ some r) :
    m.step.1.cpu.get r = m.cpu.get r := by
  rcases m.step_cases with hstop | ⟨-, heffect⟩
  · rw [hstop]
    rfl
  · rw [heffect.get hr htarget, get_advance hr]

theorem hasBits_step (hreturn : m.fetch ≠ .system .reti) :
    m.cpu.HasBits m.fetch m.step.1.cpu.status := by
  rcases m.step_cases with hstop | ⟨-, heffect⟩
  · rw [hstop]
    exact Cpu.hasBits_self
  · exact heffect.status hreturn

theorem segments_step (m : Machine) :
    ∃ code, m.step.1.cpu.segments = { m.cpu.segments with code } ∧
      (m.fetch ≠ .system .reti → code = m.cpu.segments.code) := by
  rcases m.step_cases with hstop | ⟨-, heffect⟩
  · rw [hstop]
    exact ⟨_, rfl, fun _ => rfl⟩
  · exact heffect.segments

theorem settings_step (m : Machine) : m.step.1.cpu.settings = m.cpu.settings := by
  rcases m.step_cases with hstop | ⟨-, heffect⟩
  · rw [hstop]
    rfl
  · exact heffect.settings

/-- A step changes what its instruction names, and leaves all else as it was. -/
theorem step_changes (m : Machine) : m.StepChanges := by
  -- An instruction that was read from a word can be put into one again, so its numbers fit there.
  have hencodable : m.fetch.Encodable := (exists_encode_iff _).1 ⟨_, encode_decode _⟩
  constructor
  case count =>
    intro op target count h
    rw [h] at hencodable
    exact Nat.lt_succ_of_le hencodable
  case bit =>
    intro value group index h
    rw [h] at hencodable
    exact ⟨Nat.lt_succ_of_le hencodable, Nat.mod_lt _ (by decide)⟩
  case register => exact fun r => r.index_lt
  case address => exact fun x => x.isLt
  case store =>
    intro source base offset h x
    rw [memory_step, store?_of_fetch h, Option.elim_some, Memory.read_write]
  case memory =>
    intro h
    rw [memory_step, store?_eq_none_iff.2 h, Option.elim_none]
  case registers => exact fun r => get_step
  case status => exact hasBits_step
  case returned => exact fun h => (restored_of_reti h).1
  case shadow => exact shadow_step
  case segments => exact m.segments_step
  case settings => exact m.settings_step
  case stopped =>
    intro hstops
    rw [step_of_snd_eq_false hstops]
    rfl
  case next => exact pc_step_of_not_jumps
  case unknown =>
    intro w h
    refine pc_step_of_not_jumps (by rw [snd_step, h]; rfl) ?_
    simp [Jumps, h, Instruction.target?]
  case flagsOnly =>
    intro op target operand h
    refine pc_step_of_not_jumps (by rw [snd_step, h]; rfl) ?_
    simp [Jumps, h, Instruction.target?]

end Machine

end WordMachine
