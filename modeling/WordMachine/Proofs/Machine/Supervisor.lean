import WordMachine.Proofs.Machine.Trace

/-!
# Calls of the supervisor

A call of the supervisor saves the status, the address of the next instruction and the code
segment in the shadow (`Machine.step_of_swi`). No other instruction touches the shadow, whatever
else it does (`Machine.shadow_execute`), so that it is kept over any number of steps without
another call (`Machine.shadow_after`), and a return from the supervisor then restores what was
saved (`Machine.supervisor_call_returns`).
-/

namespace WordMachine

/-! ## Bits of the status -/

namespace Status

/-- Of a status of which one bit was set or cleared, this bit is what it was made. -/
theorem getLsbD_setBit (s : Status) {bit : Nat} (hbit : bit < 16) (value : Bool) (i : Nat) :
    (s.setBit bit value).bits.getLsbD i = if i = bit then value else s.bits.getLsbD i := by
  have hmask : BitVec.getLsbD ((1 <<< bit : Nat) : Word) i = decide (i = bit) := by
    rw [BitVec.natCast_eq_ofNat, BitVec.getLsbD_ofNat, Nat.one_shiftLeft, Nat.testBit_two_pow]
    by_cases h : bit = i
    · subst h
      simp [hbit]
    · simp [h, Ne.symm h]
  rw [setBit]
  cases value with
  | true =>
    rw [if_pos rfl, BitVec.getLsbD_or, hmask]
    by_cases h : i = bit <;> simp [h]
  | false =>
    rw [if_neg Bool.false_ne_true, BitVec.getLsbD_and, BitVec.getLsbD_not, hmask]
    by_cases h : i = bit
    · simp [h]
    · simpa [h] using BitVec.lt_of_getLsbD

/-- On entry to the supervisor its flag is set and interrupts are off, and all else is as it was. -/
theorem getLsbD_enterSupervisor (s : Status) (i : Nat) :
    s.enterSupervisor.bits.getLsbD i =
      if i = 5 then true else if i = 4 then false else s.bits.getLsbD i := by
  rw [enterSupervisor, getLsbD_setBit _ (by decide), getLsbD_setBit _ (by decide)]
  split
  · next h => simp [h]
  · rfl

end Status

namespace Machine

variable {m : Machine} {i : Instruction}

/-! ## The shadow -/

/-- Only a call of the supervisor changes the shadow. -/
theorem shadow_execute (m : Machine) (h : i ≠ .system .swi) :
    (m.execute i).1.cpu.shadow = m.cpu.shadow := by
  cases i with
  | alu op target operand write =>
    simp only [execute, alu]
    split <;> rfl
  | branch condition offset =>
    rw [execute]
    split <;> rfl
  | system op =>
    cases op with
    | swi => exact absurd rfl h
    | _ => rfl
  | _ => rfl

theorem shadow_step (h : m.fetch ≠ .system .swi) : m.step.1.cpu.shadow = m.cpu.shadow := by
  cases hstops : m.fetch.stops with
  | true => rw [step_of_stops hstops]; rfl
  | false =>
    rw [step_of_not_stops hstops]
    exact shadow_execute m.advance h

/-- The shadow is kept over steps that do not call the supervisor. -/
theorem shadow_after {n : Nat} (h : ∀ k < n, (m.after k).fetch ≠ .system .swi) :
    (m.after n).cpu.shadow = m.cpu.shadow := by
  induction n with
  | zero => rfl
  | succ n ih =>
    rw [after_succ, shadow_step (h n (Nat.lt_succ_self n))]
    exact ih fun k hk => h k (Nat.lt_succ_of_lt hk)

/-! ## Calls and returns -/

theorem step_of_swi (h : m.fetch = .system .swi) :
    m.step = ({ m.advance with cpu := m.advance.cpu.enterSupervisor }, true) :=
  step_of_execute h rfl

theorem step_of_reti (h : m.fetch = .system .reti) :
    m.step = ({ m.advance with cpu := m.advance.cpu.leaveSupervisor }, true) :=
  step_of_execute h rfl

/-- What a call of the supervisor does, and what it saves. -/
structure CallsSupervisor (m m' : Machine) : Prop where
  memory : m'.memory = m.memory
  pc : m'.cpu.pc = m.cpu.settings.supervisorEntry
  registers : ∀ r, r ≠ .pc → m'.cpu.get r = m.cpu.get r
  segments : m'.cpu.segments = m.cpu.segments
  status : ∀ i, m'.cpu.status.bits.getLsbD i =
    if i = 5 then true else if i = 4 then false else m.cpu.status.bits.getLsbD i
  shadow : m'.cpu.shadow =
    { status := m.cpu.status, pc := m.cpu.pc + 1, code := m.cpu.segments.code }

theorem callsSupervisor_of_swi (h : m.fetch = .system .swi) : m.CallsSupervisor m.step.1 := by
  rw [step_of_swi h]
  constructor
  case memory => rfl
  case pc => exact Cpu.pc_setPc _ _
  case registers => exact fun r hr => (Cpu.get_set_of_ne _ _ hr).trans (get_advance hr)
  case segments => rfl
  case status => exact Status.getLsbD_enterSupervisor m.cpu.status
  case shadow =>
    rw [← pc_advance]
    rfl

/-- A return from the supervisor goes by the shadow. -/
theorem restored_of_reti (h : m.fetch = .system .reti) :
    m.step.1.cpu.status = m.cpu.shadow.status ∧ m.step.1.cpu.pc = m.cpu.shadow.pc ∧
      m.step.1.cpu.segments.code = m.cpu.shadow.code := by
  rw [step_of_reti h]
  exact ⟨rfl, Cpu.pc_setPc _ _, rfl⟩

/-- A call of the supervisor goes to its entry and saves the status, the address of the next
    instruction and the code segment. Whatever the supervisor does then, as long as it does not call
    itself, these are kept, and a return that it executes ends with all three as they were. -/
theorem supervisor_call_returns (h : m.fetch = .system .swi) :
    m.step.2 = true ∧ m.CallsSupervisor m.step.1 ∧
    ∀ n, (∀ k < n, (m.step.1.after k).fetch ≠ .system .swi) →
      (m.step.1.after n).cpu.shadow =
        { status := m.cpu.status, pc := m.cpu.pc + 1, code := m.cpu.segments.code } ∧
      ((m.step.1.after n).fetch = .system .reti →
        (m.step.1.after n).step.1.cpu.status = m.cpu.status ∧
        (m.step.1.after n).step.1.cpu.segments.code = m.cpu.segments.code ∧
        (m.step.1.after n).step.1.cpu.pc = m.cpu.pc + 1) := by
  have hcall := callsSupervisor_of_swi h
  refine ⟨by rw [step_of_swi h], hcall, fun n hn => ?_⟩
  have hshadow := (shadow_after hn).trans hcall.shadow
  refine ⟨hshadow, fun hreti => ?_⟩
  obtain ⟨hstatus, hpc, hcode⟩ := restored_of_reti hreti
  rw [hstatus, hpc, hcode, hshadow]
  exact ⟨rfl, rfl, rfl⟩

/-- A call from the last address, of a supervisor that sets the carry flag and returns: the machine
    goes on at the first address, with the flags it had. -/
theorem supervisor_call_returns_wrapped :
    ∃ m : Machine, m.fetch = .system .swi ∧ m.cpu.pc = 0xFFFF ∧
      (∀ k < 1, (m.step.1.after k).fetch ≠ .system .swi) ∧
      (m.step.1.after 1).fetch = .system .reti ∧
      (m.step.1.after 1).cpu.status ≠ m.cpu.status ∧
      (m.step.1.after 1).step.1.cpu.status = m.cpu.status ∧
      (m.step.1.after 1).step.1.cpu.pc = 0 := by
  obtain ⟨m, hm⟩ : ∃ m : Machine, m =
      { cpu := (Cpu.start {}).setPc 0xFFFF
        memory := (((Memory.filled stopWord).write 0xFFFF 0xFFF2).write 0x20 0xFEC3).write
          0x21 0xFFF3 } := ⟨_, rfl⟩
  have hpc : m.cpu.pc = 0xFFFF := by rw [hm]; exact Cpu.pc_setPc _ _
  have hstatus : m.cpu.status = .clear := by rw [hm]; rfl
  have hentry : m.cpu.settings.supervisorEntry = 0x20 := by rw [hm]; rfl
  obtain ⟨hcallWord, hflagWord, hretiWord⟩ : m.memory.read 0xFFFF = 0xFFF2 ∧
      m.memory.read 0x20 = 0xFEC3 ∧ m.memory.read 0x21 = 0xFFF3 := by
    simp [hm, Memory.read_write]
  have hswi : m.fetch = .system .swi := by
    rw [fetch, hpc, hcallWord]
    decide
  have hcall := callsSupervisor_of_swi hswi
  have hflag : m.step.1.fetch = .flag true .low 3 := by
    rw [fetch, hcall.pc, hentry, hcall.memory, hflagWord]
    decide
  have hset := step_of_flag hflag
  have hreti : (m.step.1.after 1).fetch = .system .reti := by
    rw [after_succ, after_zero, hset, fetch]
    change Instruction.decode (m.step.1.memory.read m.step.1.advance.cpu.pc) = _
    rw [pc_advance, hcall.pc, hentry, hcall.memory]
    exact (congrArg Instruction.decode hretiWord).trans (by decide)
  have hno : ∀ k < 1, (m.step.1.after k).fetch ≠ .system .swi := by
    intro k hk
    obtain rfl := Nat.lt_one_iff.1 hk
    rw [after_zero, hflag]
    decide
  have hcarry : (m.step.1.after 1).cpu.status.carry = true := by
    rw [after_succ, after_zero, hset]
    exact Status.getLsbD_setBit _ (by decide) true 3
  obtain ⟨-, -, hreturns⟩ := supervisor_call_returns hswi
  obtain ⟨hrestored, -, hback⟩ := (hreturns 1 hno).2 hreti
  refine ⟨m, hswi, hpc, hno, hreti, fun heq => ?_, hrestored, ?_⟩
  · rw [heq, hstatus] at hcarry
    exact absurd hcarry (by decide)
  · rw [hback, hpc]
    rfl

end Machine

end WordMachine
