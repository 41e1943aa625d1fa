import Mathlib.Data.List.Basic
import Mathlib.Data.Set.Insert
import WordMachine.Proofs.Machine.Trace

/-!
# What is not read does not matter

Two machines run in the same way if their processors agree in the registers, the status and what a
return from the supervisor goes by (`Cpu.Agrees`), and their memories hold the same wherever the
first machine reads. The segment registers do not have to be the same, since nothing looks at them,
nor does a word that is not read before another is stored in its place.

Agreement of machines is therefore said with a set of addresses outside of which their memories
are the same (`Machine.AgreesOutside`). A step that reads outside of the set does the same in both,
and what it stores is the same from then on, so that its address leaves the set
(`AgreesOutside.step`). Along a run the set that is left is `Machine.stale`
(`AgreesOutside.after`), and the runs are the same (`steps_agree_of_unread`).
-/

namespace WordMachine

/-! ## Processors -/

namespace Cpu

/-- The processors have the same of all that an instruction can look at. Their segment registers,
    the saved code segment among them, may differ, and so may whether they run and what the stack
    pointer starts with. -/
structure Agrees (c d : Cpu) : Prop where
  registers : c.registers = d.registers
  status : c.status = d.status
  shadowStatus : c.shadow.status = d.shadow.status
  shadowPc : c.shadow.pc = d.shadow.pc
  entry : c.settings.supervisorEntry = d.settings.supervisorEntry

namespace Agrees

variable {c d : Cpu} (h : c.Agrees d)

include h

theorem get (r : Register) : c.get r = d.get r := by
  rw [Cpu.get, Cpu.get, h.registers]

theorem pc : c.pc = d.pc := h.get .pc

theorem address (base : Register) (offset : Int) :
    c.address base offset = d.address base offset := by
  rw [Cpu.address, Cpu.address, h.get]

theorem operand (o : Operand) : c.operand o = d.operand o := by
  cases o with
  | register r => exact h.get r
  | immediate value => rfl

theorem store? (i : Instruction) : c.store? i = d.store? i := by
  cases i with
  | store source base offset =>
    simp only [Cpu.store?, h.address base offset, h.get source]
  | _ => rfl

theorem set (r : Register) (w : Word) : (c.set r w).Agrees (d.set r w) :=
  { h with registers := by simp only [Cpu.set, h.registers] }

theorem setPc (w : Word) : (c.setPc w).Agrees (d.setPc w) := h.set .pc w

theorem setStatus (s : Status) : ({ c with status := s } : Cpu).Agrees { d with status := s } :=
  { h with status := rfl }

theorem setRunning (b : Bool) : ({ c with running := b } : Cpu).Agrees { d with running := b } :=
  { h with }

theorem setFlags (r : Result) : (c.setFlags r).Agrees (d.setFlags r) := by
  rw [Cpu.setFlags, Cpu.setFlags, h.status]
  exact h.setStatus _

theorem alu (op : AluOp) (target : Register) (o : Operand) (write : Bool) :
    (Machine.alu c op target o write).Agrees (Machine.alu d op target o write) := by
  simp only [Machine.alu, h.get target, h.operand o]
  split
  · exact (h.setFlags _).set target _
  · exact h.setFlags _

theorem shift (op : ShiftOp) (target : Register) (count : Nat) :
    (Machine.shift c op target count).Agrees (Machine.shift d op target count) := by
  simp only [Machine.shift, h.get target]
  exact (h.setFlags _).set target _

/-- On a call of the supervisor, the saved code segments may become different ones. -/
theorem enterSupervisor : c.enterSupervisor.Agrees d.enterSupervisor := by
  simp only [Cpu.enterSupervisor, h.status, h.pc, h.entry]
  refine setPc ?_ _
  exact ⟨h.registers, rfl, rfl, rfl, h.entry⟩

theorem leaveSupervisor : c.leaveSupervisor.Agrees d.leaveSupervisor := by
  simp only [Cpu.leaveSupervisor, h.shadowStatus, h.shadowPc]
  refine setPc ?_ _
  exact ⟨h.registers, rfl, h.shadowStatus, h.shadowPc, h.entry⟩

end Agrees

end Cpu

/-! ## Machines -/

namespace Machine

/-- The processors agree, and so do the memories outside of the addresses in `X`. -/
structure AgreesOutside (X : Set Word) (m m' : Machine) : Prop where
  cpu : m.cpu.Agrees m'.cpu
  memory : ∀ x ∉ X, m.memory.read x = m'.memory.read x

/-- The addresses of `X` that `n` steps have not stored to. -/
def stale (X : Set Word) (m : Machine) (n : Nat) : Set Word :=
  {x ∈ X | ∀ c ∈ m.stores n, c.address ≠ x}

variable {X : Set Word} {m m' : Machine}

/-- An instruction that loads the same word, if it does load one, does the same to processors that
    agree. -/
theorem agrees_execute (h : m.cpu.Agrees m'.cpu) (i : Instruction)
    (hload : ∀ x ∈ m.cpu.load? i, m.memory.read x = m'.memory.read x) :
    (m.execute i).1.cpu.Agrees (m'.execute i).1.cpu := by
  cases i with
  | loadImmediate value => exact h.set .r0 _
  | load target base offset =>
    have hword : m.memory.read (m.cpu.address base offset) =
        m'.memory.read (m'.cpu.address base offset) := by
      rw [hload _ rfl, h.address]
    simp only [execute, Machine.set, hword]
    exact h.set target _
  | store source base offset => exact h
  | alu op target operand write => exact h.alu op target operand write
  | shift op target count => exact h.shift op target count
  | branch condition offset =>
    simp only [execute, h.status, h.pc]
    split
    · exact h.setPc _
    · exact h
  | move target source addend =>
    simp only [execute, Machine.set, h.get source]
    exact h.set target _
  | loadSigned target value => exact h.set target _
  | flag set group index =>
    simp only [execute, h.status]
    exact h.setStatus _
  | system op =>
    cases op with
    | nop => exact h
    | hlt => exact h
    | swi => exact h.enterSupervisor
    | reti => exact h.leaveSupervisor
  | halt => exact h
  | unknown word => exact h

theorem AgreesOutside.advance (h : AgreesOutside X m m') :
    AgreesOutside X m.advance m'.advance where
  cpu := by
    simp only [Machine.advance, h.cpu.pc]
    exact (h.cpu.setPc _).setRunning true
  memory := h.memory

/-- A step that reads outside of `X` is the same in both machines, and so are the words at the
    address that it stores to. -/
theorem AgreesOutside.step (h : AgreesOutside X m m') (hreads : ∀ x ∈ m.reads, x ∉ X) :
    m'.step.2 = m.step.2 ∧ m'.store? = m.store? ∧
      AgreesOutside {x ∈ X | ∀ c ∈ m.store?, c.address ≠ x} m.step.1 m'.step.1 := by
  have hfetch : m'.fetch = m.fetch := by
    rw [fetch, fetch, ← h.cpu.pc, h.memory _ (hreads _ List.mem_cons_self)]
  have hstore : m'.store? = m.store? := by
    rw [Machine.store?, Machine.store?, hfetch, h.advance.cpu.store?]
  have hload : ∀ x ∈ m.advance.cpu.load? m.fetch, m.memory.read x = m'.memory.read x := by
    intro x hx
    refine h.memory x (hreads x (List.mem_cons_of_mem _ ?_))
    rwa [Machine.load?, Option.mem_toList]
  refine ⟨by rw [snd_step, snd_step, hfetch], hstore, ?_, fun x hx => ?_⟩
  · cases hstops : m.fetch.stops with
    | true =>
      rw [step_of_stops hstops, step_of_stops (hfetch ▸ hstops), ← h.cpu.pc]
      exact (h.advance.cpu.setPc _).setRunning false
    | false =>
      rw [step_of_not_stops hstops, step_of_not_stops (hfetch ▸ hstops), hfetch]
      exact agrees_execute h.advance.cpu m.fetch hload
  · by_cases hwritten : ∃ c ∈ m.store?, c.address = x
    · obtain ⟨c, hc, rfl⟩ := hwritten
      rw [read_step_of_store? hc, read_step_of_store? (hstore.trans hc)]
    · -- Where nothing is stored, memory is as before the step.
      push Not at hwritten
      have hsame : x ∉ X := fun hX => hx ⟨hX, hwritten⟩
      rw [read_step_of_forall_ne hwritten, read_step_of_forall_ne (hstore ▸ hwritten),
        h.memory x hsame]

/-- As long as no stale word is read, the machines agree outside of the stale addresses. -/
theorem AgreesOutside.after (h : AgreesOutside X m m') {n : Nat}
    (hreads : ∀ k < n, ∀ x ∈ (m.after k).reads, x ∉ m.stale X k) :
    AgreesOutside (m.stale X n) (m.after n) (m'.after n) := by
  induction n with
  | zero =>
    have hall : m.stale X 0 = X := by simp [stale]
    rw [hall]
    exact h
  | succ n ih =>
    have hbefore := ih fun k hk => hreads k (Nat.lt_succ_of_lt hk)
    obtain ⟨-, -, hstep⟩ := hbefore.step (hreads n (Nat.lt_succ_self n))
    have hleft : {x ∈ m.stale X n | ∀ c ∈ (m.after n).store?, c.address ≠ x} =
        m.stale X (n + 1) := by
      ext x
      simp [stale, stores_succ, or_imp, forall_and, and_assoc]
    rwa [after_succ, after_succ, ← hleft]

/-- What is never read never matters. Let the processors of two machines agree, whatever their
    segment registers are, and their memories outside of `X`. If no step of the first reads an
    address in `X` that none before it has stored to, the steps of the second answer the same and
    store the same words at the same addresses in the same order; behind them the processors agree
    again, and so do the memories outside of `X` and wherever a word was stored. -/
theorem steps_agree_of_unread (h : AgreesOutside X m m') (n : Nat)
    (hunread : ∀ k < n, ∀ x ∈ (m.after k).reads, x ∈ X → ∃ c ∈ m.stores k, c.address = x) :
    m'.answers n = m.answers n ∧ m'.stores n = m.stores n ∧
    (m.after n).cpu.Agrees (m'.after n).cpu ∧
    ∀ x, (x ∉ X ∨ ∃ c ∈ m.stores n, c.address = x) →
      (m.after n).memory.read x = (m'.after n).memory.read x := by
  have hreads : ∀ k < n, ∀ x ∈ (m.after k).reads, x ∉ m.stale X k := by
    rintro k hk x hx ⟨hX, hnone⟩
    obtain ⟨c, hc, heq⟩ := hunread k hk x hx hX
    exact hnone c hc heq
  have hstep : ∀ k < n, (m'.after k).step.2 = (m.after k).step.2 ∧
      (m'.after k).store? = (m.after k).store? := by
    intro k hk
    obtain ⟨hanswer, hstore, -⟩ :=
      (h.after fun j hj => hreads j (hj.trans hk)).step (hreads k hk)
    exact ⟨hanswer, hstore⟩
  have hend := h.after hreads
  refine ⟨?_, ?_, hend.cpu, fun x hx => hend.memory x ?_⟩
  · exact List.map_congr_left fun k hk => (hstep k (List.mem_range.1 hk)).1
  · exact List.filterMap_congr fun k hk => (hstep k (List.mem_range.1 hk)).2
  · rintro ⟨hX, hnone⟩
    rcases hx with hout | ⟨c, hc, heq⟩
    · exact hout hX
    · exact hnone c hc heq

/-- A program that stores a word and loads it again, in two machines with different segment
    registers and different words where it is stored. -/
theorem steps_agree_of_unread_stored :
    ∃ m m' : Machine, AgreesOutside {16} m m' ∧
      (∀ k < 4, ∀ x ∈ (m.after k).reads, x ∈ ({16} : Set Word) →
        ∃ c ∈ m.stores k, c.address = x) ∧
      m.cpu.segments ≠ m'.cpu.segments ∧ m.memory.read 16 ≠ m'.memory.read 16 ∧
      m.stores 4 = [⟨16, 16⟩] ∧ m'.stores 4 = m.stores 4 ∧
      m.answers 4 = [true, true, true, false] ∧ m'.answers 4 = m.answers 4 ∧
      (m.after 4).memory.read 16 = (m'.after 4).memory.read 16 := by
  obtain ⟨m, hm⟩ : ∃ m, m = (Machine.start {}).loadImage [0x0010, 0xA000, 0x8200] := ⟨_, rfl⟩
  obtain ⟨m', hm'⟩ : ∃ m', m' = Machine.mk { m.cpu with segments := { code := 1 } }
    (m.memory.write 16 7) := ⟨_, rfl⟩
  have hagrees : AgreesOutside {16} m m' := by
    rw [hm']
    refine ⟨⟨rfl, rfl, rfl, rfl, rfl⟩, fun x hx => ?_⟩
    rw [Memory.read_write, if_neg (by simpa using hx)]
  have hunread : ∀ k < 4, ∀ x ∈ (m.after k).reads, x ∈ ({16} : Set Word) →
      ∃ c ∈ m.stores k, c.address = x := by
    have hstored : ∀ k < 4, 16 ∈ (m.after k).reads → ⟨16, 16⟩ ∈ m.stores k := by
      rw [hm]
      decide +kernel
    intro k hk x hx hX
    obtain rfl := Set.mem_singleton_iff.1 hX
    exact ⟨_, hstored k hk hx, rfl⟩
  have hstored : m.stores 4 = [⟨16, 16⟩] := by
    rw [hm]
    decide +kernel
  have hsegments : m.cpu.segments ≠ m'.cpu.segments := by
    rw [hm', hm]
    decide +kernel
  have hword : m.memory.read 16 ≠ m'.memory.read 16 := by
    rw [hm', Memory.read_write, if_pos rfl, hm]
    decide +kernel
  have hanswered : m.answers 4 = [true, true, true, false] := by
    rw [hm]
    decide +kernel
  obtain ⟨hanswers, hstores, -, hmemory⟩ := steps_agree_of_unread hagrees 4 hunread
  exact ⟨m, m', hagrees, hunread, hsegments, hword, hstored, hstores, hanswered, hanswers,
    hmemory 16 (.inr ⟨⟨16, 16⟩, by simp [hstored], rfl⟩)⟩

end Machine

end WordMachine
