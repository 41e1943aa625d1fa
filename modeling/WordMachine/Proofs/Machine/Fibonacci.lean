import WordMachine.Proofs.Assembly.Image
import WordMachine.Proofs.Assembly.Rows
import WordMachine.Proofs.Machine.Code

/-!
# A program for Fibonacci numbers

The program `Fibonacci.source` writes numbers into memory, each the sum of the two before it. What
its loop does is said of any machine that has the loop in memory. One round writes a number and
goes on to the next (`Fibonacci.round`), unless it was the last one. So by induction on the rounds,
all numbers are in memory where the loop ends (`Fibonacci.rounds`), one behind the other and
nothing else, if the loop itself is not where they are written to.
-/

namespace WordMachine

namespace Fibonacci

/-! ## The program -/

/-- The lines of the program, each with what it says. -/
def lines : List (String × Statement) :=
  [("; Fibonacci numbers into 0x0200..", .blank),
    (".org 0x0000", .origin 0),
    ("", .blank),
    ("main:", .label "main"),
    ("    LDI  0x7FFF        ; stack top", .instruction "LDI" ["0x7FFF"]),
    ("    MOV  SP, R0", .instruction "MOV" ["SP", "R0"]),
    ("    LDI  0x0200        ; output address", .instruction "LDI" ["0x0200"]),
    ("    MOV  R3, R0", .instruction "MOV" ["R3", "R0"]),
    ("    LSI  R0, 0         ; F(0)", .instruction "LSI" ["R0", "0"]),
    ("    LSI  R1, 1         ; F(1)", .instruction "LSI" ["R1", "1"]),
    ("    LSI  R2, 10        ; how many", .instruction "LSI" ["R2", "10"]),
    ("", .blank),
    ("fib_loop:", .label "fib_loop"),
    ("    ST   R0, R3, 0", .instruction "ST" ["R0", "R3", "0"]),
    ("    ADD  R3, 1", .instruction "ADD" ["R3", "1"]),
    ("", .blank),
    ("    MOV  R4, R1", .instruction "MOV" ["R4", "R1"]),
    ("    ADD  R1, R0", .instruction "ADD" ["R1", "R0"]),
    ("    MOV  R0, R4", .instruction "MOV" ["R0", "R4"]),
    ("", .blank),
    ("    SUB  R2, 1", .instruction "SUB" ["R2", "1"]),
    ("    JNZ  fib_loop", .instruction "JNZ" ["fib_loop"]),
    ("", .blank),
    ("done:", .label "done"),
    ("    HALT", .instruction "HALT" []),
    ("", .blank),
    (".org 0x0200", .origin 0x0200),
    ("fibonacci_results:", .label "fibonacci_results"),
    ("    .word 0", .data ["0"])]

/-- The text of the program. -/
def source : String := String.join ((lines.map Prod.fst).map (· ++ "\n"))

/-- The lines of the program as the assembler takes them. -/
def sourceLines : List SourceLine :=
  (lines.zipIdx 1).map fun ((text, statement), number) => ⟨number, text, .ok statement⟩

theorem ofLine_of_mem_lines :
    ∀ line ∈ lines, (Statement.ofLine line.1.toList).toOption = some line.2 := by
  decide +kernel

theorem ofSource_source : SourceLine.ofSource source = sourceLines := by
  rw [source, SourceLine.ofSource_join (by decide +kernel), List.zipIdx_map, List.map_map]
  refine List.map_congr_left fun ⟨line, number⟩ hline => ?_
  have hsays := ofLine_of_mem_lines line (List.fst_mem_of_mem_zipIdx hline)
  cases hofLine : Statement.ofLine line.1.toList with
  | error fault => simp [hofLine, Except.toOption] at hsays
  | ok statement =>
    rw [hofLine] at hsays
    obtain rfl : statement = line.2 := Option.some.inj hsays
    simp [hofLine]

/-- The loop, and the stop behind it. -/
def loop : List Instruction :=
  [.store ⟨0, by decide⟩ ⟨3, by decide⟩ 0,
    .alu .add ⟨3, by decide⟩ (.immediate 1) true,
    .move ⟨4, by decide⟩ ⟨1, by decide⟩ 0,
    .alu .add ⟨1, by decide⟩ (.register ⟨0, by decide⟩) true,
    .move ⟨0, by decide⟩ ⟨4, by decide⟩ 0,
    .alu .sub ⟨2, by decide⟩ (.immediate 1) true,
    .branch .notZero (-7),
    .halt]

/-- The words of the lines from the label of the loop to the stop behind it, with their
    addresses. -/
def loopChanges (a : Assembly) : List Change :=
  (a.listing.filter fun row => 13 ≤ row.line ∧ row.line ≤ 25).flatMap Row.changes

section Assembled

variable {a : Assembly}

theorem exists_assemble_source : ∃ a, assemble source = .ok a := by
  refine exists_assemble source ?_
  rw [ofSource_source]
  decide +kernel

theorem success_of_assemble_source (ha : assemble source = .ok a) : a.success = true := by
  rw [Assembly.success, Assembly.faults_eq_filterMap ha, listing_of_assemble ha, ofSource_source]
  decide +kernel

/-- The loop is assembled from the address 7 on. -/
theorem map_loopChanges (ha : assemble source = .ok a) :
    (loopChanges a).map (fun c => (c.address, Instruction.decode c.value)) =
      loop.zipIdx.map fun (i, k) => (7 + BitVec.ofNat 16 k, i) := by
  rw [loopChanges, listing_of_assemble ha, ofSource_source]
  decide +kernel

end Assembled

/-! ## Rounds of the loop -/

/-- The numbers of the sequence that starts with two words. -/
def number (a b : Word) : Nat → Word
  | 0 => a
  | 1 => b
  | i + 2 => number a b (i + 1) + number a b i

/-- What one round makes of a machine that stands at the loop: it writes the number in `R0` and
    makes the next two of it and the one in `R1`. -/
structure Round (m m' : Machine) : Prop where
  leads : m.Leads 7 m'
  pc : m'.cpu.pc = if m.cpu.get ⟨2⟩ - 1 = 0 then 14 else 7
  current : m'.cpu.get ⟨0⟩ = m.cpu.get ⟨1⟩
  next : m'.cpu.get ⟨1⟩ = m.cpu.get ⟨1⟩ + m.cpu.get ⟨0⟩
  left : m'.cpu.get ⟨2⟩ = m.cpu.get ⟨2⟩ - 1
  place : m'.cpu.get ⟨3⟩ = m.cpu.get ⟨3⟩ + 1
  memory : m'.memory = m.memory.write (m.cpu.get ⟨3⟩) (m.cpu.get ⟨0⟩)

variable {m : Machine}

/-- The loop makes a round where it is not written over. -/
theorem round (hcode : m.memory.HasCode 7 loop) (hpc : m.cpu.pc = 7)
    (hbeside : ∀ k < loop.length, 7 + BitVec.ofNat 16 k ≠ m.cpu.get ⟨3⟩) :
    ∃ m', Round m m' := by
  have h₀ : m.At 7 m.cpu.get m.memory := hpc ▸ m.at_self
  have hstore : _ = Instruction.store ⟨0⟩ ⟨3⟩ 0 := hcode 0 _ rfl
  obtain ⟨hgoes₁, h₁⟩ := h₀.store hstore (by decide) (by decide)
  have hplace : m.cpu.get ⟨3⟩ + BitVec.ofInt 16 0 = m.cpu.get ⟨3⟩ := BitVec.add_zero _
  rw [hplace] at h₁
  -- The word is written beside the loop, of which the rest is read from now on.
  have hcode₁ := hcode.write hbeside (m.cpu.get ⟨0⟩)
  have hadvance : _ = Instruction.alu .add ⟨3⟩ (.immediate 1) true := hcode₁ 1 _ rfl
  have hkeep : _ = Instruction.move ⟨4⟩ ⟨1⟩ 0 := hcode₁ 2 _ rfl
  have hadd : _ = Instruction.alu .add ⟨1⟩ (.register ⟨0⟩) true := hcode₁ 3 _ rfl
  have hmove : _ = Instruction.move ⟨0⟩ ⟨4⟩ 0 := hcode₁ 4 _ rfl
  have hcount : _ = Instruction.alu .sub ⟨2⟩ (.immediate 1) true := hcode₁ 5 _ rfl
  have hagain : _ = Instruction.branch .notZero (-7) := hcode₁ 6 _ rfl
  obtain ⟨hgoes₂, h₂, -⟩ := h₁.alu hadvance (by decide) (by decide)
  obtain ⟨hgoes₃, h₃⟩ := h₂.move hkeep (by decide) (by decide)
  obtain ⟨hgoes₄, h₄, -⟩ := h₃.alu hadd (by decide) (by decide)
  obtain ⟨hgoes₅, h₅⟩ := h₄.move hmove (by decide) (by decide)
  obtain ⟨hgoes₆, h₆, hzero⟩ := h₅.alu hcount (by decide) (by decide)
  obtain ⟨hgoes₇, h₇⟩ := h₆.branch hagain
  have hleads := (((((((Machine.Leads.refl m).step hgoes₁).step hgoes₂).step hgoes₃).step
    hgoes₄).step hgoes₅).step hgoes₆).step hgoes₇
  refine ⟨_, hleads, h₇.pc.trans ?_, (h₇.registers ⟨0⟩ (by decide)).trans ?_,
    (h₇.registers ⟨1⟩ (by decide)).trans ?_, (h₇.registers ⟨2⟩ (by decide)).trans ?_,
    (h₇.registers ⟨3⟩ (by decide)).trans ?_, h₇.memory⟩
  · have hzero : _ ↔ m.cpu.get ⟨2⟩ - 1 = 0 := hzero
    by_cases hlast : m.cpu.get ⟨2⟩ - 1 = 0
    · rw [if_pos hlast, if_neg (by simp [Condition.holds, hzero.2 hlast])]
      rfl
    · rw [if_neg hlast, if_pos (by simp [Condition.holds, mt hzero.1 hlast])]
      rfl
  · exact (BitVec.add_zero _).trans (BitVec.add_zero _)
  · rfl
  · rfl
  · rfl

/-- The first numbers of a sequence, one behind the other from an address on. -/
def numbers (a b p : Word) (n : Nat) : List Change :=
  (List.range n).map fun i => ⟨p + BitVec.ofNat 16 i, number a b i⟩

section Numbers

variable {a b p : Word} {i n : Nat} {memory : Memory}

theorem writeChanges_numbers_succ :
    memory.writeChanges (numbers a b p (n + 1)) =
      (memory.writeChanges (numbers a b p n)).write (p + BitVec.ofNat 16 n) (number a b n) := by
  rw [numbers, List.range_succ, List.map_append, Memory.writeChanges_append]
  rfl

/-- No number is written over by a later one, as long as there are addresses left. -/
theorem read_writeChanges_numbers (hi : i < n) (hn : n ≤ 0x10000) :
    (memory.writeChanges (numbers a b p n)).read (p + BitVec.ofNat 16 i) = number a b i := by
  have hnodup : ((numbers a b p n).map Change.address).Nodup := by
    rw [numbers, List.map_map, List.nodup_map_iff_inj_on List.nodup_range]
    intro j hj k hk heq
    have hj := List.mem_range.1 hj
    have hk := List.mem_range.1 hk
    have heq : p + BitVec.ofNat 16 j = p + BitVec.ofNat 16 k := heq
    bv_omega
  exact Memory.read_writeChanges_of_nodup hnodup (List.mem_map_of_mem (List.mem_range.2 hi))

/-- Beside the numbers, the memory is as it was. -/
theorem read_writeChanges_numbers_of_ne {x : Word} (hx : ∀ i < n, p + BitVec.ofNat 16 i ≠ x) :
    (memory.writeChanges (numbers a b p n)).read x = memory.read x :=
  Memory.read_writeChanges_of_forall_ne (by simpa [numbers] using hx)

end Numbers

/-- What some rounds, one behind the other, make of a machine that stands at the loop. -/
structure Rounds (m : Machine) (i : Nat) (m' : Machine) : Prop where
  leads : m.Leads (7 * i) m'
  pc : m'.cpu.pc = if i = (m.cpu.get ⟨2⟩).toNat then 14 else 7
  current : m'.cpu.get ⟨0⟩ = number (m.cpu.get ⟨0⟩) (m.cpu.get ⟨1⟩) i
  next : m'.cpu.get ⟨1⟩ = number (m.cpu.get ⟨0⟩) (m.cpu.get ⟨1⟩) (i + 1)
  left : m'.cpu.get ⟨2⟩ = m.cpu.get ⟨2⟩ - BitVec.ofNat 16 i
  place : m'.cpu.get ⟨3⟩ = m.cpu.get ⟨3⟩ + BitVec.ofNat 16 i
  code : m'.memory.HasCode 7 loop
  memory : m'.memory =
    m.memory.writeChanges (numbers (m.cpu.get ⟨0⟩) (m.cpu.get ⟨1⟩) (m.cpu.get ⟨3⟩) i)

/-- The loop goes on for as many rounds as there are numbers to write. -/
theorem rounds (hcode : m.memory.HasCode 7 loop) (hpc : m.cpu.pc = 7)
    (hn : 1 ≤ (m.cpu.get ⟨2⟩).toNat)
    (hbeside : ∀ i < (m.cpu.get ⟨2⟩).toNat, ∀ k < loop.length,
      7 + BitVec.ofNat 16 k ≠ m.cpu.get ⟨3⟩ + BitVec.ofNat 16 i)
    (i : Nat) (hi : i ≤ (m.cpu.get ⟨2⟩).toNat) : ∃ m', Rounds m i m' := by
  induction i with
  | zero =>
    have hfirst : 0 ≠ (m.cpu.get ⟨2⟩).toNat := by omega
    exact ⟨m, .refl m, hpc.trans (if_neg hfirst).symm, rfl, rfl, (BitVec.sub_zero _).symm,
      (BitVec.add_zero _).symm, hcode, rfl⟩
  | succ i ih =>
    obtain ⟨m', h⟩ := ih (Nat.le_of_succ_le hi)
    have hpc' : m'.cpu.pc = 7 := h.pc.trans (if_neg (Nat.ne_of_lt hi))
    have hbeside' : ∀ k < loop.length, 7 + BitVec.ofNat 16 k ≠ m'.cpu.get ⟨3⟩ := by
      rw [h.place]
      exact hbeside i hi
    obtain ⟨m'', h'⟩ := round h.code hpc' hbeside'
    have hlast : m'.cpu.get ⟨2⟩ - 1 = 0 ↔ i + 1 = (m.cpu.get ⟨2⟩).toNat := by
      rw [h.left]
      bv_omega
    refine ⟨m'', h.leads.trans h'.leads, ?_, h'.current.trans h.next, ?_, ?_, ?_, ?_, ?_⟩
    · simpa only [hlast] using h'.pc
    · rw [h'.next, h.next, h.current]
      rfl
    · rw [h'.left, h.left, BitVec.ofNat_add, ← BitVec.sub_sub]
      rfl
    · rw [h'.place, h.place, BitVec.ofNat_add, BitVec.add_assoc]
      rfl
    · rw [h'.memory]
      exact h.code.write hbeside' _
    · rw [h'.memory, h.memory, h.place, h.current, writeChanges_numbers_succ]

namespace Rounds

variable {m' : Machine} (h : Rounds m (m.cpu.get ⟨2⟩).toNat m')

include h

/-- Behind the last round, the machine stands at the stop. -/
theorem stops : m'.cpu.pc = 14 ∧ m'.step.2 = false := by
  have hend : m'.cpu.pc = 14 := h.pc.trans (if_pos rfl)
  have hhalt : m'.fetch = .halt := by
    rw [Machine.fetch, hend]
    exact h.code 7 _ rfl
  rw [Machine.snd_step, hhalt]
  exact ⟨hend, rfl⟩

/-- Behind the last round, no numbers are left, and the place is the one behind them. -/
theorem counted : m'.cpu.get ⟨2⟩ = 0 ∧ m'.cpu.get ⟨3⟩ = m.cpu.get ⟨3⟩ + m.cpu.get ⟨2⟩ := by
  rw [h.left, h.place, BitVec.ofNat_toNat, BitVec.setWidth_eq]
  exact ⟨BitVec.sub_self _, rfl⟩

end Rounds

/-! ## Runs of the program -/

/-- The program is assembled without a fault, its loop from the address 7 on. A machine that has
    the loop in memory and stands at it writes the numbers of the sequence that starts with `R0`
    and `R1`, as many as `R2` says and from the address in `R3` on, if none of them is written over
    the loop. Then it stops behind the loop: it has taken seven steps for each number and one more,
    and has written nothing else. -/
theorem run_writes_numbers :
    ∃ asm, assemble source = .ok asm ∧ asm.success = true ∧
      (loopChanges asm).map Change.address = [7, 8, 9, 10, 11, 12, 13, 14] ∧
      ∀ (m : Machine) (a b n p : Word),
        (∀ c ∈ loopChanges asm, m.memory.read c.address = c.value) → m.cpu.pc = 7 →
        m.cpu.get ⟨0⟩ = a → m.cpu.get ⟨1⟩ = b → m.cpu.get ⟨2⟩ = n → m.cpu.get ⟨3⟩ = p →
        1 ≤ n.toNat →
        (∀ i < n.toNat, p + BitVec.ofNat 16 i < 7 ∨ 14 < p + BitVec.ofNat 16 i) →
        ∃ m' : Machine, (∀ limit ≥ 7 * n.toNat + 1, m.run limit = (m', ⟨7 * n.toNat + 1, true⟩)) ∧
          m'.cpu.pc = 14 ∧
          (∀ i < n.toNat, m'.memory.read (p + BitVec.ofNat 16 i) = number a b i) ∧
          (∀ x, (∀ i < n.toNat, p + BitVec.ofNat 16 i ≠ x) →
            m'.memory.read x = m.memory.read x) ∧
          m'.cpu.get ⟨2⟩ = 0 ∧ m'.cpu.get ⟨3⟩ = p + n := by
  obtain ⟨asm, hasm⟩ := exists_assemble_source
  have hloop := map_loopChanges hasm
  refine ⟨asm, hasm, success_of_assemble_source hasm, ?_, ?_⟩
  · have haddresses := congrArg (List.map Prod.fst) hloop
    rw [List.map_map] at haddresses
    exact haddresses.trans (by decide)
  · rintro m a b n p hmemory hpc rfl rfl rfl rfl hn hfree
    have hcode := Memory.hasCode_of_changes hloop hmemory
    have hbeside : ∀ i < (m.cpu.get ⟨2⟩).toNat, ∀ k < loop.length,
        7 + BitVec.ofNat 16 k ≠ m.cpu.get ⟨3⟩ + BitVec.ofNat 16 i := by
      intro i hi k hk
      have hplace := hfree i hi
      have hlength : loop.length = 8 := rfl
      bv_omega
    obtain ⟨m', h⟩ := rounds hcode hpc hn hbeside _ (Nat.le_refl _)
    obtain ⟨hend, hstops⟩ := h.stops
    obtain ⟨hleft, hplace⟩ := h.counted
    -- Stopping the machine changes neither its registers nor its memory.
    refine ⟨m'.stopped, fun limit hlimit => h.leads.run hstops hlimit, hend, fun i hi => ?_,
      fun x hx => ?_, hleft, hplace⟩
    · rw [Machine.stopped, h.memory]
      exact read_writeChanges_numbers hi (Nat.le_of_lt (m.cpu.get ⟨2⟩).isLt)
    · rw [Machine.stopped, h.memory]
      exact read_writeChanges_numbers_of_ne hx

/-- Three numbers, of which the last is past the end of the words and is written past the end of
    memory. -/
theorem run_writes_numbers_around :
    ∃ (asm : Assembly) (m m' : Machine), assemble source = .ok asm ∧
      (∀ c ∈ loopChanges asm, m.memory.read c.address = c.value) ∧ m.cpu.pc = 7 ∧
      m.cpu.get ⟨0⟩ = 0xFFFF ∧ m.cpu.get ⟨1⟩ = 2 ∧ m.cpu.get ⟨2⟩ = 3 ∧ m.cpu.get ⟨3⟩ = 0xFFFE ∧
      m.run 100 = (m', ⟨22, true⟩) ∧ m'.memory.read 0xFFFE = 0xFFFF ∧
      m'.memory.read 0xFFFF = 2 ∧ m'.memory.read 0 = 1 ∧ m'.cpu.get ⟨3⟩ = 1 := by
  obtain ⟨asm, hasm, -, haddresses, hrun⟩ := run_writes_numbers
  have hnodup : ((loopChanges asm).map Change.address).Nodup := by
    rw [haddresses]
    decide
  let cpu : Cpu := (((((Cpu.start {}).set ⟨0⟩ 0xFFFF).set ⟨1⟩ 2).set ⟨2⟩ 3).set ⟨3⟩ 0xFFFE).setPc 7
  let m : Machine := ⟨cpu, (Memory.filled 0).writeChanges (loopChanges asm)⟩
  have hmemory : ∀ c ∈ loopChanges asm, m.memory.read c.address = c.value :=
    fun c hc => Memory.read_writeChanges_of_nodup hnodup hc
  have hfree : ∀ i < (3 : Word).toNat,
      (0xFFFE : Word) + BitVec.ofNat 16 i < 7 ∨ (14 : Word) < 0xFFFE + BitVec.ofNat 16 i := by
    decide
  obtain ⟨m', hm', -, hnumbers, -, -, hplace⟩ :=
    hrun m 0xFFFF 2 3 0xFFFE hmemory rfl rfl rfl rfl rfl (by decide) hfree
  exact ⟨asm, m, m', hasm, hmemory, rfl, rfl, rfl, rfl, rfl, hm' 100 (by decide),
    hnumbers 0 (by decide), hnumbers 1 (by decide), hnumbers 2 (by decide), hplace⟩

end Fibonacci

end WordMachine
