import WordMachine.Proofs.Assembly.Instructions
import WordMachine.Proofs.Machine.Step

/-!
# Branches to labels

A branch to a label, wherever the label is declared, has the way to it from the next word as its
offset. If no branch can go so far, that is the fault of its line; else the machine that
executes its word goes on at the label, if the condition holds (`assemble_branch_lands`). The
way is found in unbounded numbers and taken in words, where it leads to the same address
(`add_ofInt_distance`).
-/

namespace WordMachine

variable {symbols : SymbolTable} {counter : Nat}

/-- The way to a label, from the word behind an address. -/
def distance (counter : Nat) (target : Word) : Int := target.toNat - ((counter : Int) + 1)

/-- The way to a label, taken from the word behind the address, ends at the label; a branch at the
    last address goes from the first one. -/
theorem add_ofInt_distance (counter : Nat) (target : Word) :
    BitVec.ofNat 16 counter + 1 + BitVec.ofInt 16 (distance counter target) = target := by
  -- Taking an integer as a word goes with addition, so that the sum is found in integers.
  have hnext : BitVec.ofNat 16 counter + 1 = BitVec.ofInt 16 ((counter : Int) + 1) := by
    rw [BitVec.ofInt_add, BitVec.ofInt_natCast]
    rfl
  have hway : (counter : Int) + 1 + distance counter target = target.toNat := by
    rw [distance]
    omega
  rw [hnext, ← BitVec.ofInt_add, hway, BitVec.ofInt_natCast, BitVec.ofNat_toNat, BitVec.setWidth_eq]

/-- What is read from a label that a branch goes to: the way to it, if a branch can have it. -/
theorem readBranch_of_label (h : symbols.Named) {label : String} {s : Symbol}
    (hs : symbols.lookup? label = some s) :
    readBranch symbols counter label =
      if -256 ≤ distance counter s.address ∧ distance counter s.address ≤ 255 then
        .ok (distance counter s.address)
      else .error (.branchOutOfRange (distance counter s.address)) := by
  have htarget : readTarget symbols counter label = .ok (distance counter s.address) :=
    (readTarget_eq_ok_iff h).2 (.inr ⟨s, hs, rfl⟩)
  rw [readBranch, htarget]
  rfl

/-- What is no number and no label is no target. -/
theorem readBranch_of_unbound {label : String} (hnumber : Numeral.literal? label = none)
    (hs : symbols.lookup? label = none) :
    readBranch symbols counter label = .error (.unknownLabel label) := by
  rw [readBranch, readTarget, hnumber, SymbolTable.address, hs]
  rfl

theorem Mnemonic.branch_mem_table (condition : Condition) :
    ⟨condition.mnemonic, .branch condition⟩ ∈ Mnemonic.table := by
  cases condition <;> decide

/-! ## The line of a branch -/

section Line

variable {scope : Scope} {line : SourceLine} {mnemonic label : String} {condition : Condition}
  {s : Symbol}

/-- A branch whose target cannot be read has that as its fault. -/
theorem PlacedLine.late_of_readBranch
    (hstatement : line.statement = .ok (.instruction mnemonic [label]))
    (hm : Mnemonic.find? mnemonic = some ⟨condition.mnemonic, .branch condition⟩)
    (hcounter : counter ≤ 0xFFFF) {fault : Fault}
    (hread : readBranch scope.symbols counter label = .error fault) :
    late scope ⟨counter, line⟩ = some fault := by
  have hinstruction : Mnemonic.instruction ⟨condition.mnemonic, .branch condition⟩ scope.symbols
      counter [label] = .error fault := by
    simp only [Mnemonic.instruction, hread]
    rfl
  exact late_eq_some_iff.2
    (SourceLine.words?_of_instruction_eq_error hstatement hm hcounter hinstruction)

/-- A branch to a label that is too far away has that as its fault. -/
theorem PlacedLine.late_of_far_branch
    (hstatement : line.statement = .ok (.instruction mnemonic [label]))
    (hm : Mnemonic.find? mnemonic = some ⟨condition.mnemonic, .branch condition⟩)
    (hcounter : counter ≤ 0xFFFF) (h : scope.symbols.Named)
    (hs : scope.symbols.lookup? label = some s)
    (hfar : ¬(-256 ≤ distance counter s.address ∧ distance counter s.address ≤ 255)) :
    late scope ⟨counter, line⟩ = some (.branchOutOfRange (distance counter s.address)) :=
  late_of_readBranch hstatement hm hcounter (by rw [readBranch_of_label h hs, if_neg hfar])

/-- A branch to a label has a fault exactly if the label is too far away, and else the word of the
    branch by the way to the label. -/
theorem PlacedLine.branch_of_label
    (hstatement : line.statement = .ok (.instruction mnemonic [label]))
    (hm : Mnemonic.find? mnemonic = some ⟨condition.mnemonic, .branch condition⟩)
    (hcounter : counter ≤ 0xFFFF) (h : scope.symbols.Named)
    (hs : scope.symbols.lookup? label = some s) :
    (∀ d, late scope ⟨counter, line⟩ = some (.branchOutOfRange d) ↔
      d = distance counter s.address ∧ (d < -256 ∨ 255 < d)) ∧
    (-256 ≤ distance counter s.address ∧ distance counter s.address ≤ 255 →
      late scope ⟨counter, line⟩ = none ∧ ∃ w, words scope ⟨counter, line⟩ = [w] ∧
        Instruction.decode w = .branch condition (distance counter s.address)) := by
  by_cases hnear : -256 ≤ distance counter s.address ∧ distance counter s.address ≤ 255
  · have hmeans : Form.Means scope.symbols counter (.branch condition) [label]
        (.branch condition (distance counter s.address)) :=
      .branchLabel hs rfl hnear.1 hnear.2
    obtain ⟨w, hw, hlate, hdecode⟩ := words_of_means hstatement hm hcounter h hmeans
    refine ⟨fun d => ?_, fun _ => ⟨hlate, w, hw, hdecode⟩⟩
    rw [hlate]
    constructor
    · exact nofun
    · rintro ⟨rfl, hfar⟩
      omega
  · have hlate := late_of_far_branch hstatement hm hcounter h hs hnear
    refine ⟨fun d => ?_, fun hnear' => absurd hnear' hnear⟩
    rw [hlate, Option.some.injEq, Fault.branchOutOfRange.injEq]
    constructor
    · rintro rfl
      exact ⟨rfl, by omega⟩
    · rintro ⟨rfl, -⟩
      rfl

end Line

/-! ## Landing on the label -/

/-- A machine at a branch to a label goes on at the label if the condition holds, and at the next
    word if not. -/
theorem Machine.goesOnAt_of_branch_to_label {m : Machine} {condition : Condition}
    {w target : Word} (hpc : m.cpu.pc = BitVec.ofNat 16 counter) (hw : m.memory.read m.cpu.pc = w)
    (hdecode : Instruction.decode w = .branch condition (distance counter target)) :
    m.GoesOnAt
      (if condition.holds m.cpu.status then target else BitVec.ofNat 16 (counter + 1)) := by
  have hfetch : m.fetch = .branch condition (distance counter target) := by
    rw [fetch, hw, hdecode]
  have hnext : m.cpu.pc + 1 = BitVec.ofNat 16 (counter + 1) := by
    rw [hpc, BitVec.ofNat_add]
    rfl
  have hland : m.cpu.pc + 1 + BitVec.ofInt 16 (distance counter target) = target := by
    rw [hpc, add_ofInt_distance]
  have hstep := goesOnAt_of_branch hfetch
  rwa [hland, hnext] at hstep

/-- A branch to a label that is bound lands on the label. Its line has a fault exactly if the way
    is too far, which is then what the fault says; else it has one word, and a machine at its
    place that executes the word goes on at the label if the condition holds, and otherwise at
    the next word, with nothing else changed. -/
theorem assemble_branch_lands {source : String} {a : Assembly} (h : assemble source = .ok a)
    {k counter : Nat} {line : SourceLine} {mnemonic label : String} {condition : Condition}
    {s : Symbol} (hline : (SourceLine.ofSource source)[k]? = some line)
    (hstatement : line.statement = .ok (.instruction mnemonic [label]))
    (hname : Text.upper mnemonic.toList = condition.mnemonic.toList)
    (hs : a.symbols.lookup? label = some s)
    (hcounter : SourceLine.counterAt (SourceLine.ofSource source) k = counter)
    (hle : counter ≤ 0xFFFF) :
    ∃ row, a.listing[k]? = some row ∧ row.address = some (BitVec.ofNat 16 counter) ∧
      (∀ d, row.fault = some (.branchOutOfRange d) ↔
        d = distance counter s.address ∧ (d < -256 ∨ 255 < d)) ∧
      (-256 ≤ distance counter s.address ∧ distance counter s.address ≤ 255 →
        row.fault = none ∧ ∃ w, row.words = [w] ∧
          ∀ m : Machine, m.cpu.pc = BitVec.ofNat 16 counter → m.memory.read m.cpu.pc = w →
            m.GoesOnAt (if condition.holds m.cpu.status then s.address
              else BitVec.ofNat 16 (counter + 1))) := by
  rw [symbols_of_assemble h] at hs
  have hfind := Mnemonic.find?_eq_some_iff.2 ⟨Mnemonic.branch_mem_table condition, hname⟩
  have hearly := earlyFault?_of_instruction (List.mem_of_getElem? hline) hstatement
  have hrow := getElem?_listing h hline
  rw [hcounter] at hrow
  obtain ⟨hfar, hnear⟩ :=
    PlacedLine.branch_of_label hstatement hfind hle (named_scope source) hs
  refine ⟨_, hrow, ?_, ?_, fun hrange => ?_⟩
  · simp only [PlacedLine.row, SourceLine.address?, hstatement, address?]
    rw [if_pos (by omega)]
  · rw [PlacedLine.row, hearly, Option.or_none]
    exact hfar
  · obtain ⟨hlate, w, hw, hdecode⟩ := hnear hrange
    refine ⟨by rw [PlacedLine.row, hlate, hearly]; rfl, w, hw, fun m hpc hread => ?_⟩
    exact Machine.goesOnAt_of_branch_to_label hpc hread hdecode

/-- A branch to a label that is declared behind it, as far away as a branch can go. -/
theorem assemble_branch_lands_forward :
    ∃ a, assemble "jnz done\n.org 0x100\ndone:" = .ok a ∧ ∃ row, a.listing[0]? = some row ∧
      row.fault = none ∧ ∃ w, row.words = [w] ∧
        ∀ m : Machine, m.cpu.pc = 0 → m.memory.read m.cpu.pc = w →
          m.GoesOnAt (if Condition.notZero.holds m.cpu.status then 0x100 else 1) := by
  obtain ⟨a, ha⟩ := exists_assemble "jnz done\n.org 0x100\ndone:" (by decide +kernel)
  have hs : a.symbols.lookup? "done" = some ⟨"done", 0x100, 3⟩ := by
    rw [symbols_of_assemble ha]
    decide +kernel
  obtain ⟨row, hrow, -, -, hnear⟩ := assemble_branch_lands ha
    (show _ = some ⟨1, "jnz done", .ok (.instruction "jnz" ["done"])⟩ by rfl) rfl
    (show _ = Condition.notZero.mnemonic.toList by decide) hs
    (show SourceLine.counterAt _ 0 = 0 by rfl) (by decide)
  exact ⟨a, ha, row, hrow, hnear (by decide)⟩

end WordMachine
