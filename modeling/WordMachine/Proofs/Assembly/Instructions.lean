import WordMachine.Proofs.Assembly.Faults
import WordMachine.Proofs.Assembly.Places

/-!
# Lines that are instructions

A line with a mnemonic of the table is free of faults exactly if its operands say an
instruction, and its one word then says that instruction (`assemble_instruction_iff_means`).
The labels that the operands can name are those that the assembly binds. What operands say has
a word, so that the fault of an operation without a word (`Fault.flagsOnly`) is never one of
an assembly.
-/

namespace WordMachine

variable {symbols : SymbolTable} {counter : Nat}

/-! ## Labels of a source -/

/-- The labels that a source binds have names that a label can have. -/
theorem named_scope (source : String) :
    (SourceLine.scope (SourceLine.ofSource source)).symbols.Named := by
  intro s hs
  rcases exists_of_mem_bindLabels hs with hs | ⟨line, hline, hname⟩
  · cases hs
  · rw [SourceLine.label?_eq_some_iff, SourceLine.statement_of_mem_ofSource hline] at hname
    exact Statement.isName_of_ofLine hname

/-! ## The words of an instruction -/

section Words

variable {scope : Scope} {line : SourceLine} {mnemonic : String} {operands : List String}
  {m : Mnemonic} {i : Instruction}

/-- What the second walk finds in a line with a mnemonic of the table, where there is an address
    for its word. -/
theorem SourceLine.words?_of_mnemonic (scope : Scope)
    (hstatement : line.statement = .ok (.instruction mnemonic operands))
    (hm : Mnemonic.find? mnemonic = some m) (hcounter : counter ≤ 0xFFFF) :
    line.words? scope counter = some (do
      let instruction ← m.instruction scope.symbols counter operands
      let word ← instruction.encode
      .ok [word]) := by
  simp only [words?, hstatement, Statement.words, Statement.size_of_mnemonic hm, instructionWords,
    hm]
  rw [if_neg (by omega)]

/-- Where no instruction can be read from the operands, that is what the second walk finds. -/
theorem SourceLine.words?_of_instruction_eq_error {fault : Fault}
    (hstatement : line.statement = .ok (.instruction mnemonic operands))
    (hm : Mnemonic.find? mnemonic = some m) (hcounter : counter ≤ 0xFFFF)
    (hread : m.instruction scope.symbols counter operands = .error fault) :
    line.words? scope counter = some (.error fault) := by
  rw [words?_of_mnemonic scope hstatement hm hcounter, hread, Except.error_bind]

/-- A line whose operands say an instruction has the word of that instruction. -/
theorem PlacedLine.words_of_means
    (hstatement : line.statement = .ok (.instruction mnemonic operands))
    (hm : Mnemonic.find? mnemonic = some m) (hcounter : counter ≤ 0xFFFF)
    (h : scope.symbols.Named) (hmeans : m.form.Means scope.symbols counter operands i) :
    ∃ w, words scope ⟨counter, line⟩ = [w] ∧ late scope ⟨counter, line⟩ = none ∧
      Instruction.decode w = i := by
  have hread := Mnemonic.instruction_of_means h hmeans
  obtain ⟨w, hw, hdecode⟩ :=
    Mnemonic.exists_encode_of_instruction (Mnemonic.find?_eq_some_iff.1 hm).1 h hread
  have hwords := SourceLine.words?_of_mnemonic scope hstatement hm hcounter
  rw [hread, Except.ok_bind, hw, Except.ok_bind] at hwords
  refine ⟨w, ?_, ?_, hdecode⟩
  · simp only [words, hwords]
  · simp only [late, hwords]

/-- A line with a mnemonic has no fault in the second walk exactly if its operands say an
    instruction. -/
theorem PlacedLine.late_eq_none_iff
    (hstatement : line.statement = .ok (.instruction mnemonic operands))
    (hm : Mnemonic.find? mnemonic = some m) (hcounter : counter ≤ 0xFFFF)
    (h : scope.symbols.Named) :
    late scope ⟨counter, line⟩ = none ↔ ∃ i, m.form.Means scope.symbols counter operands i := by
  constructor
  · intro hlate
    cases hread : m.instruction scope.symbols counter operands with
    | ok i => exact ⟨i, Mnemonic.means_of_instruction h hread⟩
    | error fault =>
      have hwords := SourceLine.words?_of_instruction_eq_error hstatement hm hcounter hread
      simp [late, hwords] at hlate
  · rintro ⟨i, hmeans⟩
    obtain ⟨w, -, hlate, -⟩ := words_of_means hstatement hm hcounter h hmeans
    exact hlate

end Words

/-- A line that is an instruction has no fault of the first walk. -/
theorem earlyFault?_of_instruction {source : String} {line : SourceLine}
    (hline : line ∈ SourceLine.ofSource source) {mnemonic : String} {operands : List String}
    (hstatement : line.statement = .ok (.instruction mnemonic operands)) :
    earlyFault? (SourceLine.earlyFaults (SourceLine.ofSource source)) line = none :=
  earlyFault?_of_emits hline hstatement trivial

/-! ## Operations without a word -/

section FlagsOnly

variable {op : AluOp}

theorem PlacedLine.late_ne_flagsOnly {scope : Scope} (h : scope.symbols.Named) {p : PlacedLine} :
    p.late scope ≠ some (.flagsOnly op) := by
  intro hlate
  obtain ⟨s, -, -, hs⟩ := SourceLine.words?_eq_some_iff.1 (late_eq_some_iff.1 hlate)
  rcases Statement.fault_of_words h hs with ⟨-, -, heq⟩ | ⟨-, hoperand | ⟨mnemonic, heq⟩⟩
  · cases heq
  · exact hoperand
  · cases heq

theorem SymbolTable.bind_ne_flagsOnly {name : String} {number : Nat} :
    symbols.bind name counter number ≠ .error (.flagsOnly op) := by
  rw [bind]
  split
  · simp
  · split <;> simp

theorem earlyFaults_ne_flagsOnly {source : String} {e : LineFault}
    (he : e ∈ SourceLine.earlyFaults (SourceLine.ofSource source)) : e.fault ≠ .flagsOnly op := by
  obtain ⟨line, hline, -, counter, symbols, hfault⟩ := exists_of_mem_earlyFaults he
  have htext := SourceLine.statement_of_mem_ofSource hline
  intro hop
  rw [hop] at hfault
  rw [SourceLine.bind] at hfault
  split at hfault
  · next fault hstatement =>
    obtain rfl := Option.some.inj hfault
    exact Statement.ofLine_ne_flagsOnly (htext ▸ hstatement)
  · split at hfault
    · cases hfault
    · next fault hbind =>
      obtain rfl := Option.some.inj hfault
      exact SymbolTable.bind_ne_flagsOnly hbind
  · cases hfault

end FlagsOnly

/-! ## Instructions of an assembly -/

/-- A line with a mnemonic of the table, at a place in memory, is free of faults exactly if it has
    as many operands as the form of the mnemonic takes and these say an instruction; it then has
    one word, which says that instruction. What is read from operands has a word, and no fault of
    the assembly is that of an operation without one. -/
theorem assemble_instruction_iff_means {source : String} {a : Assembly}
    (h : assemble source = .ok a) :
    (∀ (k : Nat) (line : SourceLine) (mnemonic : String) (operands : List String) (m : Mnemonic),
      (SourceLine.ofSource source)[k]? = some line →
      line.statement = .ok (.instruction mnemonic operands) →
      m ∈ Mnemonic.table → Text.upper mnemonic.toList = m.name.toList →
      SourceLine.counterAt (SourceLine.ofSource source) k ≤ 0xFFFF →
      ∃ row, a.listing[k]? = some row ∧
        row.address = some (BitVec.ofNat 16 (SourceLine.counterAt (SourceLine.ofSource source) k)) ∧
        (row.fault = none ↔ m.form.arity.allows operands.length = true ∧
          ∃ i, m.form.Means a.symbols (SourceLine.counterAt (SourceLine.ofSource source) k)
            operands i) ∧
        ∀ i, m.form.Means a.symbols (SourceLine.counterAt (SourceLine.ofSource source) k)
          operands i → ∃ w, row.words = [w] ∧ Instruction.decode w = i) ∧
    (∀ m ∈ Mnemonic.table, ∀ (counter : Nat) (operands : List String) (i : Instruction),
      m.instruction a.symbols counter operands = .ok i → ∃ w, i.encode = .ok w) ∧
    (∀ e ∈ a.faults, ∀ op, e.fault ≠ .flagsOnly op) ∧
    (∀ row ∈ a.listing, ∀ op, row.fault ≠ some (.flagsOnly op)) := by
  have hnamed := named_scope source
  have hsymbols := symbols_of_assemble h
  refine ⟨fun k line mnemonic operands m hline hstatement hm hname hcounter => ?_,
    fun m hm counter operands i hread => ?_, fun e he op => ?_, fun row hrow op hfault => ?_⟩
  · have hfind := Mnemonic.find?_eq_some_iff.2 ⟨hm, hname⟩
    have hearly := earlyFault?_of_instruction (List.mem_of_getElem? hline) hstatement
    refine ⟨_, getElem?_listing h hline, ?_, ?_, fun i hmeans => ?_⟩
    · simp only [PlacedLine.row, SourceLine.address?, hstatement, address?]
      rw [if_pos (by omega)]
    · have hlate := PlacedLine.late_eq_none_iff hstatement hfind hcounter hnamed
      rw [hsymbols, PlacedLine.row, hearly, Option.or_none, hlate]
      refine ⟨?_, fun hmeans => hmeans.2⟩
      rintro ⟨i, hmeans⟩
      exact ⟨hmeans.allows, i, hmeans⟩
    · rw [hsymbols] at hmeans
      obtain ⟨w, hw, -, hdecode⟩ :=
        PlacedLine.words_of_means hstatement hfind hcounter hnamed hmeans
      exact ⟨w, hw, hdecode⟩
  · rw [hsymbols] at hread
    obtain ⟨w, hw, -⟩ := Mnemonic.exists_encode_of_instruction hm hnamed hread
    exact ⟨w, hw⟩
  · obtain ⟨-, rfl⟩ := assembleLines_eq_ok_iff.1 h
    rcases List.mem_merge.1 he with he | he
    · exact earlyFaults_ne_flagsOnly he
    · obtain ⟨p, -, hmark⟩ := List.mem_flatMap.1 he
      rw [SourceLine.mark, Option.mem_toList, Option.map_eq_some_iff] at hmark
      obtain ⟨fault, hlate, rfl⟩ := hmark
      rintro rfl
      exact PlacedLine.late_ne_flagsOnly hnamed hlate
  · obtain ⟨-, rfl⟩ := assembleLines_eq_ok_iff.1 h
    obtain ⟨p, -, rfl⟩ := List.mem_map.1 hrow
    rw [PlacedLine.row, Option.or_eq_some_iff] at hfault
    rcases hfault with hlate | ⟨-, hearly⟩
    · exact PlacedLine.late_ne_flagsOnly hnamed hlate
    · rw [earlyFault?, Option.map_eq_some_iff] at hearly
      obtain ⟨e, he, hop⟩ := hearly
      exact earlyFaults_ne_flagsOnly (List.mem_of_find?_eq_some he) hop

/-- A comparison with the largest number, in small letters and behind a label. -/
theorem assemble_instruction_iff_means_compare :
    ∃ a, assemble "loop:\ncmp r2, #15" = .ok a ∧ ∃ row, a.listing[1]? = some row ∧
      row.fault = none ∧
      ∃ w, row.words = [w] ∧ Instruction.decode w = .alu .sub ⟨2⟩ (.immediate 15) false := by
  obtain ⟨a, ha⟩ := exists_assemble "loop:\ncmp r2, #15" (by decide +kernel)
  obtain ⟨row, hrow, -, hfault, hwords⟩ := (assemble_instruction_iff_means ha).1 1
    ⟨2, "cmp r2, #15", .ok (.instruction "cmp" ["r2", "#15"])⟩ "cmp" ["r2", "#15"]
    ⟨"CMP", .alu .sub false⟩ rfl rfl (by decide) (by decide) (by decide +kernel)
  have hmeans : Form.Means a.symbols
      (SourceLine.counterAt (SourceLine.ofSource "loop:\ncmp r2, #15") 1) (.alu .sub false)
      ["r2", "#15"] (.alu .sub ⟨2⟩ (.immediate 15) false) :=
    .aluImmediate (by decide) (by decide) (by decide)
  exact ⟨a, ha, row, hrow, hfault.2 ⟨by decide, _, hmeans⟩, hwords _ hmeans⟩

end WordMachine
