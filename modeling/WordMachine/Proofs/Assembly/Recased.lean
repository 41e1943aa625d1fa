import WordMachine.Proofs.Assembly.Apart
import WordMachine.Proofs.Source.Recased
import WordMachine.Tool.Record

/-!
# Sources in one letter case

A source that is written in one letter case has lines that are copies of its lines
(`SourceLine.ofSource_map_char`), spelled in that case: a line is taken apart where it was
(`Statement.ofLine_map_char`), and each token means what it did. Only labels are told apart by the
case of their letters. Where no token is a label but for the case of its letters, what is assembled
is therefore the same (`assemble_map_char`).
-/

namespace WordMachine

/-- Lines in one letter case. -/
def Copy.inCase (k : Text.Case) : Copy where
  spell := String.map k.char
  above := 0
  literal?_spell := Numeral.literal?_map_char k
  ofName?_spell := Register.ofName?_map_char k
  looksNumbered_spell := Register.looksNumbered_map_char k
  isName_spell token := by rw [String.toList_map, Statement.isName_map_char]
  find?_spell := Mnemonic.find?_map_char k
  spell_integer := Numeral.integer_map_char k

/-! ## Taking lines apart -/

section Parsing

variable (k : Text.Case)

theorem Copy.spell_ofList (cs : List Char) :
    (Copy.inCase k).spell (String.ofList cs) = String.ofList (cs.map k.char) := by
  rw [← String.toList_inj, String.toList_ofList]
  exact String.toList_map.trans (by rw [String.toList_ofList])

theorem Copy.map_spell_ofList (texts : List (List Char)) :
    (texts.map String.ofList).map (Copy.inCase k).spell =
      (texts.map (List.map k.char)).map String.ofList := by
  rw [List.map_map, List.map_map]
  exact List.map_congr_left fun cs _ => Copy.spell_ofList k cs

namespace Statement

theorem ofLabel_map_char (text : List Char) :
    ofLabel (text.map k.char) =
      ((ofLabel text).map (Copy.inCase k).statement).mapError (Copy.inCase k).fault := by
  simp only [ofLabel, k.trim_map_char, isName_map_char, ← Copy.spell_ofList]
  split <;> rfl

theorem ofOrigin_map_char (text : String) :
    ofOrigin (text.map k.char) =
      ((ofOrigin text).map (Copy.inCase k).statement).mapError (Copy.inCase k).fault := by
  rw [ofOrigin, ofOrigin, Numeral.literal?_map_char]
  cases Numeral.literal? text with
  | none => rfl
  | some value =>
    simp only
    split <;> rfl

theorem ofData_map_char (text : List Char) :
    ofData (text.map k.char) =
      ((ofData text).map (Copy.inCase k).statement).mapError (Copy.inCase k).fault := by
  have hvalues : ((text.map k.char).splitOnP (· == ',')).map Text.trim =
      ((text.splitOnP (· == ',')).map Text.trim).map (List.map k.char) := by
    rw [k.splitOnP_map_char (k.beq_comp_char (by decide)), List.map_map, List.map_map]
    exact List.map_congr_left fun value _ => k.trim_map_char value
  simp only [ofData, hvalues, List.any_map, List.countP_map, Function.comp_def, List.isEmpty_map]
  split
  · rfl
  · rw [← Copy.map_spell_ofList]
    rfl

theorem ofDirective_map_char (text : List Char) :
    ofDirective (text.map k.char) =
      ((ofDirective text).map (Copy.inCase k).statement).mapError (Copy.inCase k).fault := by
  have hvisible := k.not_comp_char k.isBlank_comp_char
  simp only [ofDirective, k.takeWhile_map_char hvisible, k.dropWhile_map_char hvisible,
    k.upper_map_char, k.trim_map_char, ofData_map_char, ← Copy.spell_ofList]
  split
  · exact ofOrigin_map_char k _
  · split <;> rfl

theorem isSeparator_comp_char : isSeparator ∘ k.char = isSeparator := by
  funext c
  have hcomma : (k.char c == ',') = (c == ',') := congrFun (k.beq_comp_char (by decide)) c
  have hblank : Text.isBlank (k.char c) = Text.isBlank c := congrFun k.isBlank_comp_char c
  rw [Function.comp_apply, isSeparator, isSeparator, hcomma, hblank]

theorem ofInstruction_map_char (text : List Char) :
    ofInstruction (text.map k.char) =
      ((ofInstruction text).map (Copy.inCase k).statement).mapError (Copy.inCase k).fault := by
  have htokens : ((text.map k.char).splitOnP isSeparator).filter (fun token => !token.isEmpty) =
      ((text.splitOnP isSeparator).filter fun token => !token.isEmpty).map (List.map k.char) := by
    rw [k.splitOnP_map_char (isSeparator_comp_char k), List.filter_map]
    simp only [Function.comp_def, List.isEmpty_map]
  rw [ofInstruction, ofInstruction, htokens]
  cases (text.splitOnP isSeparator).filter (fun token => !token.isEmpty) with
  | nil =>
    exact congrArg (fun mnemonic => Except.ok (instruction mnemonic []))
      (Copy.spell_ofList k []).symm
  | cons mnemonic operands =>
    have hcolon : (mnemonic.map k.char).getLast? = some ':' ↔ mnemonic.getLast? = some ':' :=
      k.getLast?_map_char_iff (by decide)
    simp only [List.map_cons, hcolon, ← List.map_dropLast, ← Copy.spell_ofList,
      ← Copy.map_spell_ofList]
    split <;> rfl

theorem ofText_map_char (text : List Char) :
    ofText (text.map k.char) =
      ((ofText text).map (Copy.inCase k).statement).mapError (Copy.inCase k).fault := by
  have hcolon : (text.map k.char).getLast? = some ':' ↔ text.getLast? = some ':' :=
    k.getLast?_map_char_iff (by decide)
  have hdot : (text.map k.char).head? = some '.' ↔ text.head? = some '.' :=
    k.head?_map_char_iff (by decide)
  simp only [ofText, List.isEmpty_map, hcolon, hdot, ← List.map_dropLast, ofLabel_map_char,
    ofDirective_map_char, ofInstruction_map_char]
  split
  · rfl
  · split
    · rfl
    · split <;> rfl

/-- A line that is written in one letter case says what it says, spelled in that case. -/
theorem ofLine_map_char (line : List Char) :
    ofLine (line.map k.char) =
      ((ofLine line).map (Copy.inCase k).statement).mapError (Copy.inCase k).fault := by
  have hcomment : (line.map k.char).takeWhile (· != ';') =
      (line.takeWhile (· != ';')).map k.char :=
    k.takeWhile_map_char (k.not_comp_char (k.beq_comp_char (by decide)))
  rw [ofLine, ofLine, hcomment, k.trim_map_char, ofText_map_char]

end Statement

/-- The lines of a source in one letter case are copies of its lines. -/
theorem SourceLine.ofSource_map_char (source : String) :
    ofSource (source.map k.char) = (ofSource source).map (Copy.inCase k).line := by
  rw [ofSource, ofSource, String.toList_map, k.lines_map_char, List.zipIdx_map, List.map_map,
    List.map_map]
  refine List.map_congr_left fun p _ => ?_
  simp only [Function.comp_apply, Prod.map, Copy.line, Copy.spell_ofList,
    Statement.ofLine_map_char]
  rfl

end Parsing

/-! ## Assemblies -/

/-- The lines stand alone in the source that is written in one letter case. -/
theorem Copy.among_inCase (k : Text.Case) {source : String}
    (h : ∀ name ∈ SourceLine.declared (SourceLine.ofSource source),
      ∀ line ∈ SourceLine.ofSource source, ∀ token ∈ line.mentions,
        Text.upper token.toList = Text.upper name.toList → token = name) :
    (Copy.inCase k).Among (SourceLine.ofSource source) [] [] []
      (SourceLine.scope (SourceLine.ofSource (source.map k.char))) := by
  have hupper : ∀ token : String,
      Text.upper ((Copy.inCase k).spell token).toList = Text.upper token.toList := by
    intro token
    rw [Copy.inCase, String.toList_map, k.upper_map_char]
  have hapart : ∀ line ∈ SourceLine.ofSource source, ∀ token ∈ line.mentions,
      (Copy.inCase k).Apart (SourceLine.declared (SourceLine.ofSource source)) [] token := by
    intro line hline token htoken
    refine ⟨List.not_mem_nil, fun name hname heq => (h name hname line hline token htoken ?_).symm⟩
    rw [← hupper, ← heq, hupper]
  have hdeclared : ∀ name, name ∈ SourceLine.declared (SourceLine.ofSource (source.map k.char)) ↔
      name ∈ (SourceLine.declared (SourceLine.ofSource source)).map (Copy.inCase k).spell ∨
        name ∈ ([] : List String) := by
    intro name
    rw [SourceLine.ofSource_map_char, Copy.declared_map_line, or_iff_left List.not_mem_nil]
  refine ⟨hapart, hdeclared, ?_, List.forall_mem_nil _, List.forall_mem_nil _⟩
  have hbound := (Copy.inCase k).bindLabels_copied hdeclared hapart (List.forall_mem_nil _)
  rw [← SourceLine.ofSource_map_char] at hbound
  rw [List.append_nil]
  exact hbound

/-- A source in which no token is a declared label but for the case of its letters, written in
    capitals or in small letters, is assembled as it was: it has an assembly exactly if it had one,
    and of this only what shows texts is another, namely those texts in that case
    (`Copy.inCase`). It is a success if it was one, its memory and its changes are the same, and so
    are the addresses and the words of its rows, the lines and kinds of its faults, and the
    addresses of its labels. -/
theorem assemble_map_char (k : Text.Case) {source : String}
    (h : ∀ name ∈ SourceLine.declared (SourceLine.ofSource source),
      ∀ line ∈ SourceLine.ofSource source, ∀ token ∈ line.mentions,
        Text.upper token.toList = Text.upper name.toList → token = name) :
    ((∃ overrun, assemble (source.map k.char) = .error overrun) ↔
      ∃ overrun, assemble source = .error overrun) ∧
    ∀ a b, assemble source = .ok a → assemble (source.map k.char) = .ok b →
      b.listing = a.listing.map (Copy.inCase k).row ∧
      b.success = a.success ∧
      b.memory = a.memory ∧
      b.changes = a.changes ∧
      b.listing.map (fun row => (row.line, row.address, row.words)) =
        a.listing.map (fun row => (row.line, row.address, row.words)) ∧
      b.faults.map (fun e => (e.line, e.fault.kind)) =
        a.faults.map (fun e => (e.line, e.fault.kind)) ∧
      b.symbols = a.symbols.map fun s => ⟨s.name.map k.char, s.address, s.line⟩ := by
  have hamong := Copy.among_inCase k h
  have hvisits : SourceLine.visits (SourceLine.ofSource (source.map k.char)) =
      Visit.ofLines (SourceLine.scope (SourceLine.ofSource (source.map k.char))).declared 0 []
        ((SourceLine.ofSource source).map (Copy.inCase k).line) := by
    rw [← SourceLine.ofSource_map_char]
    rfl
  constructor
  · rw [Except.exists_eq_error_iff, Except.exists_eq_error_iff, exists_assemble_iff_fits,
      exists_assemble_iff_fits, hvisits, hamong.forall_fits_iff]
  intro a b ha hb
  have hlisting : b.listing = a.listing.map (Copy.inCase k).row := by
    rw [listing_eq_map_visits hb, hvisits, hamong.map_row, listing_eq_map_visits ha]
  have hfaults : b.faults = a.faults.map (Copy.inCase k).lineFault := by
    rw [Assembly.faults_eq_filterMap hb, hlisting, Copy.filterMap_lineFault?_map_row,
      Assembly.faults_eq_filterMap ha]
  have hchanges : b.changes = a.changes := by
    rw [Assembly.changes, hlisting, Copy.flatMap_changes_map_row]
    rfl
  have hkind : ∀ fault, ((Copy.inCase k).fault fault).kind = fault.kind := by
    intro fault
    cases fault <;> rfl
  refine ⟨hlisting, ?_, ?_, hchanges, ?_, ?_, ?_⟩
  · rw [Assembly.success, hfaults, List.isEmpty_map]
    rfl
  · rw [Assembly.memory_eq_writeChanges hb, hchanges, Assembly.memory_eq_writeChanges ha]
  · rw [hlisting, List.map_map]
    rfl
  · rw [hfaults, List.map_map]
    exact List.map_congr_left fun e _ => congrArg (e.line, ·) (hkind e.fault)
  · rw [symbols_of_assemble hb, hamong.symbols_eq, List.append_nil, symbols_of_assemble ha]
    rfl

/-- Numbers of base sixteen, a register, mnemonics and a label in mixed case, and a mnemonic that
    there is not, which has the same fault in capitals and in small letters. -/
theorem assemble_map_char_mixed :
    ∃ a b c, assemble "Loop:\nmoV r1, Sp, 0x3\njZ Loop\n.Word $fF, Loop\nFrob" = .ok a ∧
      assemble ("Loop:\nmoV r1, Sp, 0x3\njZ Loop\n.Word $fF, Loop\nFrob".map Char.toUpper) =
        .ok b ∧
      assemble ("Loop:\nmoV r1, Sp, 0x3\njZ Loop\n.Word $fF, Loop\nFrob".map Char.toLower) =
        .ok c ∧
      a.faults = [⟨5, .unknownInstruction "Frob"⟩] ∧
      b.memory = a.memory ∧ c.memory = a.memory ∧
      b.faults.map (fun e => (e.line, e.fault.kind)) = [(5, "UnknownInstruction")] ∧
      b.symbols = [⟨"LOOP", 0, 1⟩] ∧ c.symbols = [⟨"loop", 0, 1⟩] := by
  obtain ⟨a, ha⟩ :=
    exists_assemble "Loop:\nmoV r1, Sp, 0x3\njZ Loop\n.Word $fF, Loop\nFrob" (by decide +kernel)
  have hnames : ∀ name ∈ SourceLine.declared (SourceLine.ofSource
        "Loop:\nmoV r1, Sp, 0x3\njZ Loop\n.Word $fF, Loop\nFrob"),
      ∀ line ∈ SourceLine.ofSource "Loop:\nmoV r1, Sp, 0x3\njZ Loop\n.Word $fF, Loop\nFrob",
        ∀ token ∈ line.mentions,
          Text.upper token.toList = Text.upper name.toList → token = name := by decide +kernel
  have hexists : ∀ k : Text.Case, ∃ b, assemble
      ("Loop:\nmoV r1, Sp, 0x3\njZ Loop\n.Word $fF, Loop\nFrob".map k.char) = .ok b := by
    intro k
    by_contra hnone
    obtain ⟨overrun, herror⟩ :=
      (assemble_map_char k hnames).1.1 (Except.exists_eq_error_iff.2 hnone)
    cases ha.symm.trans herror
  have hfaults : a.faults = [⟨5, .unknownInstruction "Frob"⟩] := by
    rw [Assembly.faults_eq_filterMap ha, listing_of_assemble ha]
    decide +kernel
  have hsymbols : a.symbols = [⟨"Loop", 0, 1⟩] := by
    rw [symbols_of_assemble ha]
    decide +kernel
  obtain ⟨b, hb⟩ := hexists .upper
  obtain ⟨c, hc⟩ := hexists .lower
  obtain ⟨-, -, hmemory, -, -, hkinds, htable⟩ := (assemble_map_char .upper hnames).2 a b ha hb
  obtain ⟨-, -, hmemory', -, -, -, htable'⟩ := (assemble_map_char .lower hnames).2 a c ha hc
  rw [hfaults] at hkinds
  rw [hsymbols] at htable htable'
  have hupper : "Loop".map Char.toUpper = "LOOP" := by
    rw [← String.toList_inj, String.toList_map]
    decide
  have hlower : "Loop".map Char.toLower = "loop" := by
    rw [← String.toList_inj, String.toList_map]
    decide
  exact ⟨a, b, c, ha, hb, hc, hfaults, hmemory, hmemory', hkinds,
    htable.trans (congrArg (fun name => [Symbol.mk name 0 1]) hupper),
    htable'.trans (congrArg (fun name => [Symbol.mk name 0 1]) hlower)⟩

end WordMachine
