import WordMachine.Proofs.Assembly.Changes
import WordMachine.Proofs.Assembly.Instructions
import WordMachine.Proofs.Instruction.Printer

/-!
# Assembling what was disassembled

What words say, written line by line and with origins between, assembles to these words again,
each at the address that the counter has run up to (`assemble_disassemble`). A line with what
a word says holds that word wherever it stands in memory (`SourceLine.Holds`): the operands
that an instruction is spelled with say it, and its word is the one it was read from.
-/

namespace WordMachine

/-! ## Lines that hold a word -/

namespace SourceLine

/-- At every place in memory the line puts the word there, and it does nothing else. -/
structure Holds (line : SourceLine) (w : Word) : Prop where
  label : line.label? = none
  bind : ∀ symbols counter, line.bind symbols counter = (symbols, none)
  next : ∀ declared counter, line.next declared counter = counter + 1
  address : ∀ counter, line.address? counter = WordMachine.address? counter
  words : ∀ scope : Scope, scope.symbols.Named → ∀ counter ≤ 0xFFFF,
    line.words? scope counter = some (.ok [w])

/-- The line moves the address counter, and it does nothing else. -/
structure Moves (line : SourceLine) (a : Word) : Prop where
  label : line.label? = none
  bind : ∀ symbols counter, line.bind symbols counter = (symbols, none)
  next : ∀ declared counter, line.next declared counter = a.toNat
  words : ∀ scope counter, line.words? scope counter = none

variable {line : SourceLine} {w : Word}

/-- A line with a word as a number holds the word. -/
theorem holds_of_datum
    (h : line.statement = .ok (.data [Numeral.hexLiteral w.toNat])) : line.Holds w where
  label := by simp only [label?, h]
  bind symbols counter := by simp only [SourceLine.bind, h]
  next declared counter := by simp only [SourceLine.next, h]; rfl
  address counter := by simp only [address?, h]
  words scope _ counter hcounter := by
    have hvalue : Numeral.literal? (Numeral.hexLiteral w.toNat) = some (w.toNat : Int) :=
      Numeral.literal?_hexLiteral (Nat.lt_trans w.isLt (by decide))
    have hword : dataWord scope.symbols (Numeral.hexLiteral w.toNat) = .ok w := by
      simp only [dataWord, hvalue, BitVec.ofInt_natCast, BitVec.ofNat_toNat, BitVec.setWidth_eq]
    have hroom : ¬(0 < 1 ∧ 0x10000 < counter + 1) := by omega
    simp only [words?, h, Statement.words, Statement.size, List.length_singleton, if_neg hroom,
      List.mapM_cons, List.mapM_nil, hword]
    rfl

/-- A line with the spelling of an instruction holds the word of the instruction. -/
theorem holds_of_spelling {i : Instruction} {m : Mnemonic} {operands : List String}
    (hspelling : i.spelling? = some (m, operands)) (hw : i.encode = .ok w)
    (h : line.statement = .ok (.instruction m.name operands)) : line.Holds w := by
  have hencodable : i.Encodable := (exists_encode_iff i).1 ⟨w, hw⟩
  have hfind := Mnemonic.find?_name m (Instruction.mem_table_of_spelling? hencodable hspelling)
  refine ⟨?_, fun symbols counter => ?_, fun declared counter => ?_, fun counter => ?_,
    fun scope hnamed counter hcounter => ?_⟩
  · simp only [label?, h]
  · simp only [SourceLine.bind, h]
  · simp [SourceLine.next, h, Statement.size, isBareLabel, hfind]
  · simp only [address?, h]
  · have hmeans := Instruction.means_of_spelling? hencodable hspelling scope.symbols counter
    rw [words?_of_mnemonic scope h hfind hcounter, Mnemonic.instruction_of_means hnamed hmeans,
      Except.ok_bind, hw, Except.ok_bind]

/-- A line with what a word says holds the word. -/
theorem holds_of_disassemble (h : line.statement = Statement.ofLine (disassemble w).toList) :
    line.Holds w := by
  have hw := encode_decode w
  rw [disassemble] at h
  cases hspelling : (Instruction.decode w).spelling? with
  | none =>
    obtain ⟨v, hv⟩ := Instruction.exists_of_spelling?_eq_none hspelling
    obtain rfl := eq_of_decode_unknown hv
    have htext : (Instruction.decode v).text.toList
        = ".word ".toList ++ (Numeral.hexLiteral v.toNat).toList := by
      rw [hv, Instruction.text, String.toList_append]
    rw [htext, Statement.ofLine_datum (Statement.isPlain_hexLiteral _), String.ofList_toList] at h
    exact holds_of_datum h
  | some spelling =>
    obtain ⟨m, operands⟩ := spelling
    have hmem := Instruction.mem_table_of_spelling? ((exists_encode_iff _).1 ⟨w, hw⟩) hspelling
    have hplain := Instruction.isPlain_of_spelling? hspelling
    rw [Instruction.toList_text hspelling,
      Statement.ofLine_written (Mnemonic.isPlain_name m hmem) (by simpa using hplain)] at h
    refine holds_of_spelling hspelling hw ?_
    simpa using h

theorem moves_of_origin {a : Word} (h : line.statement = .ok (.origin a)) : line.Moves a where
  label := by simp only [label?, h]
  bind symbols counter := by simp only [SourceLine.bind, h]
  next declared counter := by simp only [SourceLine.next, h]
  words scope counter := by simp only [words?, h]

end SourceLine

/-- A plain token behind visible text and spaces can stand as a line of a source. -/
theorem isLine_append_of_isPlain {l t : List Char} (hl : l.all (0x20 ≤ ·.toNat) = true)
    (ht : Statement.IsPlain t) : Text.IsLine (l ++ t) := by
  refine Text.isLine_of_forall_le (List.append_ne_nil_of_right_ne_nil _ ht.1) fun c hc => ?_
  rcases List.mem_append.1 hc with hc | hc
  · exact of_decide_eq_true (List.all_eq_true.1 hl c hc)
  · exact Nat.le_trans (by decide) (Statement.visible_of_isPlain (ht.2 c hc)).1

/-- What a word says can stand as a line of a source. -/
theorem isLine_disassemble (w : Word) : Text.IsLine (disassemble w).toList := by
  rw [disassemble]
  cases hspelling : (Instruction.decode w).spelling? with
  | none =>
    obtain ⟨v, hv⟩ := Instruction.exists_of_spelling?_eq_none hspelling
    rw [hv, Instruction.text, String.toList_append]
    exact isLine_append_of_isPlain (by decide) (Statement.isPlain_hexLiteral _)
  | some spelling =>
    obtain ⟨m, operands⟩ := spelling
    have hmem := Instruction.mem_table_of_spelling? ((exists_encode_iff _).1 ⟨w, encode_decode w⟩)
      hspelling
    have hm := Mnemonic.isPlain_name m hmem
    have hplain : ∀ t ∈ operands.map String.toList, Statement.IsPlain t := by
      simpa using Instruction.isPlain_of_spelling? hspelling
    rw [Instruction.toList_text hspelling]
    refine Text.isLine_of_forall_le (Statement.written_ne_nil hm.1) fun c hc => ?_
    rcases Statement.mem_written hm hplain hc with hc | rfl | rfl
    · have := (Statement.visible_of_isPlain hc).1
      omega
    · decide
    · decide

/-! ## Words and origins -/

/-- A part of a text that was disassembled: an origin, or what a word says. -/
inductive Piece where
  | origin (a : Word)
  | word (w : Word)

namespace Piece

/-- The line of the part. -/
def text : Piece → String
  | origin a => ".org " ++ Numeral.natural a.toNat
  | word w => disassemble w

/-- The words of the parts with the addresses that the counter runs up to. -/
def changes : Nat → List Piece → List Change
  | _, [] => []
  | _, origin a :: rest => changes a.toNat rest
  | counter, word w :: rest => ⟨BitVec.ofNat 16 counter, w⟩ :: changes (counter + 1) rest

/-- There is an address for every word. -/
def Fit : Nat → List Piece → Prop
  | _, [] => True
  | _, origin a :: rest => Fit a.toNat rest
  | counter, word _ :: rest => counter ≤ 0xFFFF ∧ Fit (counter + 1) rest

/-- The line does what the part says. -/
def Of (line : SourceLine) : Piece → Prop
  | origin a => line.Moves a
  | word w => line.Holds w

theorem isLine_text (piece : Piece) : Text.IsLine piece.text.toList := by
  cases piece with
  | origin a =>
    rw [text, String.toList_append]
    exact isLine_append_of_isPlain (by decide) (Statement.isPlain_natural _)
  | word w => exact isLine_disassemble w

theorem of_text {piece : Piece} {line : SourceLine}
    (h : line.statement = Statement.ofLine piece.text.toList) : piece.Of line := by
  cases piece with
  | origin a =>
    rw [text, String.toList_append, Statement.ofLine_origin] at h
    exact SourceLine.moves_of_origin h
  | word w => exact SourceLine.holds_of_disassemble h

/-- The lines of a source of parts do what the parts say. -/
theorem forall₂_of (number : Nat) (pieces : List Piece) :
    List.Forall₂ (fun line piece => Of line piece)
      (((pieces.map text).zipIdx number).map fun (text, number) =>
        ⟨number, text, Statement.ofLine text.toList⟩) pieces := by
  induction pieces generalizing number with
  | nil => exact .nil
  | cons piece pieces ih => exact .cons (of_text rfl) (ih (number + 1))

section Lines

variable {declared : List String} {counter : Nat} {symbols : SymbolTable}
  {lines : List SourceLine} {pieces : List Piece}

/-- The line of a part is as nothing in the first walk. -/
theorem Of.silent {line : SourceLine} {piece : Piece} (h : Of line piece) :
    line.label? = none ∧ ∀ symbols counter, line.bind symbols counter = (symbols, none) := by
  cases piece with
  | origin a => exact ⟨h.label, h.bind⟩
  | word w => exact ⟨h.label, h.bind⟩

theorem declared_eq_nil (h : List.Forall₂ (fun line piece => Of line piece) lines pieces) :
    SourceLine.declared lines = [] := by
  induction h with
  | nil => rfl
  | cons hline _ ih =>
    rw [SourceLine.declared, List.filterMap_cons_none hline.silent.1]
    exact ih

theorem bindLabels_eq (h : List.Forall₂ (fun line piece => Of line piece) lines pieces) :
    bindLabels declared counter symbols lines = (symbols, []) := by
  induction h generalizing counter with
  | nil => rfl
  | cons hline _ ih =>
    simp only [bindLabels, hline.silent.2, ih]
    rfl

/-- In the second walk the lines of parts have no fault, and put the words where the counter runs
    up to. -/
theorem places_of_fit (declared : List String) (scope : Scope) (early : List LineFault)
    (hnamed : scope.symbols.Named)
    (h : List.Forall₂ (fun line piece => Of line piece) lines pieces) (hfit : Fit counter pieces) :
    (∀ p ∈ PlacedLine.ofLines declared counter lines, p.Fits scope ∧ p.late scope = none) ∧
    (PlacedLine.ofLines declared counter lines).flatMap (fun p => (p.row scope early).changes)
      = changes counter pieces := by
  -- The induction is on the lines with their parts, from wherever the counter stands.
  induction h generalizing counter with
  | nil => exact ⟨by simp [PlacedLine.ofLines], rfl⟩
  | @cons line piece lines pieces hline _ ih =>
    rw [PlacedLine.ofLines, List.forall_mem_cons, List.flatMap_cons]
    cases piece with
    | origin a =>
      have hwords := hline.words scope counter
      have hrow : (PlacedLine.row scope early ⟨counter, line⟩).changes = [] := by
        simp only [Row.changes, PlacedLine.row, PlacedLine.words, hwords]
        split <;> rfl
      obtain ⟨hrest, hchanges⟩ := ih hfit
      rw [hline.next, hrow]
      refine ⟨⟨⟨?_, ?_⟩, hrest⟩, hchanges⟩
      · simp [PlacedLine.Fits, hwords]
      · simp only [PlacedLine.late, hwords]
    | word w =>
      obtain ⟨hcounter, hfit⟩ := hfit
      have hwords := hline.words scope hnamed counter hcounter
      have hrow : (PlacedLine.row scope early ⟨counter, line⟩).changes
          = [⟨BitVec.ofNat 16 counter, w⟩] := by
        have haddress : line.address? counter = some (BitVec.ofNat 16 counter) := by
          rw [hline.address, address?, if_pos (by omega)]
        simp [Row.changes, PlacedLine.row, PlacedLine.words, hwords, haddress]
      obtain ⟨hrest, hchanges⟩ := ih hfit
      rw [hline.next, hrow, hchanges]
      refine ⟨⟨⟨?_, ?_⟩, hrest⟩, rfl⟩
      · exact PlacedLine.fits_of_le (Nat.le_trans hcounter (by decide))
      · simp only [PlacedLine.late, hwords]

end Lines

/-! ## Words without origins -/

theorem fit_map_word (counter : Nat) (ws : List Word) (h : counter + ws.length ≤ 0x10000) :
    Fit counter (ws.map word) := by
  induction ws generalizing counter with
  | nil => trivial
  | cons w ws ih =>
    rw [List.length_cons] at h
    exact ⟨by omega, ih (counter + 1) (by omega)⟩

/-- Words without origins between them are written one after another. -/
theorem writeChanges_changes_map_word {counter : Nat} {ws : List Word}
    (h : counter + ws.length ≤ 0x10000) (m : Memory) :
    m.writeChanges (changes counter (ws.map word)) = m.writeFrom counter ws := by
  induction ws generalizing counter m with
  | nil => rfl
  | cons w ws ih =>
    rw [List.length_cons] at h
    rw [Memory.writeFrom_cons _ _ _ _ (by omega)]
    exact ih (by omega) (m.write (BitVec.ofNat 16 counter) w)

end Piece

/-! ## The round trip -/

/-- Parts for which there are addresses have an assembly without faults and labels, and its
    changes are their words. -/
theorem exists_assemble_pieces {pieces : List Piece} (hfit : Piece.Fit 0 pieces) :
    ∃ a, assemble ("\n".intercalate (pieces.map Piece.text)) = .ok a ∧ a.success = true ∧
      a.symbols = [] ∧ a.changes = Piece.changes 0 pieces := by
  have hlines : List.Forall₂ (fun line piece => Piece.Of line piece)
      (SourceLine.ofSource ("\n".intercalate (pieces.map Piece.text))) pieces := by
    rw [SourceLine.ofSource_intercalate (by simpa using fun piece _ => Piece.isLine_text piece)]
    exact Piece.forall₂_of 1 pieces
  rw [assemble]
  -- From here on, only what the lines do counts, not how they are written.
  generalize SourceLine.ofSource ("\n".intercalate (pieces.map Piece.text)) = lines at hlines ⊢
  have hdeclared := Piece.declared_eq_nil hlines
  have hbind : bindLabels (SourceLine.declared lines) 0 [] lines = ([], []) :=
    Piece.bindLabels_eq hlines
  have hscope : SourceLine.scope lines = ⟨[], []⟩ := by rw [SourceLine.scope, hbind, hdeclared]
  have hearly : SourceLine.earlyFaults lines = [] := by rw [SourceLine.earlyFaults, hbind]
  have hnamed : SymbolTable.Named [] := fun s hs => by cases hs
  obtain ⟨hplaces, hchanges⟩ := Piece.places_of_fit [] ⟨[], []⟩ [] hnamed hlines hfit
  refine ⟨_, assembleLines_eq_ok_iff.2 ⟨fun p hp => ?_, rfl⟩, ?_, ?_, ?_⟩
  · rw [SourceLine.places, hdeclared] at hp
    rw [hscope]
    exact (hplaces p hp).1
  · have hlate :
        (SourceLine.places lines).flatMap (fun p => p.line.mark (p.late ⟨[], []⟩)) = [] := by
      refine List.flatMap_eq_nil_iff.2 fun p hp => ?_
      rw [SourceLine.places, hdeclared] at hp
      rw [(hplaces p hp).2]
      rfl
    simp [Assembly.success, hscope, hearly, hlate]
  · rw [hscope]
  · rw [Assembly.changes, List.flatMap_map, hscope, hearly, SourceLine.places, hdeclared]
    exact hchanges

/-- What words say, with origins between the lines, assembles to these words, each at the address
    that the counter has run up to. So words without origins are what the memory starts with. -/
theorem assemble_disassemble :
    (∀ pieces : List Piece, Piece.Fit 0 pieces →
      ∃ a, assemble ("\n".intercalate (pieces.map Piece.text)) = .ok a ∧ a.success = true ∧
        a.symbols = [] ∧ a.changes = Piece.changes 0 pieces) ∧
    (∀ ws : List Word, ws.length ≤ 0x10000 →
      ∃ a, assemble ("\n".intercalate (ws.map disassemble)) = .ok a ∧ a.success = true ∧
        a.symbols = [] ∧ a.memory.slice 0 ws.length = ws) := by
  refine ⟨fun pieces hfit => exists_assemble_pieces hfit, fun ws hlength => ?_⟩
  obtain ⟨a, ha, hsuccess, hsymbols, hchanges⟩ :=
    exists_assemble_pieces (Piece.fit_map_word 0 ws (by omega))
  have htexts : (ws.map Piece.word).map Piece.text = ws.map disassemble := by
    rw [List.map_map]
    rfl
  rw [htexts] at ha
  refine ⟨a, ha, hsuccess, hsymbols, ?_⟩
  rw [Assembly.memory_eq_writeChanges ha, hchanges,
    Piece.writeChanges_changes_map_word (by omega)]
  exact Memory.slice_writeFrom (.filled 0) 0 ws (by simpa using hlength)

/-- A comparison, an origin back at it and at the last address, and words that are written over
    it and at the end of memory. -/
theorem assemble_disassemble_overlap :
    Piece.Fit 0 [.word 0xC49F, .origin 0, .word 0x1234, .origin 0xFFFF, .word 0xFFF7] ∧
    (∃ a, assemble ("\n".intercalate ([.word 0xC49F, .origin 0, .word 0x1234, .origin 0xFFFF,
        .word 0xFFF7].map Piece.text)) = .ok a ∧ a.success = true ∧ a.symbols = [] ∧
      a.changes = [⟨0, 0xC49F⟩, ⟨0, 0x1234⟩, ⟨0xFFFF, 0xFFF7⟩]) ∧
    (∃ a, assemble ("\n".intercalate ([0xC49F, 0xFFF7].map disassemble)) = .ok a ∧
      a.success = true ∧ a.symbols = [] ∧ a.memory.slice 0 2 = [0xC49F, 0xFFF7]) := by
  have hfit : Piece.Fit 0 [.word 0xC49F, .origin 0, .word 0x1234, .origin 0xFFFF, .word 0xFFF7] :=
    ⟨by decide, by decide, by decide, trivial⟩
  exact ⟨hfit, assemble_disassemble.1 _ hfit, assemble_disassemble.2 [0xC49F, 0xFFF7] (by decide)⟩

end WordMachine
