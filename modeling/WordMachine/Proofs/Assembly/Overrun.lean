import WordMachine.Proofs.Assembly.Layout
import WordMachine.Proofs.Source.Length

/-!
# Sources without an assembly

A line that takes words is asked first whether there is room for them, so that what it puts into
memory fits. A line that is only the name of a label takes none and is not asked: it is right
anywhere, and yet its place has to be in memory or right behind it (`PlacedLine.not_fits_iff`).
So a source has no assembly exactly if such a line stands farther out (`exists_assemble_iff`).

Nothing else can go wrong with the address counter. A line takes no more words than it has
characters and no origin is past the end of memory, so that the counter exceeds the size of a
source by less than that of memory (`SourceLine.endOf_add_size_le`).
-/

namespace WordMachine

/-! ## How far the counter gets -/

namespace SourceLine

variable {declared : List String} {line : SourceLine} {source : String}

/-- A line takes no more words than it has characters. -/
theorem size_le (h : line ∈ ofSource source) : line.size declared ≤ line.text.length := by
  have hstatement := statement_of_mem_ofSource h
  rw [size]
  split
  · next s hs =>
    rw [hstatement] at hs
    rw [← String.length_toList]
    cases s with
    | data values => exact (Statement.length_of_ofLine hs).2
    | instruction mnemonic operands =>
      have hpos := Statement.length_pos_of_ofLine hs
      rw [Statement.size]
      split <;> omega
    | _ => exact Nat.zero_le _
  · exact Nat.zero_le _

/-- Lines end no farther from the last address than by the words they take. -/
theorem endOf_le (declared : List String) (lines : List SourceLine) :
    endOf declared lines ≤ 0xFFFF + (lines.map (size declared)).sum := by
  have horigin := ((lines.reverse.findSome? origin?).getD 0).isLt
  have hsince : ((lines.reverse.takeWhile (·.origin?.isNone)).map (size declared)).sum ≤
      (lines.reverse.map (size declared)).sum :=
    ((List.takeWhile_sublist _).map _).sum_le_sum fun _ _ => Nat.zero_le _
  rw [List.map_reverse, List.sum_reverse] at hsince
  rw [endOf]
  omega

/-- No line of a source ends farther from the last address than by the bytes of the source. -/
theorem endOf_add_size_le (declared : List String) {k : Nat}
    (hline : (ofSource source)[k]? = some line) :
    endOf declared ((ofSource source).take k) + line.size declared ≤
      0xFFFF + source.utf8ByteSize := by
  have hend := endOf_le declared ((ofSource source).take k)
  have hnext : (((ofSource source).take k).map (size declared)).sum + line.size declared ≤
      ((ofSource source).map (size declared)).sum := by
    have htake := ((List.take_sublist (k + 1) (ofSource source)).map (size declared)).sum_le_sum
      fun _ _ => Nat.zero_le _
    rw [List.take_add_one, hline] at htake
    simpa using htake
  have hsizes : ((ofSource source).map (size declared)).sum ≤
      ((ofSource source).map (·.text.length)).sum := List.sum_le_sum fun _ h => size_le h
  have hbytes := sum_length_ofSource_le source
  omega

/-- The line stands where an instruction could and is only the name of a label, one that some line
    declares and that is no mnemonic. (A name with a dot in front is a directive there.) -/
def IsBareLabel (declared : List String) (line : SourceLine) : Prop :=
  ∃ name, line.statement = .ok (.instruction name []) ∧ Mnemonic.find? name = none ∧
    name ∈ declared

/-- The line with index `k` is only the name of a label and stands past the end of memory, where
    the lines before it end. -/
def IsStray (lines : List SourceLine) (k : Nat) : Prop :=
  ∃ line, lines[k]? = some line ∧ line.IsBareLabel (SourceLine.declared lines) ∧
    0x10000 < endOf (SourceLine.declared lines) (lines.take k)

end SourceLine

/-! ## Lines that do not fit -/

section BareLabel

variable {scope : Scope} {counter : Nat} {name : String} {operands : List String}

theorem isBareLabel_iff {declared : List String} :
    isBareLabel declared name operands = true ↔
      Mnemonic.find? name = none ∧ operands = [] ∧ name ∈ declared := by
  simp [isBareLabel, and_assoc]

/-- The name of a label alone is right wherever it stands, and has no words. -/
theorem Statement.words_of_bareLabel (hm : Mnemonic.find? name = none)
    (hdeclared : name ∈ scope.declared) :
    (instruction name []).words scope counter = .ok [] := by
  have hbare := isBareLabel_iff.2 ⟨hm, rfl, hdeclared⟩
  have hsize : (instruction name []).size scope.declared = 0 := if_pos hbare
  simp only [words, hsize, instructionWords, hm, hbare]
  rfl

end BareLabel

namespace PlacedLine

variable {scope : Scope} {p : PlacedLine}

/-- Words fit where there are any, so that only a line without words can be out of place. -/
theorem not_fits_iff (hdata : p.line.statement ≠ .ok (.data [])) :
    ¬p.Fits scope ↔ p.line.IsBareLabel scope.declared ∧ 0x10000 < p.counter := by
  constructor
  · intro h
    simp only [Fits, not_forall] at h
    obtain ⟨ws, hwords, hroom⟩ := h
    obtain ⟨s, hs, hemits, hok⟩ := SourceLine.words?_eq_some_iff.1 hwords
    obtain ⟨hsize, hfits⟩ := Statement.length_of_words hok
    -- Words that are there would fit: the statement has none, and so it takes none.
    obtain rfl := hfits.resolve_right hroom
    refine ⟨?_, by simpa using hroom⟩
    cases s with
    | data values =>
      obtain rfl := List.length_eq_zero_iff.1 hsize.symm
      exact absurd hs hdata
    | instruction mnemonic operands =>
      rw [Statement.size] at hsize
      split at hsize
      · next hbare =>
        obtain ⟨hm, rfl, hdeclared⟩ := isBareLabel_iff.1 hbare
        exact ⟨mnemonic, hs, hm, hdeclared⟩
      · cases hsize
    | _ => exact hemits.elim
  · rintro ⟨⟨name, hs, hm, hdeclared⟩, hcounter⟩ hfits
    have hwords : p.line.words? scope p.counter = some (.ok []) :=
      SourceLine.words?_eq_some_iff.2 ⟨_, hs, trivial, Statement.words_of_bareLabel hm hdeclared⟩
    have hroom := hfits [] hwords
    rw [List.length_nil] at hroom
    omega

end PlacedLine

/-! ## Assemblies -/

/-- A line of a source does not fit exactly if it is stray. -/
theorem not_fits_iff_isStray {source : String} {k : Nat} {line : SourceLine}
    (hline : (SourceLine.ofSource source)[k]? = some line) :
    ¬PlacedLine.Fits (SourceLine.scope (SourceLine.ofSource source))
        ⟨SourceLine.counterAt (SourceLine.ofSource source) k, line⟩ ↔
      SourceLine.IsStray (SourceLine.ofSource source) k := by
  have hdata : line.statement ≠ .ok (.data []) := by
    intro hstatement
    rw [SourceLine.statement_of_mem_ofSource (List.mem_of_getElem? hline)] at hstatement
    exact absurd (Statement.length_of_ofLine hstatement).1 (Nat.lt_irrefl 0)
  rw [PlacedLine.not_fits_iff hdata, SourceLine.counterAt_eq_endOf, SourceLine.IsStray]
  constructor
  · rintro ⟨hbare, hcounter⟩
    exact ⟨line, hline, hbare, hcounter⟩
  · rintro ⟨other, hother, hbare, hcounter⟩
    obtain rfl := Option.some.inj (hother.symm.trans hline)
    exact ⟨hbare, hcounter⟩

theorem exists_assemble_iff {source : String} :
    (∃ a, assemble source = .ok a) ↔ ¬∃ k, SourceLine.IsStray (SourceLine.ofSource source) k := by
  constructor
  · rintro ⟨a, ha⟩ ⟨k, line, hline, hstray⟩
    exact (not_fits_iff_isStray hline).2 ⟨line, hline, hstray⟩ (fits_of_assemble ha hline)
  · intro hnone
    refine ⟨_, assembleLines_eq_ok_iff.2 ⟨fun p hp => ?_, rfl⟩⟩
    obtain ⟨k, line, hline, rfl⟩ := SourceLine.exists_of_mem_places hp
    by_contra hfits
    exact hnone ⟨k, (not_fits_iff_isStray hline).1 hfits⟩

/-- A source has no assembly exactly if some line of it is only the name of a label and stands past
    the end of memory. Whether or not there is such a line, the counter with the words of a line
    added to it stays below `2 ^ 32` in a source that is shorter than that by the size of memory.
    If there is none, both walks get to the end, the words of every line are in memory, and this
    has its full size. -/
theorem assemble_eq_error_iff {source : String} (hsize : source.utf8ByteSize < 2 ^ 32 - 0x10000) :
    ((∃ overrun, assemble source = .error overrun) ↔
      ∃ k, SourceLine.IsStray (SourceLine.ofSource source) k) ∧
    (∀ (k : Nat) (line : SourceLine), (SourceLine.ofSource source)[k]? = some line →
      SourceLine.counterAt (SourceLine.ofSource source) k +
        line.size (SourceLine.declared (SourceLine.ofSource source)) < 2 ^ 32) ∧
    ((¬∃ k, SourceLine.IsStray (SourceLine.ofSource source) k) →
      ∃ a, assemble source = .ok a ∧ a.memory.cells.toArray.size = 0x10000 ∧
        ∀ (k : Nat) (line : SourceLine) (ws : List Word),
          (SourceLine.ofSource source)[k]? = some line →
          line.words? (SourceLine.scope (SourceLine.ofSource source))
            (SourceLine.counterAt (SourceLine.ofSource source) k) = some (.ok ws) →
          SourceLine.counterAt (SourceLine.ofSource source) k + ws.length ≤ 0x10000) := by
  refine ⟨?_, fun k line hline => ?_, fun hnone => ?_⟩
  · rw [Except.exists_eq_error_iff, exists_assemble_iff, not_not]
  · rw [SourceLine.counterAt_eq_endOf]
    have hend :=
      SourceLine.endOf_add_size_le (SourceLine.declared (SourceLine.ofSource source)) hline
    omega
  · obtain ⟨a, ha⟩ := exists_assemble_iff.2 hnone
    exact ⟨a, ha, a.memory.cells.size_toArray,
      fun k line ws hline hwords => fits_of_assemble ha hline ws hwords⟩

/-- A name one place farther out than right behind the end of memory. -/
theorem assemble_eq_error_far :
    (".org 0xFFFF\nNOP\nNOP\nend\nend:".utf8ByteSize < 2 ^ 32 - 0x10000) ∧
      ∃ overrun, assemble ".org 0xFFFF\nNOP\nNOP\nend\nend:" = .error overrun := by
  have hsize : ".org 0xFFFF\nNOP\nNOP\nend\nend:".utf8ByteSize < 2 ^ 32 - 0x10000 := by decide
  refine ⟨hsize, (assemble_eq_error_iff hsize).1.2 ⟨3, ?_⟩⟩
  exact ⟨⟨4, "end", .ok (.instruction "end" [])⟩, rfl, ⟨"end", rfl, by decide, by decide⟩,
    by decide +kernel⟩

end WordMachine
