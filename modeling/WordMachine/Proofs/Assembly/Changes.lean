import WordMachine.Proofs.Assembly.Places
import WordMachine.Proofs.Memory

/-!
# The memory and the changes of an assembly

An assembly shows its words twice, in the memory that they were copied to and in the rows of its
listing. Writing the words of the rows one at a time gives that memory
(`Assembly.memory_eq_writeChanges`): where a line has words, it has an address for each of them.
So the memory holds at every address what the last row with a word there has there
(`PlacedLine.read_foldl_write`), and both show every word that is assembled, with no fault or
with some (`assemble_memory_of_changes`).
-/

namespace WordMachine

/-- The memory with words written at their addresses, in order. -/
def Memory.writeChanges (m : Memory) (changes : List Change) : Memory :=
  changes.foldl (fun m change => m.write change.address change.value) m

theorem Memory.writeChanges_cons (m : Memory) (c : Change) (cs : List Change) :
    m.writeChanges (c :: cs) = (m.write c.address c.value).writeChanges cs := rfl

theorem Memory.writeChanges_append (m : Memory) (cs ds : List Change) :
    m.writeChanges (cs ++ ds) = (m.writeChanges cs).writeChanges ds :=
  List.foldl_append

/-- Words at addresses that follow one another are written one after another. -/
theorem Memory.writeChanges_zipIdx (m : Memory) (start : Word) (k : Nat) (ws : List Word)
    (h : start.toNat + k + ws.length ≤ 0x10000) :
    m.writeChanges ((ws.zipIdx k).map fun (w, i) => ⟨start + BitVec.ofNat 16 i, w⟩)
      = m.writeFrom (start.toNat + k) ws := by
  induction ws generalizing m k with
  | nil => rfl
  | cons w ws ih =>
    rw [List.length_cons] at h
    have haddress : start + BitVec.ofNat 16 k = BitVec.ofNat 16 (start.toNat + k) := by
      rw [← BitVec.toNat_inj, toNat_add_ofNat_of_lt (by omega), toNat_ofNat_of_lt (by omega)]
    rw [List.zipIdx_cons, List.map_cons, writeFrom_cons _ _ _ _ (by omega), ← haddress]
    exact ih (m.write (start + BitVec.ofNat 16 k) w) (k + 1) (by omega)

namespace PlacedLine

variable {scope : Scope} {early : List LineFault} {p : PlacedLine}

/-- A line that has words is at an address, and its row shows it. -/
theorem address?_of_words_ne_nil (hfits : p.Fits scope) (h : p.words scope ≠ []) :
    p.counter + (p.words scope).length ≤ 0x10000 ∧
      p.line.address? p.counter = some (BitVec.ofNat 16 p.counter) := by
  rw [words] at h ⊢
  split at h
  · next ws hws =>
    have hroom := hfits ws hws
    have hpos := List.length_pos_iff.2 h
    refine ⟨hroom, ?_⟩
    obtain ⟨s, hstatement, hemits, -⟩ := SourceLine.words?_eq_some_iff.1 hws
    rw [SourceLine.address?_of_emits hstatement hemits, address?, if_pos (by omega)]
  · exact absurd rfl h

/-- Copying the words of a line is writing the words of its row. -/
theorem write_eq_writeChanges (hfits : p.Fits scope) (m : Memory) :
    p.write scope m = m.writeChanges (p.row scope early).changes := by
  by_cases h : p.words scope = []
  · have hchanges : (p.row scope early).changes = [] := by
      rw [Row.changes, row, h]
      split <;> rfl
    rw [hchanges, write, h]
    rfl
  · obtain ⟨hroom, haddress⟩ := address?_of_words_ne_nil hfits h
    have hpos := List.length_pos_iff.2 h
    have hcounter : (BitVec.ofNat 16 p.counter).toNat = p.counter :=
      Memory.toNat_ofNat_of_lt (by omega)
    have hall := m.writeChanges_zipIdx (BitVec.ofNat 16 p.counter) 0 (p.words scope)
      (by rw [hcounter]; exact hroom)
    rw [Row.changes, row, haddress, hall, hcounter]
    rfl

/-- Each word of a line has its change, at an address that is counted on from that of the row and
    does not go past the last one. -/
theorem getElem?_changes (hfits : p.Fits scope) {i : Nat} {w : Word}
    (hw : (p.words scope)[i]? = some w) :
    ∃ start, p.line.address? p.counter = some start ∧ start.toNat + i ≤ 0xFFFF ∧
      (p.row scope early).changes[i]? = some ⟨start + BitVec.ofNat 16 i, w⟩ := by
  obtain ⟨hi, -⟩ := List.getElem?_eq_some_iff.1 hw
  obtain ⟨hroom, haddress⟩ := address?_of_words_ne_nil hfits (List.ne_nil_of_length_pos (by omega))
  refine ⟨_, haddress, ?_, ?_⟩
  · rw [Memory.toNat_ofNat_of_lt (by omega)]
    omega
  · rw [Row.changes, row, haddress]
    simp [hw]

theorem length_changes (hfits : p.Fits scope) :
    (p.row scope early).changes.length = (p.words scope).length := by
  by_cases h : p.words scope = []
  · rw [Row.changes, row, h]
    cases p.line.address? p.counter <;> rfl
  · rw [Row.changes, row, (address?_of_words_ne_nil hfits h).2]
    simp

theorem foldl_write_eq_writeChanges {ps : List PlacedLine} (hfits : ∀ p ∈ ps, p.Fits scope)
    (m : Memory) :
    ps.foldl (fun m p => p.write scope m) m
      = m.writeChanges (ps.flatMap fun p => (p.row scope early).changes) := by
  induction ps generalizing m with
  | nil => rfl
  | cons p ps ih =>
    obtain ⟨hp, hps⟩ := List.forall_mem_cons.1 hfits
    rw [List.foldl_cons, List.flatMap_cons, Memory.writeChanges_append, ih hps,
      write_eq_writeChanges hp]

end PlacedLine

/-! ## The last word at an address -/

/-- The word that a row has at an address, if it has one there: its words stand one behind the
    other from its own address on, and do not go on at the first address after the last one. -/
def Row.word? (row : Row) (a : Word) : Option Word :=
  match row.address with
  | none => none
  | some start => if start.toNat ≤ a.toNat then row.words[a.toNat - start.toNat]? else none

namespace PlacedLine

variable {scope : Scope} {early : List LineFault} {p : PlacedLine}

/-- Behind a line, its word is read wherever its row has one, and what was there before wherever
    it has none. -/
theorem read_write (early : List LineFault) (hfits : p.Fits scope) (m : Memory) (a : Word) :
    (p.write scope m).read a = ((p.row scope early).word? a).getD (m.read a) := by
  rw [write, Memory.read_writeFrom, Row.word?, row]
  by_cases h : p.words scope = []
  · rw [h]
    cases p.line.address? p.counter <;> simp
  · obtain ⟨hroom, haddress⟩ := address?_of_words_ne_nil hfits h
    have hpos := List.length_pos_iff.2 h
    simp only [haddress, Memory.toNat_ofNat_of_lt (show p.counter < 0x10000 by omega)]
    split <;> rfl

/-- Behind lines, the word of the last of their rows with a word at an address is read there. -/
theorem read_foldl_write {ps : List PlacedLine} (hfits : ∀ p ∈ ps, p.Fits scope) (m : Memory)
    (a : Word) :
    (ps.foldl (fun m p => p.write scope m) m).read a =
      ((ps.map (row scope early)).reverse.findSome? (·.word? a)).getD (m.read a) := by
  induction ps generalizing m with
  | nil => rfl
  | cons p ps ih =>
    obtain ⟨hp, hps⟩ := List.forall_mem_cons.1 hfits
    rw [List.foldl_cons, ih hps, read_write early hp, List.map_cons, List.reverse_cons,
      List.findSome?_append, List.findSome?_singleton, Option.getD_or]

end PlacedLine

/-! ## Assemblies -/

/-- The memory of an assembly is made by its changes. -/
theorem Assembly.memory_eq_writeChanges {source : String} {a : Assembly}
    (h : assemble source = .ok a) : a.memory = (Memory.filled 0).writeChanges a.changes := by
  obtain ⟨hfits, rfl⟩ := assembleLines_eq_ok_iff.1 h
  rw [Assembly.changes, List.flatMap_map]
  exact PlacedLine.foldl_write_eq_writeChanges hfits _

/-- The memory of an assembly, right or wrong, and its changes are two views of the same words.
    Writing the changes in order gives the memory, which therefore holds at an address the word of
    the last row that has one there, or zero. Every word of a row has its change, at an address
    that is counted on from that of the row without going round; and the words that a line
    assembles to are those of its row, which shows where the address counter stands. -/
theorem assemble_memory_of_changes {source : String} {a : Assembly}
    (h : assemble source = .ok a) :
    (Memory.filled 0).writeChanges a.changes = a.memory ∧
    (∀ x, a.memory.read x = (a.listing.reverse.findSome? (·.word? x)).getD 0) ∧
    (∀ row ∈ a.listing, row.changes.length = row.words.length ∧
      ∀ (i : Nat) (w : Word), row.words[i]? = some w →
        ∃ start, row.address = some start ∧ start.toNat + i ≤ 0xFFFF ∧
          row.changes[i]? = some ⟨start + BitVec.ofNat 16 i, w⟩) ∧
    (∀ (k : Nat) (line : SourceLine) (ws : List Word),
      (SourceLine.ofSource source)[k]? = some line →
      line.words? (SourceLine.scope (SourceLine.ofSource source))
        (SourceLine.counterAt (SourceLine.ofSource source) k) = some (.ok ws) →
      ∃ row, a.listing[k]? = some row ∧ row.words = ws ∧ (ws ≠ [] →
        row.address = some (BitVec.ofNat 16 (SourceLine.counterAt (SourceLine.ofSource source) k)) ∧
        SourceLine.counterAt (SourceLine.ofSource source) k + ws.length ≤ 0x10000)) := by
  refine ⟨(Assembly.memory_eq_writeChanges h).symm, fun x => ?_, fun row hrow => ?_,
    fun k line ws hline hws => ?_⟩
  · obtain ⟨hfits, rfl⟩ := assembleLines_eq_ok_iff.1 h
    rw [PlacedLine.read_foldl_write hfits, Memory.read_filled]
  · obtain ⟨hfits, rfl⟩ := assembleLines_eq_ok_iff.1 h
    obtain ⟨p, hp, rfl⟩ := List.mem_map.1 hrow
    exact ⟨PlacedLine.length_changes (hfits p hp),
      fun i w hw => PlacedLine.getElem?_changes (hfits p hp) hw⟩
  · have hwords : PlacedLine.words (SourceLine.scope (SourceLine.ofSource source))
        ⟨SourceLine.counterAt (SourceLine.ofSource source) k, line⟩ = ws := by
      simp only [PlacedLine.words, hws]
    refine ⟨_, getElem?_listing h hline, hwords, fun hne => ?_⟩
    obtain ⟨hroom, haddress⟩ :=
      PlacedLine.address?_of_words_ne_nil (fits_of_assemble h hline) (hwords ▸ hne)
    exact ⟨haddress, hwords ▸ hroom⟩

/-- Data of which the last word is written over from an origin on, with a wrong line between. -/
theorem assemble_memory_of_changes_overlap :
    ∃ a, assemble ".org 5\n.word 1, 2\nFROB\n.org 6\n.word 3" = .ok a ∧
      a.changes = [⟨5, 1⟩, ⟨6, 2⟩, ⟨6, 3⟩] ∧ (Memory.filled 0).writeChanges a.changes = a.memory ∧
      a.memory.read 6 = 3 ∧ a.memory.read 7 = 0 := by
  obtain ⟨a, ha⟩ :=
    exists_assemble ".org 5\n.word 1, 2\nFROB\n.org 6\n.word 3" (by decide +kernel)
  obtain ⟨hmemory, hread, -, -⟩ := assemble_memory_of_changes ha
  have hlisting := listing_of_assemble ha
  refine ⟨a, ha, ?_, hmemory, ?_, ?_⟩
  · rw [Assembly.changes, hlisting]
    decide +kernel
  · rw [hread, hlisting]
    decide +kernel
  · rw [hread, hlisting]
    decide +kernel

end WordMachine
