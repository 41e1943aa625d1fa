import WordMachine.Proofs.Assembly.Image
import WordMachine.Proofs.Assembly.Overrun
import WordMachine.Proofs.Assembly.Visits

/-!
# Editing an instruction

An instruction that takes a word takes it whether or not it is right, and binds nothing. So another
instruction in its place leaves the walks where they were: the visits to all other lines are the
same (`Visit.ofLines_of_isSingle`), and so are the labels in the end. What is edited shows in the
row of the line alone, and in memory at most at the address of the row (`assemble_edited`).
-/

namespace WordMachine

/-! ## Memory beside what is edited -/

namespace Memory

variable {m m' : Memory} {cs ds : List Change} {x : Word}

theorem read_writeChanges_congr (h : m.read x = m'.read x) (cs : List Change) :
    (m.writeChanges cs).read x = (m'.writeChanges cs).read x := by
  by_cases hwritten : ∃ c ∈ cs, c.address = x
  · exact read_writeChanges_of_mem hwritten
  · push Not at hwritten
    rw [read_writeChanges_of_forall_ne hwritten, read_writeChanges_of_forall_ne hwritten, h]

/-- Changes at other addresses can stand for one another among changes. -/
theorem read_writeChanges_of_beside (hcs : ∀ c ∈ cs, c.address ≠ x) (hds : ∀ c ∈ ds, c.address ≠ x)
    (m : Memory) (before behind : List Change) :
    (m.writeChanges (before ++ (cs ++ behind))).read x =
      (m.writeChanges (before ++ (ds ++ behind))).read x := by
  simp only [writeChanges_append]
  refine read_writeChanges_congr ?_ behind
  rw [read_writeChanges_of_forall_ne hcs, read_writeChanges_of_forall_ne hds]

end Memory

/-- A row with no more than one word changes nothing but at its address. -/
theorem Row.address_of_mem_changes {row : Row} (h : row.words.length ≤ 1) {c : Change}
    (hc : c ∈ row.changes) : row.address = some c.address := by
  rw [changes] at hc
  split at hc
  · cases hc
  · next start hstart =>
    rw [hstart]
    cases hwords : row.words with
    | nil => simp [hwords] at hc
    | cons w ws =>
      obtain rfl : ws = [] := by simpa [hwords] using h
      obtain rfl : c = ⟨start + BitVec.ofNat 16 0, w⟩ := by simpa [hwords] using hc
      exact congrArg some (BitVec.add_zero start).symm

/-! ## Instructions that take a word -/

/-- The text is an instruction, right or wrong, that takes one word. -/
def Statement.IsSingle (declared : List String) (text : List Char) : Prop :=
  ∃ mnemonic operands, ofLine text = .ok (.instruction mnemonic operands) ∧
    (instruction mnemonic operands).size declared = 1

namespace SourceLine

/-- The line is an instruction, right or wrong, that takes one word. -/
def IsSingle (declared : List String) (line : SourceLine) : Prop :=
  ∃ mnemonic operands, line.statement = .ok (.instruction mnemonic operands) ∧
    (Statement.instruction mnemonic operands).size declared = 1

variable {names : List String} {line line' : SourceLine} {counter : Nat} {symbols : SymbolTable}
  {before behind : List SourceLine}

theorem IsSingle.label?_eq_none (h : line.IsSingle names) : line.label? = none := by
  obtain ⟨mnemonic, operands, hs, -⟩ := h
  simp only [label?, hs]

theorem IsSingle.next (h : line.IsSingle names) : line.next names counter = counter + 1 := by
  obtain ⟨mnemonic, operands, hs, hsize⟩ := h
  simp only [SourceLine.next, hs, hsize]

theorem IsSingle.bind (h : line.IsSingle names) :
    line.bind symbols counter = (symbols, none) := by
  obtain ⟨mnemonic, operands, hs, -⟩ := h
  exact bind_of_emits hs trivial symbols counter

/-- Names are declared beside such a line. -/
theorem declared_of_isSingle (h : line.IsSingle names) :
    declared (before ++ line :: behind) = declared before ++ declared behind := by
  rw [declared, List.filterMap_append, List.filterMap_cons_none h.label?_eq_none]
  rfl

/-- Such a line binds nothing, and moves the lines behind it by its word. -/
theorem bindLabels_of_isSingle (h : line.IsSingle names) :
    (bindLabels names counter symbols (before ++ line :: behind)).1 =
      (bindLabels names
        (before.foldl (fun counter line => line.next names counter) counter + 1)
        (bindLabels names counter symbols before).1 behind).1 := by
  rw [bindLabels_append]
  simp only [bindLabels, h.next, h.bind]

end SourceLine

namespace Visit

/-- There is a place for the word of such a line, and its row shows the place, and the word or
    none. -/
theorem row_of_isSingle (scope : Scope) {v : Visit} (h : v.line.IsSingle scope.declared) :
    v.place.Fits scope ∧ (v.row scope).words.length ≤ 1 ∧
      (v.row scope).address = address? v.counter := by
  obtain ⟨mnemonic, operands, hs, hsize⟩ := h
  have hone : ∀ ws, v.line.words? scope v.counter = some (.ok ws) →
      ws.length = 1 ∧ v.counter + ws.length ≤ 0x10000 := by
    intro ws hws
    obtain ⟨s, hstatement, -, hwords⟩ := SourceLine.words?_eq_some_iff.1 hws
    obtain rfl := Except.ok.inj (hs.symm.trans hstatement)
    obtain ⟨hlength, hroom⟩ := Statement.length_of_words hwords
    rw [hsize] at hlength
    exact ⟨hlength, hroom.resolve_left (List.ne_nil_of_length_eq_add_one hlength)⟩
  refine ⟨fun ws hws => (hone ws hws).2, ?_, SourceLine.address?_of_emits hs trivial v.counter⟩
  rw [row, PlacedLine.words]
  split
  · next ws hws => exact (hone ws hws).1.le
  · exact Nat.zero_le 1

/-- The visits to the lines beside an instruction that takes a word do not tell which it is. -/
theorem ofLines_of_isSingle {names : List String} {line : SourceLine}
    (h : line.IsSingle names) (counter : Nat) (symbols : SymbolTable)
    (before behind : List SourceLine) :
    ofLines names counter symbols (before ++ line :: behind) =
      ofLines names counter symbols before ++
        ⟨before.foldl (fun counter line => line.next names counter) counter,
          (bindLabels names counter symbols before).1, line⟩ ::
        ofLines names (before.foldl (fun counter line => line.next names counter) counter + 1)
          (bindLabels names counter symbols before).1 behind := by
  rw [ofLines_append, ofLines, h.next, h.bind]

end Visit

/-! ## Two sources -/

namespace SourceLine

variable {before behind : List SourceLine} {line line' : SourceLine}

/-- With one such line for another the names mean the same, and no other visit is changed. -/
theorem visits_of_isSingle (h : line.IsSingle (declared (before ++ line :: behind)))
    (h' : line'.IsSingle (declared (before ++ line' :: behind))) :
    scope (before ++ line' :: behind) = scope (before ++ line :: behind) ∧
      ∃ (first last : List Visit) (counter : Nat) (symbols : SymbolTable),
        first.length = before.length ∧
        visits (before ++ line :: behind) = first ++ ⟨counter, symbols, line⟩ :: last ∧
        visits (before ++ line' :: behind) = first ++ ⟨counter, symbols, line'⟩ :: last := by
  have hnames : declared (before ++ line' :: behind) = declared (before ++ line :: behind) :=
    (declared_of_isSingle h').trans (declared_of_isSingle h).symm
  rw [hnames] at h'
  constructor
  · rw [scope, scope, hnames, bindLabels_of_isSingle h, bindLabels_of_isSingle h']
  · refine ⟨_, _, _, _, Visit.length_ofLines .., Visit.ofLines_of_isSingle h 0 [] before behind, ?_⟩
    rw [visits, hnames]
    exact Visit.ofLines_of_isSingle h' 0 [] before behind

end SourceLine

/-- The fault of a row is not among those of other lines. -/
theorem filter_filterMap_lineFault?_cons (row : Row) (rows : List Row) :
    ((row :: rows).filterMap Row.lineFault?).filter (·.line ≠ row.line) =
      (rows.filterMap Row.lineFault?).filter (·.line ≠ row.line) := by
  cases hfault : row.fault with
  | none => rw [List.filterMap_cons_none (by rw [Row.lineFault?, hfault, Option.map_none])]
  | some fault =>
    rw [List.filterMap_cons_some (by rw [Row.lineFault?, hfault, Option.map_some]),
      List.filter_cons_of_neg (by simp)]

section Edited

variable {source edited : String} {before behind : List (List Char)} {text text' : List Char}
  (hsource : Text.lines source.toList = before ++ text :: behind)
  (hedited : Text.lines edited.toList = before ++ text' :: behind)
  (htext : Statement.IsSingle (SourceLine.declared (SourceLine.ofSource source)) text)
  (htext' : Statement.IsSingle (SourceLine.declared (SourceLine.ofSource edited)) text')

include hsource hedited htext htext'

/-- The visits to the lines of both sources: one differs, and has the same counter in both. -/
theorem exists_visits_of_edited :
    SourceLine.scope (SourceLine.ofSource edited) = SourceLine.scope (SourceLine.ofSource source) ∧
      ∃ (first last : List Visit) (v v' : Visit),
        first.length = before.length ∧
        SourceLine.visits (SourceLine.ofSource source) = first ++ v :: last ∧
        SourceLine.visits (SourceLine.ofSource edited) = first ++ v' :: last ∧
        v'.counter = v.counter ∧
        v.line.number = before.length + 1 ∧
        v'.line.number = before.length + 1 ∧
        v.line.IsSingle (SourceLine.declared (SourceLine.ofSource source)) ∧
        v'.line.IsSingle (SourceLine.declared (SourceLine.ofSource edited)) := by
  have hlines := SourceLine.ofSource_eq_append hsource
  have hlines' := SourceLine.ofSource_eq_append hedited
  rw [hlines] at htext ⊢
  rw [hlines'] at htext' ⊢
  obtain ⟨hscope, first, last, counter, symbols, hfirst, hvisits, hvisits'⟩ :=
    @SourceLine.visits_of_isSingle _ _ ⟨_, _, _⟩ ⟨_, _, _⟩ htext htext'
  exact ⟨hscope, first, last, _, _, hfirst.trans (SourceLine.length_ofTexts ..), hvisits, hvisits',
    rfl, Nat.add_comm .., Nat.add_comm .., htext, htext'⟩

theorem exists_assemble_edited_iff :
    (∃ b, assemble edited = .ok b) ↔ ∃ a, assemble source = .ok a := by
  obtain ⟨hscope, first, last, v, v', -, hvisits, hvisits', -, -, -, hline, hline'⟩ :=
    exists_visits_of_edited hsource hedited htext htext'
  have hfits := (v.row_of_isSingle (SourceLine.scope (SourceLine.ofSource source)) hline).1
  have hfits' := (v'.row_of_isSingle (SourceLine.scope (SourceLine.ofSource edited)) hline').1
  rw [hscope] at hfits'
  rw [exists_assemble_iff_fits, exists_assemble_iff_fits, hvisits, hvisits', hscope]
  simp only [List.forall_mem_append, List.forall_mem_cons, hfits, hfits', true_and]

/-- The listings of both sources: one row differs, and has the same address in both. -/
theorem exists_rows_of_edited {a b : Assembly} (ha : assemble source = .ok a)
    (hb : assemble edited = .ok b) :
    ∃ (first last : List Row) (row row' : Row),
      first.length = before.length ∧
      a.listing = first ++ row :: last ∧
      b.listing = first ++ row' :: last ∧
      row'.address = row.address ∧
      row.line = before.length + 1 ∧
      row'.line = before.length + 1 ∧
      row.words.length ≤ 1 ∧
      row'.words.length ≤ 1 := by
  obtain ⟨hscope, first, last, v, v', hfirst, hvisits, hvisits', hcounter, hnumber, hnumber',
    hline, hline'⟩ := exists_visits_of_edited hsource hedited htext htext'
  obtain ⟨-, hwords, haddress⟩ :=
    v.row_of_isSingle (SourceLine.scope (SourceLine.ofSource source)) hline
  obtain ⟨-, hwords', haddress'⟩ :=
    v'.row_of_isSingle (SourceLine.scope (SourceLine.ofSource edited)) hline'
  have hlisting := listing_eq_map_visits ha
  have hlisting' := listing_eq_map_visits hb
  rw [hvisits, List.map_append, List.map_cons] at hlisting
  rw [hvisits', List.map_append, List.map_cons] at hlisting'
  rw [hscope] at hlisting' hwords' haddress'
  exact ⟨_, _, _, _, (List.length_map _).trans hfirst, hlisting, hlisting',
    by rw [haddress', haddress, hcounter], hnumber, hnumber', hwords, hwords'⟩

end Edited

/-- One instruction in the place of another, both right or wrong and with room for one word, is
    contained in its line. The source with the one has an assembly exactly if the source with the
    other has. The labels are the same in both, and so are the rows and the faults of all other
    lines; the row of the line has the same address, and at every other address memory is the
    same. -/
theorem assemble_edited {source edited : String} {before behind : List (List Char)}
    {text text' : List Char} (hsource : Text.lines source.toList = before ++ text :: behind)
    (hedited : Text.lines edited.toList = before ++ text' :: behind)
    (htext : Statement.IsSingle (SourceLine.declared (SourceLine.ofSource source)) text)
    (htext' : Statement.IsSingle (SourceLine.declared (SourceLine.ofSource edited)) text') :
    ((∃ overrun, assemble edited = .error overrun) ↔
      ∃ overrun, assemble source = .error overrun) ∧
    ∀ a b, assemble source = .ok a → assemble edited = .ok b →
      b.symbols = a.symbols ∧
      b.listing.length = a.listing.length ∧
      (∀ k ≠ before.length, b.listing[k]? = a.listing[k]?) ∧
      b.faults.filter (·.line ≠ before.length + 1) =
        a.faults.filter (·.line ≠ before.length + 1) ∧
      ∃ row row', a.listing[before.length]? = some row ∧ b.listing[before.length]? = some row' ∧
        row'.address = row.address ∧
        ∀ x, row.address ≠ some x → b.memory.read x = a.memory.read x := by
  constructor
  · rw [Except.exists_eq_error_iff, Except.exists_eq_error_iff,
      exists_assemble_edited_iff hsource hedited htext htext']
  intro a b ha hb
  obtain ⟨first, last, row, row', hfirst, hlisting, hlisting', haddress, hnumber, hnumber', hwords,
    hwords'⟩ := exists_rows_of_edited hsource hedited htext htext' ha hb
  have hscope := (exists_visits_of_edited hsource hedited htext htext').1
  rw [← hnumber, Assembly.faults_eq_filterMap ha, Assembly.faults_eq_filterMap hb,
    Assembly.memory_eq_writeChanges ha, Assembly.memory_eq_writeChanges hb, Assembly.changes,
    Assembly.changes, symbols_of_assemble ha, symbols_of_assemble hb, hscope, hlisting, hlisting',
    ← hfirst]
  refine ⟨rfl, ?_, fun k hk => ?_, ?_, row, row', ?_, ?_, haddress, fun x hx => ?_⟩
  · rw [List.length_append, List.length_append, List.length_cons, List.length_cons]
  · rw [List.getElem?_append, List.getElem?_append]
    split
    · rfl
    · rw [List.getElem?_cons, List.getElem?_cons, if_neg (by omega), if_neg (by omega)]
  · have hother := filter_filterMap_lineFault?_cons row' last
    rw [hnumber', ← hnumber] at hother
    rw [List.filterMap_append, List.filterMap_append, List.filter_append, List.filter_append,
      filter_filterMap_lineFault?_cons, hother]
  · rw [List.getElem?_append_right (Nat.le_refl _), Nat.sub_self]
    rfl
  · rw [List.getElem?_append_right (Nat.le_refl _), Nat.sub_self]
    rfl
  · rw [List.flatMap_append, List.flatMap_append, List.flatMap_cons, List.flatMap_cons]
    refine Memory.read_writeChanges_of_beside (fun c hc heq => hx ?_) (fun c hc heq => hx ?_) ..
    · rw [← heq, ← haddress]
      exact Row.address_of_mem_changes hwords' hc
    · rw [← heq]
      exact Row.address_of_mem_changes hwords hc

/-- A mnemonic that there is not, and one that there is in its place, between labels and with a word
    written over it later: the fault is there or not, the branch is the same. -/
theorem assemble_edited_unknown :
    ∃ a b, assemble ".org 2\nx:\nFROB x\nJZ x\nx:\n.org 2\n.word 7" = .ok a ∧
      assemble ".org 2\nx:\nNOP\nJZ x\nx:\n.org 2\n.word 7" = .ok b ∧
      b.symbols = a.symbols ∧ b.listing[3]? = a.listing[3]? ∧
      b.faults.filter (·.line ≠ 3) = a.faults.filter (·.line ≠ 3) ∧
      ∀ x, x ≠ 2 → b.memory.read x = a.memory.read x := by
  obtain ⟨a, ha⟩ := exists_assemble ".org 2\nx:\nFROB x\nJZ x\nx:\n.org 2\n.word 7"
    (by decide +kernel)
  obtain ⟨b, hb⟩ := exists_assemble ".org 2\nx:\nNOP\nJZ x\nx:\n.org 2\n.word 7"
    (by decide +kernel)
  have hlines : Text.lines ".org 2\nx:\nFROB x\nJZ x\nx:\n.org 2\n.word 7".toList =
      [".org 2".toList, "x:".toList] ++ "FROB x".toList ::
        ["JZ x".toList, "x:".toList, ".org 2".toList, ".word 7".toList] := by decide +kernel
  have hlines' : Text.lines ".org 2\nx:\nNOP\nJZ x\nx:\n.org 2\n.word 7".toList =
      [".org 2".toList, "x:".toList] ++ "NOP".toList ::
        ["JZ x".toList, "x:".toList, ".org 2".toList, ".word 7".toList] := by decide +kernel
  obtain ⟨hsymbols, -, hrows, hfaults, row, row', hrow, -, -, hmemory⟩ :=
    (assemble_edited hlines hlines' ⟨"FROB", ["x"], by decide +kernel, by decide +kernel⟩
      ⟨"NOP", [], by decide +kernel, by decide +kernel⟩).2 a b ha hb
  have haddress : row.address = some 2 := by
    rw [listing_of_assemble ha] at hrow
    have hshown := congrArg (Option.map Row.address) hrow
    exact Option.some.inj (hshown.symm.trans (by decide +kernel))
  exact ⟨a, b, ha, hb, hsymbols, hrows 3 (by decide), hfaults,
    fun x hx => hmemory x fun heq => hx (Option.some.inj (heq.symm.trans haddress))⟩

end WordMachine
