import WordMachine.Assembly.Basic
import WordMachine.Proofs.Except
import WordMachine.Proofs.Source.Line

/-!
# The places of lines

Both walks over the lines move the address counter in the same way, whatever they find in a
line. So every line has its *place*, the line with the counter before it (`PlacedLine.ofLines`), and
the second walk does at each place what depends on that place alone: it puts words into memory,
makes a row and marks a fault. It gets to the end exactly if at each place the words fit
(`placeWords_eq_ok_iff`), and an assembly is made of what is done at the places
(`assembleLines_eq_ok_iff`).

The first walk finds faults only in lines that say nothing right or declare a label
(`earlyFault?_eq_none`), and it binds only the names of labels (`exists_of_mem_bindLabels`).
-/

namespace WordMachine

/-- A line, and where the address counter stands before it. -/
structure PlacedLine where
  counter : Nat
  line : SourceLine

namespace PlacedLine

/-- The places of lines that stand one after another. -/
def ofLines (declared : List String) (counter : Nat) : List SourceLine → List PlacedLine
  | [] => []
  | line :: rest => ⟨counter, line⟩ :: ofLines declared (line.next declared counter) rest

/-- The counter at a place is where the lines before it have moved it. -/
theorem getElem?_ofLines (declared : List String) (counter : Nat) (lines : List SourceLine)
    (k : Nat) :
    (ofLines declared counter lines)[k]? = lines[k]?.map fun line =>
      ⟨(lines.take k).foldl (fun counter line => line.next declared counter) counter, line⟩ := by
  induction lines generalizing counter k with
  | nil => rfl
  | cons line rest ih =>
    cases k with
    | zero => rfl
    | succ k =>
      rw [ofLines, List.getElem?_cons_succ, ih]
      rfl

theorem length_ofLines (declared : List String) (counter : Nat) (lines : List SourceLine) :
    (ofLines declared counter lines).length = lines.length := by
  induction lines generalizing counter with
  | nil => rfl
  | cons line rest ih => rw [ofLines, List.length_cons, ih, List.length_cons]

/-! ## The second walk at a place -/

section Walk

variable (scope : Scope) (early : List LineFault) (p : PlacedLine)

/-- The words that the line puts into memory. -/
def words : List Word :=
  match p.line.words? scope p.counter with
  | some (.ok words) => words
  | _ => []

/-- The fault that the line has in the second walk. -/
def late : Option Fault :=
  match p.line.words? scope p.counter with
  | some (.error fault) => some fault
  | _ => none

theorem late_eq_some_iff {scope : Scope} {p : PlacedLine} {fault : Fault} :
    p.late scope = some fault ↔ p.line.words? scope p.counter = some (.error fault) := by
  rw [late]
  split <;> simp_all

/-- The words of the line can be copied to its place. Where there are no words to copy, the place
    still has to be in memory or right behind it. -/
def Fits : Prop :=
  ∀ words, p.line.words? scope p.counter = some (.ok words) →
    p.counter + words.length ≤ 0x10000

/-- The row of the line. -/
def row : Row :=
  ⟨p.line.number, p.line.address? p.counter, p.words scope, p.line.text,
    (p.late scope).or (earlyFault? early p.line)⟩

/-- The memory with the words of the line. -/
def write (memory : Memory) : Memory := memory.writeFrom p.counter (p.words scope)

end Walk

variable {scope : Scope} {early : List LineFault} {counter : Nat} {memory : Memory}
  {line : SourceLine} {lines rest : List SourceLine}

theorem placeWords_cons_of_fits (h : Fits scope ⟨counter, line⟩) :
    placeWords scope early counter memory (line :: rest) =
      (placeWords scope early (line.next scope.declared counter)
        (write scope ⟨counter, line⟩ memory) rest).map fun others =>
          ⟨others.memory, row scope early ⟨counter, line⟩ :: others.rows,
            line.mark (late scope ⟨counter, line⟩) ++ others.faults⟩ := by
  rw [Fits] at h
  rw [placeWords]
  cases hwords : line.words? scope counter with
  | none =>
    simp only [write, row, words, late, hwords, Memory.writeFrom, Except.ok_bind,
      Except.bind_ok_eq_map]
  | some result =>
    cases result with
    | error fault =>
      simp only [write, row, words, late, hwords, Memory.writeFrom, Except.ok_bind,
        Except.bind_ok_eq_map]
    | ok words =>
      have hcopy : memory.copyIn? counter words = some (memory.writeFrom counter words) :=
        if_pos (h words hwords)
      simp only [write, row, PlacedLine.words, late, hwords, hcopy, Except.ok_bind,
        Except.bind_ok_eq_map]

theorem placeWords_cons_of_not_fits (h : ¬Fits scope ⟨counter, line⟩) :
    placeWords scope early counter memory (line :: rest) = .error ⟨line.number, counter⟩ := by
  simp only [Fits, not_forall] at h
  obtain ⟨words, hwords, hroom⟩ := h
  have hcopy : memory.copyIn? counter words = none := if_neg hroom
  rw [placeWords, hwords]
  simp only [hcopy]
  rfl

/-- The second walk gets to the end exactly if the words of every line fit at their place, and
    then does at every place what depends on the place alone. -/
theorem placeWords_eq_ok_iff {placement : Placement} :
    placeWords scope early counter memory lines = .ok placement ↔
      (∀ p ∈ ofLines scope.declared counter lines, p.Fits scope) ∧
      placement =
        ⟨(ofLines scope.declared counter lines).foldl (fun memory p => p.write scope memory) memory,
          (ofLines scope.declared counter lines).map (row scope early),
          (ofLines scope.declared counter lines).flatMap fun p => p.line.mark (p.late scope)⟩ := by
  induction lines generalizing counter memory placement with
  | nil => simp [placeWords, ofLines, eq_comm]
  | cons line rest ih =>
    rw [ofLines, List.forall_mem_cons, List.foldl_cons, List.map_cons, List.flatMap_cons]
    -- The first place at which words do not fit ends the walk.
    by_cases h : Fits scope ⟨counter, line⟩
    · rw [placeWords_cons_of_fits h, Except.map_eq_ok_iff]
      simp only [ih, h, true_and]
      constructor
      · rintro ⟨_, ⟨hrest, rfl⟩, rfl⟩
        exact ⟨hrest, rfl⟩
      · rintro ⟨hrest, rfl⟩
        exact ⟨_, ⟨hrest, rfl⟩, rfl⟩
    · rw [placeWords_cons_of_not_fits h]
      simp [h]

end PlacedLine

/-! ## Statements that words are assembled from -/

/-- Words are assembled from the statement: it is data or an instruction. -/
def Statement.Emits : Statement → Prop
  | data _ => True
  | instruction _ _ => True
  | _ => False

section Emits

variable {line : SourceLine} {s : Statement} (h : line.statement = .ok s) (hs : s.Emits)

include h hs

theorem SourceLine.address?_of_emits (counter : Nat) :
    line.address? counter = WordMachine.address? counter := by
  cases s with
  | data values => simp only [address?, h]
  | instruction mnemonic operands => simp only [address?, h]
  | _ => exact hs.elim

/-- In the first walk nothing is found in such a line. -/
theorem SourceLine.bind_of_emits (symbols : SymbolTable) (counter : Nat) :
    line.bind symbols counter = (symbols, none) := by
  cases s with
  | data values => simp only [bind, h]
  | instruction mnemonic operands => simp only [bind, h]
  | _ => exact hs.elim

end Emits

/-! ## Words that fit -/

section Fits

variable {scope : Scope} {counter : Nat} {ws : List Word}

/-- An instruction with a mnemonic takes one word. -/
theorem Statement.size_of_mnemonic {declared : List String} {mnemonic : String}
    {operands : List String} {m : Mnemonic} (hm : Mnemonic.find? mnemonic = some m) :
    (instruction mnemonic operands).size declared = 1 := by
  simp [size, isBareLabel, hm]

theorem length_of_instructionWords {mnemonic : String} {operands : List String}
    (h : instructionWords scope counter mnemonic operands = .ok ws) :
    ws.length = (Statement.instruction mnemonic operands).size scope.declared := by
  rw [instructionWords] at h
  split at h
  · next m hm =>
    simp only [Except.bind_eq_ok_iff, Except.ok.injEq] at h
    obtain ⟨i, -, w, -, rfl⟩ := h
    rw [Statement.size_of_mnemonic hm, List.length_singleton]
  · split at h
    · next hbare =>
      obtain rfl := Except.ok.inj h
      rw [Statement.size, if_pos hbare]
      rfl
    · cases h

/-- The words of a line are those of its statement, if that is one from which words are
    assembled. -/
theorem SourceLine.words?_eq_some_iff {line : SourceLine} {result : Except Fault (List Word)} :
    line.words? scope counter = some result ↔
      ∃ s, line.statement = .ok s ∧ s.Emits ∧ s.words scope counter = result := by
  rw [words?]
  split
  · next values hstatement =>
    simp [hstatement, Statement.Emits]
  · next mnemonic operands hstatement =>
    simp [hstatement, Statement.Emits]
  · next hdata hinstruction =>
    refine ⟨nofun, ?_⟩
    rintro ⟨s, hs, hemits, -⟩
    cases s with
    | data values => exact absurd hs (hdata values)
    | instruction mnemonic operands => exact absurd hs (hinstruction mnemonic operands)
    | _ => exact hemits.elim

/-- A statement without a fault has the words that it takes, and has none at all or there are
    addresses for all of them. -/
theorem Statement.length_of_words {s : Statement} (h : s.words scope counter = .ok ws) :
    ws.length = s.size scope.declared ∧ (ws = [] ∨ counter + ws.length ≤ 0x10000) := by
  simp only [words] at h
  split at h
  · cases h
  · next hroom =>
    have hlength : ws.length = s.size scope.declared := by
      split at h
      · exact Except.length_of_mapM_eq_ok h
      · exact length_of_instructionWords h
      · next hdata hinstruction =>
        obtain rfl := Except.ok.inj h
        cases s with
        | data values => exact absurd rfl (hdata values)
        | instruction mnemonic operands => exact absurd rfl (hinstruction mnemonic operands)
        | _ => rfl
    refine ⟨hlength, ?_⟩
    by_cases hempty : ws = []
    · exact .inl hempty
    · have := List.length_pos_iff.2 hempty
      exact .inr (by omega)

/-- The words of a line fit at its place unless that is past the end of memory. -/
theorem PlacedLine.fits_of_le {p : PlacedLine} (h : p.counter ≤ 0x10000) : p.Fits scope := by
  intro ws hws
  obtain ⟨s, -, -, hs⟩ := SourceLine.words?_eq_some_iff.1 hws
  rcases (Statement.length_of_words hs).2 with rfl | hle
  · exact h
  · exact hle

end Fits

/-! ## The first walk -/

section FirstWalk

variable {declared : List String} {counter : Nat} {symbols : SymbolTable} {lines : List SourceLine}

/-- A label is bound if its name is not in the table and the counter is in memory, and is then
    the last of the table. -/
theorem SymbolTable.bind_eq_ok_iff {table : SymbolTable} {name : String} {number : Nat} :
    symbols.bind name counter number = .ok table ↔
      symbols.lookup? name = none ∧ counter < 0x10000 ∧
        table = symbols ++ [⟨name, BitVec.ofNat 16 counter, number⟩] := by
  rw [bind]
  cases hlookup : symbols.lookup? name with
  | some first => simp
  | none =>
    by_cases hroom : counter < 0x10000
    · simp [address?, hroom, eq_comm]
    · simp [address?, hroom]

theorem SourceLine.label?_eq_some_iff {line : SourceLine} {name : String} :
    line.label? = some name ↔ line.statement = .ok (.label name) := by
  rw [label?]
  split
  · next other hother => simp [hother]
  · next hlabel => exact iff_of_false (by simp) (hlabel name)

/-- The name that a line adds to a table of labels is the one that it declares. -/
theorem SourceLine.exists_of_mem_bind {line : SourceLine} {s : Symbol}
    (h : s ∈ (line.bind symbols counter).1) : s ∈ symbols ∨ line.label? = some s.name := by
  rw [bind] at h
  split at h
  · exact .inl h
  · next name hname =>
    split at h
    · next table hbind =>
      obtain ⟨-, -, rfl⟩ := SymbolTable.bind_eq_ok_iff.1 hbind
      rcases List.mem_append.1 h with h | h
      · exact .inl h
      · obtain rfl := List.mem_singleton.1 h
        exact .inr (label?_eq_some_iff.2 hname)
    · exact .inl h
  · exact .inl h

/-- The labels that are bound are those of lines. -/
theorem exists_of_mem_bindLabels {s : Symbol}
    (h : s ∈ (bindLabels declared counter symbols lines).1) :
    s ∈ symbols ∨ ∃ line ∈ lines, line.label? = some s.name := by
  induction lines generalizing counter symbols with
  | nil => exact .inl h
  | cons line rest ih =>
    rcases ih h with h | ⟨other, hother, hname⟩
    · rcases SourceLine.exists_of_mem_bind h with h | hname
      · exact .inl h
      · exact .inr ⟨line, List.mem_cons_self, hname⟩
    · exact .inr ⟨other, List.mem_cons_of_mem line hother, hname⟩

/-- A fault of the first walk is that of a line, with the labels bound before it. -/
theorem exists_of_mem_earlyFaults {e : LineFault}
    (h : e ∈ (bindLabels declared counter symbols lines).2) :
    ∃ line ∈ lines, line.number = e.line ∧
      ∃ counter symbols, (line.bind symbols counter).2 = some e.fault := by
  induction lines generalizing counter symbols with
  | nil => cases h
  | cons line rest ih =>
    rw [bindLabels, List.mem_append] at h
    rcases h with h | h
    · rw [SourceLine.mark, Option.mem_toList, Option.map_eq_some_iff] at h
      obtain ⟨fault, hfault, rfl⟩ := h
      exact ⟨line, List.mem_cons_self, rfl, counter, symbols, hfault⟩
    · obtain ⟨other, hother, hfound⟩ := ih h
      exact ⟨other, List.mem_cons_of_mem line hother, hfound⟩

/-- The first walk over lines goes on where a walk over the lines before them has ended. -/
theorem bindLabels_append (before lines : List SourceLine) :
    bindLabels declared counter symbols (before ++ lines) =
      let first := bindLabels declared counter symbols before
      let rest := bindLabels declared
        (before.foldl (fun counter line => line.next declared counter) counter) first.1 lines
      (rest.1, first.2 ++ rest.2) := by
  induction before generalizing counter symbols with
  | nil => rfl
  | cons line before ih =>
    simp only [List.cons_append, bindLabels, ih, List.foldl_cons, List.append_assoc]

end FirstWalk

/-! ## Assemblies -/

namespace SourceLine

variable (lines : List SourceLine)

/-- The names that lines declare, and the labels that they bind. -/
def scope : Scope := ⟨declared lines, (bindLabels (declared lines) 0 [] lines).1⟩

/-- The faults that the first walk finds. -/
def earlyFaults : List LineFault := (bindLabels (declared lines) 0 [] lines).2

/-- The places of the lines of a source. -/
def places : List PlacedLine := PlacedLine.ofLines (declared lines) 0 lines

/-- Where the address counter stands before the line with index `k`. -/
def counterAt (k : Nat) : Nat :=
  (lines.take k).foldl (fun counter line => line.next (declared lines) counter) 0

/-- The labels that are bound before the line with index `k`. -/
def symbolsAt (k : Nat) : SymbolTable := (bindLabels (declared lines) 0 [] (lines.take k)).1

theorem getElem?_places (k : Nat) : (places lines)[k]? = lines[k]?.map (⟨counterAt lines k, ·⟩) :=
  PlacedLine.getElem?_ofLines (declared lines) 0 lines k

/-- The lines are numbered from one. -/
def Numbered : Prop := ∀ k line, lines[k]? = some line → line.number = k + 1

variable {lines}

theorem exists_of_mem_places {p : PlacedLine} (h : p ∈ places lines) :
    ∃ k line, lines[k]? = some line ∧ p = ⟨counterAt lines k, line⟩ := by
  obtain ⟨k, hk⟩ := List.mem_iff_getElem?.1 h
  rw [getElem?_places, Option.map_eq_some_iff] at hk
  obtain ⟨line, hline, rfl⟩ := hk
  exact ⟨k, line, hline, rfl⟩

/-- No line before or behind another has its number. -/
theorem Numbered.number_ne (h : Numbered lines) {k : Nat} {line other : SourceLine}
    (hline : lines[k]? = some line)
    (hother : other ∈ lines.take k ∨ other ∈ lines.drop (k + 1)) : other.number ≠ line.number := by
  have hnumber := h k line hline
  rcases hother with hother | hother
  · obtain ⟨l, hl⟩ := List.mem_iff_getElem?.1 hother
    rw [List.getElem?_take] at hl
    split at hl
    · have := h l other hl
      omega
    · cases hl
  · obtain ⟨l, hl⟩ := List.mem_iff_getElem?.1 hother
    rw [List.getElem?_drop] at hl
    have := h (k + 1 + l) other hl
    omega

/-- Lines of other numbers have no fault that is found by the number of a line. -/
theorem find?_earlyFaults_eq_none (names : List String) (counter : Nat) (symbols : SymbolTable)
    {others : List SourceLine} {line : SourceLine}
    (h : ∀ other ∈ others, other.number ≠ line.number) :
    (bindLabels names counter symbols others).2.find? (·.line == line.number) = none := by
  refine List.find?_eq_none.2 fun e he => ?_
  obtain ⟨other, hother, hnumber, -⟩ := exists_of_mem_earlyFaults he
  rw [← hnumber]
  simpa using h other hother

/-- A line has the fault in the first walk that it has with the labels bound before it. -/
theorem earlyFault?_eq (h : Numbered lines) {k : Nat} {line : SourceLine}
    (hline : lines[k]? = some line) :
    earlyFault? (earlyFaults lines) line =
      (line.bind (symbolsAt lines k) (counterAt lines k)).2 := by
  obtain ⟨hk, hget⟩ := List.getElem?_eq_some_iff.1 hline
  have hsplit : lines = lines.take k ++ line :: lines.drop (k + 1) := by
    rw [← hget, ← List.drop_eq_getElem_cons hk, List.take_append_drop]
  have hfaults : earlyFaults lines = (bindLabels (declared lines) 0 [] (lines.take k)).2 ++
      (line.mark (line.bind (symbolsAt lines k) (counterAt lines k)).2 ++
        (bindLabels (declared lines) (line.next (declared lines) (counterAt lines k))
          (line.bind (symbolsAt lines k) (counterAt lines k)).1 (lines.drop (k + 1))).2) := by
    rw [earlyFaults, symbolsAt, counterAt]
    generalize declared lines = names
    conv_lhs => rw [hsplit, bindLabels_append]
    rfl
  have hbefore := find?_earlyFaults_eq_none (declared lines) 0 []
    fun other hother => h.number_ne hline (.inl hother)
  have hbehind := find?_earlyFaults_eq_none (declared lines)
    (line.next (declared lines) (counterAt lines k))
    (line.bind (symbolsAt lines k) (counterAt lines k)).1
    fun other hother => h.number_ne hline (.inr hother)
  rw [earlyFault?, hfaults, List.find?_append, hbefore, List.find?_append, hbehind]
  cases (line.bind (symbolsAt lines k) (counterAt lines k)).2 <;> simp [mark]

/-- A line that neither says anything wrong nor declares a label has no fault of the first walk. -/
theorem earlyFault?_eq_none (h : Numbered lines) {line : SourceLine} (hline : line ∈ lines)
    (hbind : ∀ symbols counter, (line.bind symbols counter).2 = none) :
    earlyFault? (earlyFaults lines) line = none := by
  obtain ⟨k, hk⟩ := List.mem_iff_getElem?.1 hline
  rw [earlyFault?_eq h hk, hbind]

theorem numbered_ofSource (source : String) : Numbered (ofSource source) := by
  intro k line hk
  rw [ofSource, List.getElem?_map, List.getElem?_zipIdx] at hk
  simp only [Option.map_map, Option.map_eq_some_iff] at hk
  obtain ⟨text, -, rfl⟩ := hk
  exact Nat.add_comm 1 k

/-- A line says what its text says. -/
theorem statement_of_mem_ofSource {source : String} {line : SourceLine}
    (h : line ∈ ofSource source) : line.statement = Statement.ofLine line.text.toList := by
  rw [ofSource, List.mem_map] at h
  obtain ⟨⟨text, number⟩, -, rfl⟩ := h
  exact congrArg Statement.ofLine String.toList_ofList.symm

end SourceLine

/-- A line that words are assembled from has no fault of the first walk. -/
theorem earlyFault?_of_emits {source : String} {line : SourceLine}
    (hline : line ∈ SourceLine.ofSource source) {s : Statement} (hs : line.statement = .ok s)
    (hemits : s.Emits) :
    earlyFault? (SourceLine.earlyFaults (SourceLine.ofSource source)) line = none :=
  SourceLine.earlyFault?_eq_none (SourceLine.numbered_ofSource source) hline
    fun symbols counter => by rw [SourceLine.bind_of_emits hs hemits]

/-- An assembly is what the second walk gets to, with the labels and the faults of the first. -/
theorem assembleLines_eq_map (lines : List SourceLine) :
    assembleLines lines =
      (placeWords (SourceLine.scope lines) (SourceLine.earlyFaults lines) 0 (.filled 0) lines).map
        fun placement => ⟨placement.memory, (SourceLine.scope lines).symbols,
          (SourceLine.earlyFaults lines).merge placement.faults fun a b => a.line ≤ b.line,
          placement.rows⟩ := by
  rw [← Except.bind_ok_eq_map]
  rfl

/-- Lines have an assembly exactly if the words of every line fit at their place, and what is
    assembled is what is done at the places. -/
theorem assembleLines_eq_ok_iff {lines : List SourceLine} {a : Assembly} :
    assembleLines lines = .ok a ↔
      (∀ p ∈ SourceLine.places lines, p.Fits (SourceLine.scope lines)) ∧
      a =
        { memory := (SourceLine.places lines).foldl
            (fun memory p => p.write (SourceLine.scope lines) memory) (.filled 0)
          symbols := (SourceLine.scope lines).symbols
          faults := (SourceLine.earlyFaults lines).merge
            ((SourceLine.places lines).flatMap fun p =>
              p.line.mark (p.late (SourceLine.scope lines))) fun a b => a.line ≤ b.line
          listing := (SourceLine.places lines).map
            (PlacedLine.row (SourceLine.scope lines) (SourceLine.earlyFaults lines)) } := by
  have hwalk := @PlacedLine.placeWords_eq_ok_iff (SourceLine.scope lines)
    (SourceLine.earlyFaults lines) 0 (.filled 0) lines
  rw [assembleLines_eq_map, Except.map_eq_ok_iff]
  constructor
  · rintro ⟨placement, hplacement, rfl⟩
    obtain ⟨hfits, rfl⟩ := hwalk.1 hplacement
    exact ⟨hfits, rfl⟩
  · rintro ⟨hfits, rfl⟩
    exact ⟨_, hwalk.2 ⟨hfits, rfl⟩, rfl⟩

section Assembled

variable {source : String} {a : Assembly}

/-- A source of which the lines all stand in memory, or right behind it, has an assembly. -/
theorem exists_assemble (source : String)
    (h : ∀ p ∈ SourceLine.places (SourceLine.ofSource source), p.counter ≤ 0x10000) :
    ∃ a, assemble source = .ok a :=
  ⟨_, assembleLines_eq_ok_iff.2 ⟨fun p hp => PlacedLine.fits_of_le (h p hp), rfl⟩⟩

theorem symbols_of_assemble (h : assemble source = .ok a) :
    a.symbols = (SourceLine.scope (SourceLine.ofSource source)).symbols := by
  obtain ⟨-, rfl⟩ := assembleLines_eq_ok_iff.1 h
  rfl

theorem listing_of_assemble (h : assemble source = .ok a) :
    a.listing = (SourceLine.places (SourceLine.ofSource source)).map
      (PlacedLine.row (SourceLine.scope (SourceLine.ofSource source))
        (SourceLine.earlyFaults (SourceLine.ofSource source))) := by
  obtain ⟨-, rfl⟩ := assembleLines_eq_ok_iff.1 h
  rfl

/-- The words of each line of an assembly fit at their place. -/
theorem fits_of_assemble (h : assemble source = .ok a) {k : Nat} {line : SourceLine}
    (hline : (SourceLine.ofSource source)[k]? = some line) :
    PlacedLine.Fits (SourceLine.scope (SourceLine.ofSource source))
      ⟨SourceLine.counterAt (SourceLine.ofSource source) k, line⟩ := by
  have hplace : (SourceLine.places (SourceLine.ofSource source))[k]? =
      some ⟨SourceLine.counterAt (SourceLine.ofSource source) k, line⟩ := by
    rw [SourceLine.getElem?_places, hline]
    rfl
  exact (assembleLines_eq_ok_iff.1 h).1 _ (List.mem_of_getElem? hplace)

/-- Each line of a source has its row, at the same index. -/
theorem getElem?_listing (h : assemble source = .ok a) {k : Nat} {line : SourceLine}
    (hline : (SourceLine.ofSource source)[k]? = some line) :
    a.listing[k]? = some (PlacedLine.row (SourceLine.scope (SourceLine.ofSource source))
      (SourceLine.earlyFaults (SourceLine.ofSource source))
      ⟨SourceLine.counterAt (SourceLine.ofSource source) k, line⟩) := by
  rw [listing_of_assemble h, List.getElem?_map, SourceLine.getElem?_places, hline]
  rfl

end Assembled

end WordMachine
