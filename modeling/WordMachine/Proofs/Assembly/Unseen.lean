import WordMachine.Proofs.Assembly.Idle
import WordMachine.Proofs.Assembly.Joined
import WordMachine.Proofs.Source.Unseen

/-!
# Sources that look alike

Comments, space at the ends of lines and lines with nothing else in them are not assembled. Such
lines are idle, and all other lines say the same without them, only with other numbers
(`SourceLine.Renumbered`). The walks over lines with other numbers find the same, with other numbers
(`Visit.Renumbered.ofLines`), and so the rows are the same, with other numbers and other texts
(`Visit.Renumbered.row`). Between these rows stand those of the lines that were put in, with nothing
in them (`exists_rows_of_alike`), from which there are neither changes nor faults. A number is not
only where a line stands: it is also kept with the label that the line binds, and told by the fault
of a line that declares this label once more (`Fault.renumber`).
-/

namespace WordMachine

/-! ## Other numbers -/

variable (number : Nat → Nat)

/-- The fault where lines have other numbers. -/
def Fault.renumber : Fault → Fault
  | .duplicateLabel name firstLine => .duplicateLabel name (number firstLine)
  | fault => fault

def LineFault.renumber (e : LineFault) : LineFault := ⟨number e.line, e.fault.renumber number⟩

def Symbol.renumber (s : Symbol) : Symbol := { s with line := number s.line }

/-- The rows differ at most in their texts and in the numbers of lines. -/
structure Row.Renumbered (row row' : Row) : Prop where
  line_eq : row'.line = number row.line
  address_eq : row'.address = row.address
  words_eq : row'.words = row.words
  fault_eq : row'.fault = row.fault.map (Fault.renumber number)

/-- The lines say the same, and differ at most in their texts and numbers. -/
structure SourceLine.Renumbered (line line' : SourceLine) : Prop where
  number_eq : line'.number = number line.number
  statement_eq : line'.statement = line.statement
  failsIn : line.statement.FailsIn Statement.IsFault

/-- The visits are to such lines, with the counter at the same place and the same labels bound. -/
structure Visit.Renumbered (v v' : Visit) : Prop where
  counter_eq : v'.counter = v.counter
  symbols_eq : v'.symbols = v.symbols.map (Symbol.renumber number)
  line : v.line.Renumbered number v'.line

variable {number}

theorem Fault.renumber_of_isFault {fault : Fault} (h : Statement.IsFault fault) :
    fault.renumber number = fault := by
  cases fault with
  | duplicateLabel name firstLine => exact h.elim
  | _ => rfl

section Tables

variable {symbols : SymbolTable} {name : String}

theorem SymbolTable.lookup?_renumber :
    lookup? (symbols.map (Symbol.renumber number)) name =
      (symbols.lookup? name).map (Symbol.renumber number) :=
  List.find?_map

theorem SymbolTable.address_renumber :
    address (symbols.map (Symbol.renumber number)) name = symbols.address name := by
  rw [address, address, lookup?_renumber]
  cases symbols.lookup? name <;> rfl

end Tables

/-! ## What a statement asks for -/

section Words

variable {scope scope' : Scope} {s : Statement} {counter : Nat}

/-- A statement asks only which names are declared and which addresses they have. -/
theorem Statement.words_congr (hdeclared : scope'.declared = scope.declared)
    (haddress : ∀ name, scope'.symbols.address name = scope.symbols.address name) :
    s.words scope' counter = s.words scope counter := by
  have hfault : ∀ {α : Type} (x : Except Fault α), x.mapError (Copy.below 0).fault = x := by
    intro α x
    cases x with
    | error fault => exact congrArg Except.error (Copy.fault_below_zero fault)
    | ok a => rfl
  have hagrees : ∀ token ∈ s.mentions, (Copy.below 0).Agrees scope scope' token :=
    fun token _ => ⟨by rw [hdeclared]; rfl, (haddress token).trans (hfault _).symm⟩
  have hwords := (Copy.below 0).words_statement hagrees counter
  rwa [Copy.statement_below, hfault] at hwords

/-- No statement has a fault that tells the number of a line. -/
theorem Statement.renumber_of_words (h : scope.symbols.Named) {fault : Fault}
    (hfault : s.words scope counter = .error fault) : fault.renumber number = fault := by
  rcases Statement.fault_of_words h hfault with ⟨-, -, rfl⟩ | ⟨-, hoperand | ⟨mnemonic, rfl⟩⟩
  · rfl
  · cases fault with
    | duplicateLabel name firstLine => exact hoperand.elim
    | _ => rfl
  · rfl

end Words

/-! ## The walks over lines with other numbers -/

namespace SourceLine.Renumbered

variable {line line' : SourceLine} {lines lines' : List SourceLine} {counter : Nat}
  {symbols : SymbolTable} {names : List String}

theorem label?_eq (h : line.Renumbered number line') : line'.label? = line.label? := by
  rw [label?, label?, h.statement_eq]

theorem next_eq (h : line.Renumbered number line') :
    line'.next names counter = line.next names counter := by
  rw [next, next, h.statement_eq]

theorem bind_eq (h : line.Renumbered number line') :
    line'.bind (symbols.map (Symbol.renumber number)) counter =
      ((line.bind symbols counter).1.map (Symbol.renumber number),
        (line.bind symbols counter).2.map (Fault.renumber number)) := by
  rw [bind, bind, h.statement_eq]
  cases hs : line.statement with
  | error fault =>
    have hkept : fault.renumber number = fault := Fault.renumber_of_isFault (h.failsIn fault hs)
    exact congrArg (fun fault => (_, some fault)) hkept.symm
  | ok s =>
    cases s with
    | label name =>
      -- The number that the fault tells is the one kept in the table, which is a new one as well.
      simp only [SymbolTable.bind, SymbolTable.lookup?_renumber]
      cases symbols.lookup? name with
      | some first => rfl
      | none =>
        cases WordMachine.address? counter with
        | some address => simp [Symbol.renumber, h.number_eq]
        | none => rfl
    | _ => rfl

theorem declared_eq (h : List.Forall₂ (Renumbered number) lines lines') :
    declared lines' = declared lines := by
  induction h with
  | nil => rfl
  | cons hline _ ih =>
    simp only [declared, List.filterMap_cons, hline.label?_eq] at ih ⊢
    rw [ih]

theorem bindLabels_eq (h : List.Forall₂ (Renumbered number) lines lines') :
    (bindLabels names counter (symbols.map (Symbol.renumber number)) lines').1 =
      (bindLabels names counter symbols lines).1.map (Symbol.renumber number) := by
  induction h generalizing counter symbols with
  | nil => rfl
  | cons hline _ ih => simp only [bindLabels, hline.bind_eq, hline.next_eq, ih]

/-- The visits to such lines are such visits. -/
theorem ofLines (h : List.Forall₂ (Renumbered number) lines lines') :
    List.Forall₂ (Visit.Renumbered number) (Visit.ofLines names counter symbols lines)
      (Visit.ofLines names counter (symbols.map (Symbol.renumber number)) lines') := by
  induction h generalizing counter symbols with
  | nil => exact .nil
  | cons hline _ ih =>
    rw [Visit.ofLines, Visit.ofLines, hline.next_eq, hline.bind_eq]
    exact .cons ⟨rfl, rfl, hline⟩ ih

theorem scope_eq (h : List.Forall₂ (Renumbered number) lines lines') :
    (scope lines').declared = (scope lines).declared ∧
      (scope lines').symbols = (scope lines).symbols.map (Symbol.renumber number) := by
  have hdeclared := declared_eq h
  refine ⟨hdeclared, ?_⟩
  have hbound := @bindLabels_eq number lines lines' 0 [] (declared lines) h
  rw [scope, hdeclared]
  exact hbound

theorem visits (h : List.Forall₂ (Renumbered number) lines lines') :
    List.Forall₂ (Visit.Renumbered number) (SourceLine.visits lines)
      (SourceLine.visits lines') := by
  rw [SourceLine.visits, SourceLine.visits, declared_eq h]
  exact ofLines h

/-- Texts that are alike are such lines wherever they stand. -/
theorem ofTexts {first first' : Nat} {texts texts' : List (List Char)}
    (h : List.Forall₂ Statement.Alike texts texts')
    (hnumber : ∀ i < texts.length, number (first + i) = first' + i) :
    List.Forall₂ (Renumbered number) (SourceLine.ofTexts first texts)
      (SourceLine.ofTexts first' texts') := by
  induction h generalizing first first' with
  | nil => exact .nil
  | @cons text text' texts texts' htext _ ih =>
    rw [ofTexts_cons, ofTexts_cons]
    refine .cons ⟨?_, ?_, Statement.ofLine_failsIn text⟩ (ih fun i hi => ?_)
    · exact (hnumber 0 (Nat.zero_lt_succ _)).symm
    · exact Statement.ofLine_of_alike htext
    · have hnext := hnumber (i + 1) (Nat.succ_lt_succ hi)
      rwa [← Nat.add_assoc, ← Nat.add_assoc, Nat.add_right_comm first, Nat.add_right_comm first']
        at hnext

end SourceLine.Renumbered

/-! ## Rows of lines with other numbers -/

namespace Visit.Renumbered

variable {v v' : Visit} {scope scope' : Scope}

theorem words?_eq (h : v.Renumbered number v') (hdeclared : scope'.declared = scope.declared)
    (hsymbols : scope'.symbols = scope.symbols.map (Symbol.renumber number)) :
    v'.line.words? scope' v'.counter = v.line.words? scope v.counter := by
  have hwords : ∀ s : Statement, s.words scope' v.counter = s.words scope v.counter :=
    fun s => Statement.words_congr hdeclared fun name => by
      rw [hsymbols, SymbolTable.address_renumber]
  rw [SourceLine.words?, SourceLine.words?, h.line.statement_eq, h.counter_eq]
  simp only [hwords]

theorem fits_iff (h : v.Renumbered number v') (hdeclared : scope'.declared = scope.declared)
    (hsymbols : scope'.symbols = scope.symbols.map (Symbol.renumber number)) :
    v'.place.Fits scope' ↔ v.place.Fits scope := by
  have hwords := h.words?_eq hdeclared hsymbols
  rw [PlacedLine.Fits, PlacedLine.Fits, place, place, hwords, h.counter_eq]

theorem forall_fits_iff {vs vs' : List Visit} (h : List.Forall₂ (Visit.Renumbered number) vs vs')
    (hdeclared : scope'.declared = scope.declared)
    (hsymbols : scope'.symbols = scope.symbols.map (Symbol.renumber number)) :
    (∀ v ∈ vs', v.place.Fits scope') ↔ ∀ v ∈ vs, v.place.Fits scope := by
  induction h with
  | nil => exact iff_of_true (List.forall_mem_nil _) (List.forall_mem_nil _)
  | cons hv _ ih =>
    rw [List.forall_mem_cons, List.forall_mem_cons, hv.fits_iff hdeclared hsymbols, ih]

/-- The row of such a visit is such a row. -/
theorem row (h : v.Renumbered number v') (hnamed : scope.symbols.Named)
    (hdeclared : scope'.declared = scope.declared)
    (hsymbols : scope'.symbols = scope.symbols.map (Symbol.renumber number)) :
    Row.Renumbered number (v.row scope) (v'.row scope') := by
  have hwords := h.words?_eq hdeclared hsymbols
  -- What the second walk finds tells no number, so that it is the same with other numbers.
  have hlate : v'.place.late scope' = (v.place.late scope).map (Fault.renumber number) := by
    simp only [PlacedLine.late, place, hwords]
    cases hfound : v.line.words? scope v.counter with
    | none => rfl
    | some result =>
      cases result with
      | ok ws => rfl
      | error fault =>
        obtain ⟨s, -, -, hs⟩ := SourceLine.words?_eq_some_iff.1 hfound
        exact congrArg some (Statement.renumber_of_words hnamed hs).symm
  refine ⟨h.line.number_eq, ?_, ?_, ?_⟩
  · simp only [Visit.row, SourceLine.address?, h.line.statement_eq, h.counter_eq]
  · simp only [Visit.row, PlacedLine.words, place, hwords]
  · simp only [Visit.row, hlate, h.counter_eq, h.symbols_eq, h.line.bind_eq, Option.map_or]

end Visit.Renumbered

namespace Row

variable {row row' : Row} {rows rows' : List Row}

theorem Renumbered.changes_eq (h : row.Renumbered number row') : row'.changes = row.changes := by
  rw [changes, changes, h.address_eq, h.words_eq]

theorem Renumbered.flatMap_changes (h : List.Forall₂ (Renumbered number) rows rows') :
    rows'.flatMap changes = rows.flatMap changes := by
  induction h with
  | nil => rfl
  | cons hrow _ ih => rw [List.flatMap_cons, List.flatMap_cons, hrow.changes_eq, ih]

theorem Renumbered.lineFault?_eq (h : row.Renumbered number row') :
    row'.lineFault? = row.lineFault?.map (LineFault.renumber number) := by
  rw [lineFault?, lineFault?, h.line_eq, h.fault_eq]
  cases row.fault <;> rfl

theorem Renumbered.filterMap_lineFault? (h : List.Forall₂ (Renumbered number) rows rows') :
    rows'.filterMap lineFault? = (rows.filterMap lineFault?).map (LineFault.renumber number) := by
  induction h with
  | nil => rfl
  | cons hrow _ ih =>
    rw [List.filterMap_cons, List.filterMap_cons, hrow.lineFault?_eq]
    cases lineFault? _ with
    | none => exact ih
    | some e => exact congrArg (_ :: ·) ih

end Row

/-! ## Sources -/

namespace SourceLine

/-- The number of a line where `count` lines are put behind the first `n`. -/
def numberBehind (n count number : Nat) : Nat := if number ≤ n then number else number + count

/-- The row of a line with nothing to see has no more than its number and its text. -/
def unseenRow (line : SourceLine) : Row := ⟨line.number, none, [], line.text, none⟩

theorem statement_of_isUnseen {first : Nat} {texts : List (List Char)}
    (h : ∀ text ∈ texts, Statement.IsUnseen text) {line : SourceLine}
    (hline : line ∈ ofTexts first texts) : line.statement = .ok .blank := by
  obtain ⟨⟨text, number⟩, hmem, rfl⟩ := List.mem_map.1 hline
  exact Statement.ofLine_of_isUnseen (h text (List.fst_mem_of_mem_zipIdx hmem))

/-- A line with nothing to see has such a row, and is right anywhere. -/
theorem row_of_blank {line : SourceLine} (h : line.statement = .ok .blank) (scope : Scope)
    (counter : Nat) (symbols : SymbolTable) :
    Visit.row scope ⟨counter, symbols, line⟩ = line.unseenRow ∧
      PlacedLine.Fits scope ⟨counter, line⟩ := by
  constructor
  · have haddress : line.address? counter = none := by simp only [address?, h]
    rw [(isIdle_of_blank h).row_eq, haddress]
    rfl
  · intro ws hws
    simp [words?, h] at hws

section Unseen

variable {first : Nat} {texts : List (List Char)} (h : ∀ text ∈ texts, Statement.IsUnseen text)
  (scope : Scope) (counter : Nat) (symbols : SymbolTable)

include h

/-- The rows of lines with nothing to see, wherever they are visited. -/
theorem map_row_of_isUnseen :
    ((ofTexts first texts).map (Visit.mk counter symbols ·)).map (Visit.row scope) =
      (ofTexts first texts).map unseenRow := by
  rw [List.map_map]
  exact List.map_congr_left fun line hline =>
    (row_of_blank (statement_of_isUnseen h hline) scope counter symbols).1

theorem fits_of_isUnseen :
    ∀ v ∈ (ofTexts first texts).map (Visit.mk counter symbols ·), v.place.Fits scope :=
  List.forall_mem_map.2 fun _ hline =>
    (row_of_blank (statement_of_isUnseen h hline) scope counter symbols).2

end Unseen

/-- Rows of lines with nothing to see change nothing. -/
theorem flatMap_changes_unseenRow (lines : List SourceLine) :
    (lines.map unseenRow).flatMap Row.changes = [] :=
  List.flatMap_eq_nil_iff.2 (List.forall_mem_map.2 fun _ _ => rfl)

theorem filterMap_lineFault?_unseenRow (lines : List SourceLine) :
    (lines.map unseenRow).filterMap Row.lineFault? = [] :=
  List.filterMap_eq_nil_iff.2 (List.forall_mem_map.2 fun _ _ => rfl)

/-- Lines that are alike say the same one by one, also where others are put in between, with the
    numbers that they have then. -/
theorem renumbered_of_alike {before before' behind behind' : List (List Char)} (count : Nat)
    (hbefore : List.Forall₂ Statement.Alike before before')
    (hbehind : List.Forall₂ Statement.Alike behind behind') :
    List.Forall₂ (Renumbered (numberBehind before.length count))
      (ofTexts 1 before ++ ofTexts (1 + before.length) behind)
      (ofTexts 1 before' ++ ofTexts (1 + before.length + count) behind') := by
  refine List.rel_append (Renumbered.ofTexts hbefore fun i hi => ?_)
    (Renumbered.ofTexts hbehind fun i hi => ?_)
  · exact if_pos (by omega)
  · have hbeyond : ¬1 + before.length + i ≤ before.length := by omega
    exact (if_neg hbeyond).trans (Nat.add_right_comm ..)

end SourceLine

section Alike

variable {source edited : String} {before before' behind behind' unseen : List (List Char)}
  (hsource : Text.lines source.toList = before ++ behind)
  (hedited : Text.lines edited.toList = before' ++ (unseen ++ behind'))
  (hbefore : List.Forall₂ Statement.Alike before before')
  (hbehind : List.Forall₂ Statement.Alike behind behind')
  (hunseen : ∀ text ∈ unseen, Statement.IsUnseen text)

include hsource hedited hbefore hbehind hunseen

/-- The visits to the lines of both sources: between those to lines that are alike there are those
    to the lines with nothing to see. -/
theorem exists_visits_of_alike :
    let number := SourceLine.numberBehind before.length unseen.length
    let scope := SourceLine.scope (SourceLine.ofSource source)
    let scope' := SourceLine.scope (SourceLine.ofSource edited)
    scope'.declared = scope.declared ∧
    scope'.symbols = scope.symbols.map (Symbol.renumber number) ∧
    ∃ (first last : List Visit) (counter : Nat) (symbols : SymbolTable),
      first.length = before.length ∧
      SourceLine.visits (SourceLine.ofSource edited) = first ++
        ((SourceLine.ofTexts (1 + before.length) unseen).map (⟨counter, symbols, ·⟩) ++ last) ∧
      List.Forall₂ (Visit.Renumbered number) (SourceLine.visits (SourceLine.ofSource source))
        (first ++ last) := by
  intro number scope scope'
  have hlines : SourceLine.ofSource source =
      SourceLine.ofTexts 1 before ++ SourceLine.ofTexts (1 + before.length) behind := by
    rw [SourceLine.ofSource_eq_ofTexts, hsource, SourceLine.ofTexts_append]
  have hlines' : SourceLine.ofSource edited =
      SourceLine.ofTexts 1 before' ++ (SourceLine.ofTexts (1 + before.length) unseen ++
        SourceLine.ofTexts (1 + before.length + unseen.length) behind') := by
    rw [SourceLine.ofSource_eq_ofTexts, hedited, SourceLine.ofTexts_append,
      SourceLine.ofTexts_append, hbefore.length_eq]
  have hrenumbered := SourceLine.renumbered_of_alike unseen.length hbefore hbehind
  rw [← hlines] at hrenumbered
  have hidle : ∀ line ∈ SourceLine.ofTexts (1 + before.length) unseen,
      line.IsIdle (SourceLine.scope (SourceLine.ofTexts 1 before' ++
        (SourceLine.ofTexts (1 + before.length) unseen ++
          SourceLine.ofTexts (1 + before.length + unseen.length) behind'))) :=
    fun line hline => SourceLine.isIdle_of_blank (SourceLine.statement_of_isUnseen hunseen hline)
  obtain ⟨hdeclared, hsymbols⟩ := SourceLine.Renumbered.scope_eq hrenumbered
  have hscope := (SourceLine.IsIdle.scope_append hidle).1
  rw [← hscope, ← hlines'] at hdeclared hsymbols
  obtain ⟨first, last, counter, symbols, hfirst, hvisits, hvisits'⟩ :=
    SourceLine.IsIdle.visits_append hidle
  rw [← hlines'] at hvisits'
  refine ⟨hdeclared, hsymbols, first, last, counter, symbols, ?_, hvisits', ?_⟩
  · rw [hfirst, SourceLine.length_ofTexts, hbefore.length_eq]
  · rw [← hvisits]
    exact SourceLine.Renumbered.visits hrenumbered

theorem exists_assemble_alike_iff :
    (∃ b, assemble edited = .ok b) ↔ ∃ a, assemble source = .ok a := by
  obtain ⟨hdeclared, hsymbols, first, last, counter, symbols, -, hvisits, hrenumbered⟩ :=
    exists_visits_of_alike hsource hedited hbefore hbehind hunseen
  rw [exists_assemble_iff_fits, exists_assemble_iff_fits, hvisits,
    ← Visit.Renumbered.forall_fits_iff hrenumbered hdeclared hsymbols, List.forall_mem_append,
    List.forall_mem_append, List.forall_mem_append,
    and_iff_right (SourceLine.fits_of_isUnseen hunseen _ counter symbols)]

variable {a b : Assembly} (ha : assemble source = .ok a) (hb : assemble edited = .ok b)

include ha hb

theorem symbols_of_alike :
    b.symbols = a.symbols.map
      (Symbol.renumber (SourceLine.numberBehind before.length unseen.length)) := by
  have hsymbols := (exists_visits_of_alike hsource hedited hbefore hbehind hunseen).2.1
  rw [symbols_of_assemble hb, hsymbols, symbols_of_assemble ha]

/-- The listings of both sources: the rows of the lines with nothing to see stand between rows that
    are the same but for their numbers. -/
theorem exists_rows_of_alike :
    ∃ first last : List Row, first.length = before.length ∧
      b.listing = first ++
        ((SourceLine.ofTexts (1 + before.length) unseen).map SourceLine.unseenRow ++ last) ∧
      List.Forall₂ (Row.Renumbered (SourceLine.numberBehind before.length unseen.length))
        a.listing (first ++ last) := by
  obtain ⟨hdeclared, hsymbols, first, last, counter, symbols, hfirst, hvisits, hrenumbered⟩ :=
    exists_visits_of_alike hsource hedited hbefore hbehind hunseen
  refine ⟨first.map (Visit.row (SourceLine.scope (SourceLine.ofSource edited))),
    last.map (Visit.row (SourceLine.scope (SourceLine.ofSource edited))),
    (List.length_map _).trans hfirst, ?_, ?_⟩
  · rw [listing_eq_map_visits hb, hvisits, List.map_append, List.map_append,
      SourceLine.map_row_of_isUnseen hunseen]
  · rw [listing_eq_map_visits ha, ← List.map_append, List.forall₂_map_left_iff,
      List.forall₂_map_right_iff]
    exact hrenumbered.imp fun v v' hv => hv.row (named_scope source) hdeclared hsymbols

theorem changes_of_alike : b.changes = a.changes := by
  obtain ⟨first, last, -, hlisting, hrows⟩ :=
    exists_rows_of_alike hsource hedited hbefore hbehind hunseen ha hb
  rw [Assembly.changes, hlisting, List.flatMap_append, List.flatMap_append,
    SourceLine.flatMap_changes_unseenRow, List.nil_append, ← List.flatMap_append,
    Row.Renumbered.flatMap_changes hrows]
  rfl

theorem faults_of_alike :
    b.faults = a.faults.map
      (LineFault.renumber (SourceLine.numberBehind before.length unseen.length)) := by
  obtain ⟨first, last, -, hlisting, hrows⟩ :=
    exists_rows_of_alike hsource hedited hbefore hbehind hunseen ha hb
  rw [Assembly.faults_eq_filterMap hb, hlisting, List.filterMap_append, List.filterMap_append,
    SourceLine.filterMap_lineFault?_unseenRow, List.nil_append, ← List.filterMap_append,
    Row.Renumbered.filterMap_lineFault? hrows, Assembly.faults_eq_filterMap ha]

end Alike

/-- Comments and space around what lines say, and lines with nothing else in them, are not seen in
    an assembly: neither in its success, its memory and its changes, nor in the names and addresses
    of its labels. Its rows and faults are the same as well, but that the numbers of lines behind
    those that were put in are larger by how many these are, which have rows of their own, with
    nothing in them. -/
theorem assemble_alike {source edited : String}
    {before before' behind behind' unseen : List (List Char)}
    (hsource : Text.lines source.toList = before ++ behind)
    (hedited : Text.lines edited.toList = before' ++ (unseen ++ behind'))
    (hbefore : List.Forall₂ Statement.Alike before before')
    (hbehind : List.Forall₂ Statement.Alike behind behind')
    (hunseen : ∀ text ∈ unseen, Statement.IsUnseen text) :
    ((∃ overrun, assemble edited = .error overrun) ↔
      ∃ overrun, assemble source = .error overrun) ∧
    ∀ a b, assemble source = .ok a → assemble edited = .ok b →
      b.success = a.success ∧
      b.memory = a.memory ∧
      b.changes = a.changes ∧
      b.symbols = a.symbols.map
        (Symbol.renumber (SourceLine.numberBehind before.length unseen.length)) ∧
      b.faults = a.faults.map
        (LineFault.renumber (SourceLine.numberBehind before.length unseen.length)) ∧
      ∃ first last, first.length = before.length ∧
        b.listing = first ++
          ((SourceLine.ofTexts (1 + before.length) unseen).map SourceLine.unseenRow ++ last) ∧
        List.Forall₂ (Row.Renumbered (SourceLine.numberBehind before.length unseen.length))
          a.listing (first ++ last) := by
  constructor
  · rw [Except.exists_eq_error_iff, Except.exists_eq_error_iff,
      exists_assemble_alike_iff hsource hedited hbefore hbehind hunseen]
  intro a b ha hb
  have hchanges := changes_of_alike hsource hedited hbefore hbehind hunseen ha hb
  have hfaults := faults_of_alike hsource hedited hbefore hbehind hunseen ha hb
  refine ⟨?_, ?_, hchanges, symbols_of_alike hsource hedited hbefore hbehind hunseen ha hb, hfaults,
    exists_rows_of_alike hsource hedited hbefore hbehind hunseen ha hb⟩
  · rw [Assembly.success, hfaults, List.isEmpty_map]
    rfl
  · rw [Assembly.memory_eq_writeChanges hb, hchanges, Assembly.memory_eq_writeChanges ha]

/-- A comment put in front of a label that is declared twice, and space and comments elsewhere: the
    fault tells both lines by their new numbers. -/
theorem assemble_alike_duplicate :
    ∃ a b, assemble "NOP\nx:\nx:\nJNZ x" = .ok a ∧
      assemble "NOP ; start\n\t; of the loop\n x:\nx:;\nJNZ x" = .ok b ∧
      a.faults = [⟨3, .duplicateLabel "x" 2⟩] ∧ b.faults = [⟨4, .duplicateLabel "x" 3⟩] ∧
      b.memory = a.memory ∧ b.changes = a.changes ∧
      b.symbols.map (fun s => (s.name, s.address)) =
        a.symbols.map fun s => (s.name, s.address) := by
  obtain ⟨a, ha⟩ := exists_assemble "NOP\nx:\nx:\nJNZ x" (by decide +kernel)
  obtain ⟨b, hb⟩ := exists_assemble "NOP ; start\n\t; of the loop\n x:\nx:;\nJNZ x"
    (by decide +kernel)
  have hlines : Text.lines "NOP\nx:\nx:\nJNZ x".toList =
      ["NOP".toList] ++ ["x:".toList, "x:".toList, "JNZ x".toList] := by decide +kernel
  have hlines' : Text.lines "NOP ; start\n\t; of the loop\n x:\nx:;\nJNZ x".toList =
      ["NOP ; start".toList] ++
        (["\t; of the loop".toList] ++ [" x:".toList, "x:;".toList, "JNZ x".toList]) := by
    decide +kernel
  have hspace : Statement.IsSpace " ".toList := by decide
  have hstart : Statement.Alike "NOP".toList "NOP ; start".toList := by
    simpa using (Statement.Alike.space "NOP".toList (List.forall_mem_nil _) hspace).trans
      (.comment _ " start".toList)
  have hlabel : Statement.Alike "x:".toList " x:".toList := by
    simpa using Statement.Alike.space "x:".toList hspace (List.forall_mem_nil _)
  have hagain : Statement.Alike "x:".toList "x:;".toList := by
    simpa using Statement.Alike.comment "x:".toList []
  have hunseen : Statement.IsUnseen "\t; of the loop".toList :=
    ⟨"\t".toList, "; of the loop".toList, rfl, by decide, .inr rfl⟩
  obtain ⟨-, hmemory, hchanges, hsymbols, hfaults, -⟩ := (assemble_alike hlines hlines'
    (.cons hstart .nil) (.cons hlabel (.cons hagain (.cons (.refl _) .nil)))
    (List.forall_mem_singleton.2 hunseen)).2 a b ha hb
  have hfound : a.faults = [⟨3, .duplicateLabel "x" 2⟩] := by
    rw [Assembly.faults_eq_filterMap ha, listing_of_assemble ha]
    decide +kernel
  refine ⟨a, b, ha, hb, hfound, ?_, hmemory, hchanges, ?_⟩
  · rw [hfaults, hfound]
    rfl
  · rw [hsymbols, List.map_map]
    rfl

end WordMachine
