import WordMachine.Proofs.Assembly.Branches
import WordMachine.Proofs.Assembly.Layout

/-!
# The labels of an assembly

A label is bound by the first of the lines that declare it where there is an address
(`SourceLine.lookup?_symbolsAt_eq_some_iff`): a declaration behind the end of memory binds nothing
and leaves the label to the next one. The walk that binds the labels and the walk that makes the
rows are two, yet the rows tell which declaration it was: the first whose row has an address
(`Assembly.Binds`). All others have a fault, and what refers to the label, before or behind that
line, gets the address of the row or has the fault that there is no such label
(`assemble_labels`).
-/

namespace WordMachine

/-! ## Tables of labels -/

section Tables

variable {symbols : SymbolTable} {name : String}

theorem SymbolTable.lookup?_eq_none_iff :
    symbols.lookup? name = none ↔ name ∉ symbols.map Symbol.name := by
  simp [lookup?]

/-- What stands in a table without double names is found by its name. -/
theorem SymbolTable.lookup?_of_mem (h : (symbols.map Symbol.name).Nodup) {s : Symbol}
    (hs : s ∈ symbols) : symbols.lookup? s.name = some s := by
  cases hlookup : symbols.lookup? s.name with
  | none => exact absurd (List.mem_map_of_mem hs) (lookup?_eq_none_iff.1 hlookup)
  | some found =>
    have hname : found.name = s.name := by simpa using List.find?_some hlookup
    rw [List.inj_on_of_nodup_map h (List.mem_of_find?_eq_some hlookup) hs hname]

end Tables

/-! ## The labels of lines -/

namespace SourceLine

/-- The symbol that a line makes of a label, if the line declares the label where there is an
    address. -/
def symbol? (name : String) (counter : Nat) (line : SourceLine) : Option Symbol :=
  if line.label? = some name then (WordMachine.address? counter).map (⟨name, ·, line.number⟩)
  else none

section Step

variable {symbols : SymbolTable} {counter : Nat} {line : SourceLine}

/-- A label that is bound stays as it is; one that is not is bound by a line that declares it. -/
theorem lookup?_bind (name : String) :
    SymbolTable.lookup? (line.bind symbols counter).1 name =
      (symbols.lookup? name).or (line.symbol? name counter) := by
  rw [bind]
  split
  · next fault hstatement => simp [symbol?, label?, hstatement]
  · next other hstatement =>
    have hlabel : line.label? = some other := label?_eq_some_iff.2 hstatement
    rw [symbol?, hlabel, SymbolTable.bind]
    -- Only the label that the line declares is looked up otherwise than before.
    by_cases hname : other = name
    · subst hname
      cases hlookup : symbols.lookup? other with
      | some first => simp [hlookup]
      | none =>
        rw [SymbolTable.lookup?] at hlookup
        cases WordMachine.address? counter <;> simp [SymbolTable.lookup?, hlookup]
    · cases symbols.lookup? other with
      | some first => simp [hname]
      | none => cases WordMachine.address? counter <;> simp [SymbolTable.lookup?, hname]
  · next hlabel hstatement =>
    have hnone : line.label? ≠ some name := by
      rw [Ne, label?_eq_some_iff, hstatement, Except.ok.injEq]
      exact hlabel name
    simp [symbol?, hnone]

theorem nodup_bind (h : (symbols.map Symbol.name).Nodup) :
    ((line.bind symbols counter).1.map Symbol.name).Nodup := by
  rw [bind]
  split
  · exact h
  · split
    · next table hbind =>
      obtain ⟨hlookup, -, rfl⟩ := SymbolTable.bind_eq_ok_iff.1 hbind
      have hnew := SymbolTable.lookup?_eq_none_iff.1 hlookup
      rw [List.map_append, List.nodup_append]
      exact ⟨h, List.nodup_singleton _, by simpa using hnew⟩
    · exact h
  · exact h

/-- No name stands twice in the table that lines make of one where none does. -/
theorem nodup_bindLabels {declared : List String} {lines : List SourceLine}
    (h : (symbols.map Symbol.name).Nodup) :
    ((bindLabels declared counter symbols lines).1.map Symbol.name).Nodup := by
  induction lines generalizing counter symbols with
  | nil => exact h
  | cons line rest ih => exact ih (nodup_bind h)

end Step

/-! ## The line that binds a label -/

section Lines

variable (lines : List SourceLine) (name : String)

/-- The symbol that the line with index `k` makes of a label. -/
def symbolAt? (k : Nat) : Option Symbol := lines[k]?.bind (symbol? name (counterAt lines k))

/-- The first walk goes from one line to the next. -/
theorem lookup?_symbolsAt_succ (k : Nat) :
    (symbolsAt lines (k + 1)).lookup? name =
      ((symbolsAt lines k).lookup? name).or (symbolAt? lines name k) := by
  rw [symbolsAt, symbolAt?, List.take_add_one]
  cases hline : lines[k]? with
  | none => simp [symbolsAt]
  | some line =>
    rw [Option.toList_some, bindLabels_append]
    exact lookup?_bind name

variable {lines name} {k : Nat}

theorem lookup?_symbolsAt_eq_none_iff :
    (symbolsAt lines k).lookup? name = none ↔ ∀ j < k, symbolAt? lines name j = none := by
  induction k with
  | zero => simp [symbolsAt, bindLabels, SymbolTable.lookup?]
  | succ k ih => rw [lookup?_symbolsAt_succ, Option.or_eq_none_iff, ih, Nat.forall_lt_succ_right]

/-- A label is bound by the first line that makes a symbol of it. -/
theorem lookup?_symbolsAt_eq_some_iff {s : Symbol} :
    (symbolsAt lines k).lookup? name = some s ↔
      ∃ f < k, symbolAt? lines name f = some s ∧ ∀ j < f, symbolAt? lines name j = none := by
  induction k with
  | zero => simp [symbolsAt, bindLabels, SymbolTable.lookup?]
  | succ k ih =>
    rw [lookup?_symbolsAt_succ, Option.or_eq_some_iff, ih, lookup?_symbolsAt_eq_none_iff,
      Nat.exists_lt_succ_right, and_comm (a := symbolAt? lines name k = some s)]

end Lines

end SourceLine

/-! ## What rows tell of labels -/

namespace Assembly

/-- The line with index `k` declares the label `name`, and `row` is its row. -/
def Declares (a : Assembly) (lines : List SourceLine) (name : String) (k : Nat) (row : Row) :
    Prop :=
  (∃ line, lines[k]? = some line ∧ line.label? = some name) ∧ a.listing[k]? = some row

/-- Of the lines that declare the label `name`, the one with index `f` is the first whose row has
    an address. -/
structure Binds (a : Assembly) (lines : List SourceLine) (name : String) (f : Nat) (row : Row)
    (address : Word) : Prop where
  declares : a.Declares lines name f row
  placed : row.address = some address
  unplaced : ∀ k < f, ∀ other, a.Declares lines name k other → other.address = none

end Assembly

section Rows

variable {source name : String} {a : Assembly} {k : Nat} {row : Row}

theorem symbols_eq_symbolsAt (h : assemble source = .ok a) :
    a.symbols =
      SourceLine.symbolsAt (SourceLine.ofSource source) (SourceLine.ofSource source).length := by
  rw [symbols_of_assemble h, SourceLine.symbolsAt, List.take_length, SourceLine.scope]

/-- The symbol that a line makes of a label is told by its row. -/
theorem symbolAt?_of_declares (h : assemble source = .ok a)
    (hdeclares : a.Declares (SourceLine.ofSource source) name k row) :
    SourceLine.symbolAt? (SourceLine.ofSource source) name k =
      row.address.map (⟨name, ·, row.line⟩) := by
  obtain ⟨⟨line, hline, hlabel⟩, hrow⟩ := hdeclares
  rw [getElem?_listing h hline, Option.some.injEq] at hrow
  obtain rfl := hrow
  rw [SourceLine.symbolAt?, hline, Option.bind_some, SourceLine.symbol?, if_pos hlabel]
  rw [SourceLine.label?_eq_some_iff] at hlabel
  simp only [PlacedLine.row, SourceLine.address?, hlabel]

/-- A line that declares a label has a fault if the label is bound before it, or if there is no
    address. -/
theorem fault_of_declares (h : assemble source = .ok a)
    (hdeclares : a.Declares (SourceLine.ofSource source) name k row) :
    row.fault =
      match (SourceLine.symbolsAt (SourceLine.ofSource source) k).lookup? name with
      | some first => some (.duplicateLabel name first.line)
      | none =>
        if row.address = none then
          some (.addressOverflow (SourceLine.counterAt (SourceLine.ofSource source) k))
        else none := by
  obtain ⟨⟨line, hline, hlabel⟩, hrow⟩ := hdeclares
  rw [getElem?_listing h hline, Option.some.injEq] at hrow
  obtain rfl := hrow
  rw [SourceLine.label?_eq_some_iff] at hlabel
  have hearly := SourceLine.earlyFault?_eq (SourceLine.numbered_ofSource source) hline
  have hwords : line.words? (SourceLine.scope (SourceLine.ofSource source))
      (SourceLine.counterAt (SourceLine.ofSource source) k) = none := by
    simp only [SourceLine.words?, hlabel]
  simp only [PlacedLine.row, PlacedLine.late, hwords, Option.none_or, hearly, SourceLine.bind,
    SourceLine.address?, hlabel, SymbolTable.bind]
  cases SymbolTable.lookup?
      (SourceLine.symbolsAt (SourceLine.ofSource source) k) name with
  | some first => rfl
  | none =>
    cases address? (SourceLine.counterAt (SourceLine.ofSource source) k) <;> rfl

/-- A line makes no symbol of a label exactly if its row, should it declare the label, has no
    address. -/
theorem symbolAt?_eq_none_iff (h : assemble source = .ok a) :
    SourceLine.symbolAt? (SourceLine.ofSource source) name k = none ↔
      ∀ row, a.Declares (SourceLine.ofSource source) name k row → row.address = none := by
  constructor
  · intro hnone row hdeclares
    rwa [symbolAt?_of_declares h hdeclares, Option.map_eq_none_iff] at hnone
  · intro hunplaced
    cases hline : (SourceLine.ofSource source)[k]? with
    | none => rw [SourceLine.symbolAt?, hline, Option.bind_none]
    | some line =>
      by_cases hlabel : line.label? = some name
      · have hdeclares : a.Declares (SourceLine.ofSource source) name k _ :=
          ⟨⟨line, hline, hlabel⟩, getElem?_listing h hline⟩
        rw [symbolAt?_of_declares h hdeclares, hunplaced _ hdeclares, Option.map_none]
      · rw [SourceLine.symbolAt?, hline, Option.bind_some, SourceLine.symbol?, if_neg hlabel]

/-- What binds a label is found in the table of the lines behind it, and nothing in the tables
    before. -/
theorem lookup?_symbolsAt_of_binds (h : assemble source = .ok a) {f : Nat} {address : Word}
    (hbinds : a.Binds (SourceLine.ofSource source) name f row address) :
    (SourceLine.symbolsAt (SourceLine.ofSource source) k).lookup? name =
      if f < k then some ⟨name, address, row.line⟩ else none := by
  have hbefore : ∀ j < f, SourceLine.symbolAt? (SourceLine.ofSource source) name j = none :=
    fun j hj => (symbolAt?_eq_none_iff h).2 (hbinds.unplaced j hj)
  split
  · next hlt =>
    refine SourceLine.lookup?_symbolsAt_eq_some_iff.2 ⟨f, hlt, ?_, hbefore⟩
    rw [symbolAt?_of_declares h hbinds.declares, hbinds.placed, Option.map_some]
  · next hle =>
    exact SourceLine.lookup?_symbolsAt_eq_none_iff.2 fun j hj => hbefore j (by omega)

/-- What is bound is so by a line. -/
theorem exists_binds_of_lookup? (h : assemble source = .ok a) {s : Symbol}
    (hs : a.symbols.lookup? name = some s) :
    ∃ f row, a.Binds (SourceLine.ofSource source) name f row s.address := by
  rw [symbols_eq_symbolsAt h, SourceLine.lookup?_symbolsAt_eq_some_iff] at hs
  obtain ⟨f, -, hsymbol, hbefore⟩ := hs
  -- The line that makes the symbol has a row, and that has the address of the symbol.
  have hplaced : ¬∀ row, a.Declares (SourceLine.ofSource source) name f row →
      row.address = none := by
    rw [← symbolAt?_eq_none_iff h, hsymbol]
    exact Option.some_ne_none s
  push Not at hplaced
  obtain ⟨row, hdeclares, -⟩ := hplaced
  rw [symbolAt?_of_declares h hdeclares, Option.map_eq_some_iff] at hsymbol
  obtain ⟨address, haddress, rfl⟩ := hsymbol
  exact ⟨f, row, hdeclares, haddress, fun j hj => (symbolAt?_eq_none_iff h).1 (hbefore j hj)⟩

end Rows

/-! ## What refers to labels -/

/-- There is no room for so many words where the counter stands: the last of them would be at an
    address past the end of memory. -/
def Fault.OfRoom (counter size : Nat) (fault : Fault) : Prop :=
  0x10000 < counter + size ∧ fault = .addressOverflow (counter + size - 1)

/-- What the row of a line of data shows of the value with index `i`, which is the name of a
    label: the address of the label, or that there is none. Of the faults of a line only the first
    is shown. -/
def Row.ResolvesValue (symbols : SymbolTable) (counter : Nat) (values : List String) (i : Nat)
    (name : String) (row : Row) : Prop :=
  match symbols.lookup? name with
  | some s =>
    (row.fault = none → row.words[i]? = some s.address) ∧
    ∀ fault, row.fault = some fault → fault.OfRoom counter values.length ∨
      ∃ j value, j ≠ i ∧ values[j]? = some value ∧ dataWord symbols value = .error fault
  | none =>
    ∃ fault, row.fault = some fault ∧
      (fault = .unknownLabel name ∨ fault.OfRoom counter values.length ∨
        ∃ j < i, ∃ value, values[j]? = some value ∧ dataWord symbols value = .error fault)

/-- What the row of a branch shows of its operand, which is the name of a label: the way to the
    label, or that there is no such label. -/
def Row.ResolvesTarget (symbols : SymbolTable) (counter : Nat) (condition : Condition)
    (name : String) (row : Row) : Prop :=
  match symbols.lookup? name with
  | some s =>
    (row.fault = none → ∃ w, row.words = [w] ∧
      Instruction.decode w = .branch condition (distance counter s.address)) ∧
    ∀ fault, row.fault = some fault → fault.OfRoom counter 1 ∨
      fault = .branchOutOfRange (distance counter s.address) ∧
        ¬(-256 ≤ distance counter s.address ∧ distance counter s.address ≤ 255)
  | none =>
    ∃ fault, row.fault = some fault ∧ (fault = .unknownLabel name ∨ fault.OfRoom counter 1)

section References

variable {scope : Scope} {early : List LineFault} {p : PlacedLine} {name : String}

/-- A value that is a name is looked up. -/
theorem dataWord_of_isName {symbols : SymbolTable} (h : Statement.isName name.toList = true) :
    dataWord symbols name = symbols.address name := by
  rw [dataWord, Statement.literal?_of_isName h]
  exact if_pos h

/-- Where there are addresses for the words of data, each value gives its word. -/
theorem Statement.words_data_eq (scope : Scope) (counter : Nat) (values : List String) :
    (∃ fault, fault.OfRoom counter values.length ∧
      (data values).words scope counter = .error fault) ∨
    (data values).words scope counter = values.mapM (dataWord scope.symbols) := by
  simp only [words]
  split
  · next hover => exact .inl ⟨_, ⟨hover.2, rfl⟩, rfl⟩
  · exact .inr rfl

theorem PlacedLine.row_resolvesValue {values : List String}
    (hstatement : p.line.statement = .ok (.data values)) (hearly : earlyFault? early p.line = none)
    {i : Nat} (hvalue : values[i]? = some name) (hname : Statement.isName name.toList = true) :
    (p.row scope early).ResolvesValue scope.symbols p.counter values i name := by
  have hfault {fault : Fault} : (p.row scope early).fault = some fault ↔
      (Statement.data values).words scope p.counter = .error fault :=
    fault_row_eq_some_iff hstatement trivial hearly
  have hread : dataWord scope.symbols name = scope.symbols.address name := dataWord_of_isName hname
  rw [SymbolTable.address] at hread
  rw [Row.ResolvesValue]
  cases hlookup : scope.symbols.lookup? name with
  | some s =>
    rw [hlookup] at hread
    rcases Statement.words_data_eq scope p.counter values with ⟨fault, hroom, hover⟩ | hmap
    · rw [hfault.2 hover]
      refine ⟨fun hnone => ?_, fun fault hsome => .inl ?_⟩
      · cases hnone
      · obtain rfl := Option.some.inj hsome
        exact hroom
    · refine ⟨fun hnone => ?_, fun fault hsome => .inr ?_⟩
      · have hwords := words_row_of_fault_eq_none hstatement trivial hearly hnone
        obtain ⟨w, hw, hok⟩ := Except.getElem?_of_mapM_eq_ok (hmap.symm.trans hwords) hvalue
        rw [hw, Except.ok.inj (hread.symm.trans hok)]
      · obtain ⟨j, value, hj, hwrong, -⟩ :=
          Except.exists_of_mapM_eq_error (hmap.symm.trans (hfault.1 hsome))
        refine ⟨j, value, ?_, hj, hwrong⟩
        -- The value with index `i` is right.
        rintro rfl
        obtain rfl := Option.some.inj (hj.symm.trans hvalue)
        cases hread.symm.trans hwrong
  | none =>
    rw [hlookup] at hread
    rcases Statement.words_data_eq scope p.counter values with ⟨fault, hroom, hover⟩ | hmap
    · exact ⟨fault, hfault.2 hover, .inr (.inl hroom)⟩
    · rcases Except.mapM_eq_error_of_getElem? hvalue hread with
        hhere | ⟨j, hj, value, fault, hget, hwrong, hbefore⟩
      · exact ⟨_, hfault.2 (hmap.trans hhere), .inl rfl⟩
      · exact ⟨fault, hfault.2 (hmap.trans hbefore), .inr (.inr ⟨j, hj, value, hget, hwrong⟩)⟩

theorem PlacedLine.row_resolvesTarget {mnemonic : String} {condition : Condition}
    (hstatement : p.line.statement = .ok (.instruction mnemonic [name]))
    (hearly : earlyFault? early p.line = none)
    (hm : Mnemonic.find? mnemonic = some ⟨condition.mnemonic, .branch condition⟩)
    (hnumber : Numeral.literal? name = none) (hnamed : scope.symbols.Named) :
    (p.row scope early).ResolvesTarget scope.symbols p.counter condition name := by
  have hlate : (p.row scope early).fault = p.late scope := by
    rw [row, hearly, Option.or_none]
  rw [Row.ResolvesTarget]
  by_cases hcounter : p.counter ≤ 0xFFFF
  · cases hlookup : scope.symbols.lookup? name with
    | some s =>
      by_cases hnear : -256 ≤ distance p.counter s.address ∧ distance p.counter s.address ≤ 255
      · obtain ⟨hright, w, hw, hdecode⟩ :=
          (branch_of_label hstatement hm hcounter hnamed hlookup).2 hnear
        rw [hlate, hright]
        refine ⟨fun _ => ⟨w, hw, hdecode⟩, fun fault hfault => ?_⟩
        cases hfault
      · rw [hlate, late_of_far_branch hstatement hm hcounter hnamed hlookup hnear]
        refine ⟨fun hnone => ?_, fun fault hfault => ?_⟩
        · cases hnone
        · obtain rfl := Option.some.inj hfault
          exact .inr ⟨rfl, hnear⟩
    | none =>
      have hread : readBranch scope.symbols p.counter name = .error (.unknownLabel name) :=
        readBranch_of_unbound hnumber hlookup
      exact ⟨_, hlate.trans (late_of_readBranch hstatement hm hcounter hread), .inl rfl⟩
  · -- Where there is no address for its word, the operand is not read.
    have hroom : Fault.OfRoom p.counter 1 (.addressOverflow p.counter) := ⟨by omega, rfl⟩
    have hover : (p.row scope early).fault = some (.addressOverflow p.counter) := by
      rw [fault_row_eq_some_iff hstatement trivial hearly,
        Statement.words_eq_addressOverflow_iff hnamed, Statement.size_of_mnemonic hm]
      omega
    rw [hover]
    cases hlookup : scope.symbols.lookup? name with
    | some s =>
      refine ⟨fun hnone => ?_, fun fault hfault => ?_⟩
      · cases hnone
      · obtain rfl := Option.some.inj hfault
        exact .inl hroom
    | none => exact ⟨_, rfl, .inr hroom⟩

end References

/-! ## Assemblies -/

/-- The labels of an assembly and its rows agree. Of the lines that declare a label, the first
    whose row has an address binds the label to it and has no fault; the lines before it have the
    fault that they are past the end of memory, and the lines behind it that they declare the label
    again. If no row has an address, the label is not bound and all these lines have the former
    fault. Nothing else is bound. A value, or the operand of a branch, that is the name of a label
    stands for its address wherever the label is declared; if it is not bound, that is the fault of
    the line, unless there is no room for the line or a value before it is wrong. -/
theorem assemble_labels {source : String} {a : Assembly} (h : assemble source = .ok a) :
    a.listing.length = (SourceLine.ofSource source).length ∧
    (∀ (name : String) (f : Nat) (row : Row) (address : Word),
      a.Binds (SourceLine.ofSource source) name f row address →
      a.symbols.lookup? name = some ⟨name, address, row.line⟩ ∧ row.fault = none ∧
      ∀ (k : Nat) (other : Row), a.Declares (SourceLine.ofSource source) name k other →
        (k < f → other.address = none ∧ other.fault = some
          (.addressOverflow (SourceLine.counterAt (SourceLine.ofSource source) k))) ∧
        (f < k → other.fault = some (.duplicateLabel name row.line))) ∧
    (∀ name : String, (∀ (k : Nat) (row : Row),
      a.Declares (SourceLine.ofSource source) name k row → row.address = none) →
      a.symbols.lookup? name = none ∧
      ∀ (k : Nat) (row : Row), a.Declares (SourceLine.ofSource source) name k row →
        row.fault = some
          (.addressOverflow (SourceLine.counterAt (SourceLine.ofSource source) k))) ∧
    (a.symbols.map Symbol.name).Nodup ∧
    (∀ s ∈ a.symbols, ∃ f row, a.Binds (SourceLine.ofSource source) s.name f row s.address) ∧
    (∀ (k : Nat) (line : SourceLine) (row : Row) (values : List String) (i : Nat) (name : String),
      (SourceLine.ofSource source)[k]? = some line → a.listing[k]? = some row →
      line.statement = .ok (.data values) → values[i]? = some name →
      Statement.isName name.toList = true →
      row.ResolvesValue a.symbols (SourceLine.counterAt (SourceLine.ofSource source) k) values i
        name) ∧
    (∀ (k : Nat) (line : SourceLine) (row : Row) (mnemonic name : String) (condition : Condition),
      (SourceLine.ofSource source)[k]? = some line → a.listing[k]? = some row →
      line.statement = .ok (.instruction mnemonic [name]) →
      Text.upper mnemonic.toList = condition.mnemonic.toList → Numeral.literal? name = none →
      row.ResolvesTarget a.symbols (SourceLine.counterAt (SourceLine.ofSource source) k) condition
        name) := by
  have hsymbols := symbols_of_assemble h
  have hnodup : (a.symbols.map Symbol.name).Nodup := by
    rw [hsymbols]
    exact SourceLine.nodup_bindLabels List.nodup_nil
  refine ⟨?_, fun name f row address hbinds => ?_, fun name hunplaced => ?_, hnodup,
    fun s hs => exists_binds_of_lookup? h (SymbolTable.lookup?_of_mem hnodup hs), ?_, ?_⟩
  · rw [listing_of_assemble h, List.length_map, SourceLine.places, PlacedLine.length_ofLines]
  · have hlookup {k : Nat} := lookup?_symbolsAt_of_binds (k := k) h hbinds
    have hf : f < (SourceLine.ofSource source).length := by
      obtain ⟨⟨line, hline, -⟩, -⟩ := hbinds.declares
      exact (List.getElem?_eq_some_iff.1 hline).1
    -- What a row shows of a declaration is told by the table before it, which has the label
    -- exactly behind the line that binds it.
    refine ⟨?_, ?_, fun k other hother => ⟨fun hk => ?_, fun hk => ?_⟩⟩
    · rw [symbols_eq_symbolsAt h, hlookup, if_pos hf]
    · rw [fault_of_declares h hbinds.declares, hlookup, if_neg (Nat.lt_irrefl f)]
      simp [hbinds.placed]
    · have haddress := hbinds.unplaced k hk other hother
      rw [fault_of_declares h hother, hlookup, if_neg (by omega)]
      simp [haddress]
    · rw [fault_of_declares h hother, hlookup, if_pos hk]
  · have hlookup : ∀ k, (SourceLine.symbolsAt (SourceLine.ofSource source) k).lookup? name = none :=
      fun k => SourceLine.lookup?_symbolsAt_eq_none_iff.2 fun j _ =>
        (symbolAt?_eq_none_iff h).2 (hunplaced j)
    refine ⟨?_, fun k row hrow => ?_⟩
    · rw [symbols_eq_symbolsAt h, hlookup]
    · rw [fault_of_declares h hrow, hlookup]
      simp [hunplaced k row hrow]
  · intro k line row values i name hline hrow hstatement hvalue hname
    rw [getElem?_listing h hline, Option.some.injEq] at hrow
    obtain rfl := hrow
    have hemits : (Statement.data values).Emits := trivial
    rw [hsymbols]
    exact PlacedLine.row_resolvesValue hstatement
      (earlyFault?_of_emits (List.mem_of_getElem? hline) hstatement hemits) hvalue hname
  · intro k line row mnemonic name condition hline hrow hstatement hname hnumber
    rw [getElem?_listing h hline, Option.some.injEq] at hrow
    obtain rfl := hrow
    rw [hsymbols]
    exact PlacedLine.row_resolvesTarget hstatement
      (earlyFault?_of_instruction (List.mem_of_getElem? hline) hstatement)
      (Mnemonic.find?_eq_some_iff.2 ⟨Mnemonic.branch_mem_table condition, hname⟩) hnumber
      (named_scope source)

/-- A label declared behind the end of memory, then where it is bound, and once more; and a value
    that is its name. -/
theorem assemble_labels_again :
    ∃ a, assemble ".org 0xFFFF\nNOP\ntop:\n.org 2\ntop:\ntop:\n.word top" = .ok a ∧
      a.symbols.lookup? "top" = some ⟨"top", 2, 5⟩ ∧ ∃ late bound again datum : Row,
        (a.listing[2]? = some late ∧ late.fault = some (.addressOverflow 0x10000)) ∧
        (a.listing[4]? = some bound ∧ bound.fault = none) ∧
        (a.listing[5]? = some again ∧ again.fault = some (.duplicateLabel "top" 5)) ∧
        (a.listing[6]? = some datum ∧ datum.ResolvesValue a.symbols 2 ["top"] 0 "top") := by
  obtain ⟨a, ha⟩ :=
    exists_assemble ".org 0xFFFF\nNOP\ntop:\n.org 2\ntop:\ntop:\n.word top" (by decide +kernel)
  obtain ⟨-, hlabels, -, -, -, hvalues, -⟩ := assemble_labels ha
  have hunplaced : ∀ k < 4, SourceLine.symbolAt?
      (SourceLine.ofSource ".org 0xFFFF\nNOP\ntop:\n.org 2\ntop:\ntop:\n.word top") "top" k =
        none := by decide +kernel
  have hlate := getElem?_listing (k := 2) ha (show _ = some ⟨3, "top:", .ok (.label "top")⟩ by rfl)
  have hbound := getElem?_listing (k := 4) ha (show _ = some ⟨5, "top:", .ok (.label "top")⟩ by rfl)
  have hagain := getElem?_listing (k := 5) ha (show _ = some ⟨6, "top:", .ok (.label "top")⟩ by rfl)
  have hdatum := getElem?_listing (k := 6) ha
    (show _ = some ⟨7, ".word top", .ok (.data ["top"])⟩ by rfl)
  obtain ⟨hlookup, hright, hothers⟩ := hlabels "top" 4 _ 2
    ⟨⟨⟨_, rfl, rfl⟩, hbound⟩, by decide +kernel,
      fun k hk => (symbolAt?_eq_none_iff ha).1 (hunplaced k hk)⟩
  refine ⟨a, ha, hlookup, _, _, _, _, ⟨hlate, ?_⟩, ⟨hbound, hright⟩, ⟨hagain, ?_⟩, hdatum, ?_⟩
  · exact ((hothers 2 _ ⟨⟨_, rfl, rfl⟩, hlate⟩).1 (by decide)).2
  · exact (hothers 5 _ ⟨⟨_, rfl, rfl⟩, hagain⟩).2 (by decide)
  · exact hvalues 6 _ _ ["top"] 0 "top" rfl hdatum rfl rfl (by decide)

end WordMachine
