import WordMachine.Proofs.Assembly.Joined

/-!
# Relocated sources

A source that moves the address counter nowhere can be put at another place by a line in front that
does. All its labels are then farther on by the same number of words (`bindLabels_moved`), and so
are its lines (`Visit.ofLines_moved`). A branch goes to a label by the way from one to the other,
which is as long as it was, so that no instruction tells where it stands
(`Mnemonic.instruction_moved`); a word of data that is the address of a label does
(`mapM_dataWord_moved`). Nothing else is changed (`assemble_relocated`), as long as the last line
still ends in memory.
-/

namespace WordMachine

variable {k : Word} {names : List String} {counter : Nat} {symbols : SymbolTable}

/-! ## What moves -/

/-- The symbol of a label that stands `k` words farther on. -/
def Symbol.moved (k : Word) (s : Symbol) : Symbol := { s with address := s.address + k }

/-- The word of a token of data where all labels stand `k` words farther on. A number stays what it
    is. -/
def movedWord (k : Word) (token : String) (w : Word) : Word :=
  if (Numeral.literal? token).isSome then w else w + k

namespace SourceLine

/-- The words of a line where all labels stand `k` words farther on. -/
def movedWords (k : Word) (line : SourceLine) (ws : List Word) : List Word :=
  match line.statement with
  | .ok (.data values) => List.zipWith (movedWord k) values ws
  | _ => ws

@[simp] theorem movedWords_nil (line : SourceLine) : line.movedWords k [] = [] := by
  rw [movedWords]
  split
  · exact List.zipWith_nil_right
  · rfl

/-- The row of a line that stands `k` words farther on, as all labels do. -/
def movedRow (k : Word) (line : SourceLine) (row : Row) : Row :=
  { row with
    address := row.address.map (· + k)
    words := line.movedWords k row.words }

/-- From the counter on lines move it only by their words, and have room to stand `k` words farther
    on. -/
structure Movable (k : Word) (names : List String) (counter : Nat) (lines : List SourceLine) :
    Prop where
  origin?_eq_none : ∀ line ∈ lines, line.origin? = none
  room : counter + (lines.map (size names)).sum + k.toNat ≤ 0xFFFF

theorem Movable.cons {line : SourceLine} {rest : List SourceLine}
    (h : Movable k names counter (line :: rest)) :
    line.origin? = none ∧ counter + line.size names + k.toNat ≤ 0xFFFF ∧
      Movable k names (line.next names counter) rest := by
  obtain ⟨horigin, hrest⟩ := List.forall_mem_cons.1 h.origin?_eq_none
  have hroom := h.room
  rw [List.map_cons, List.sum_cons] at hroom
  refine ⟨horigin, by omega, hrest, ?_⟩
  rw [next_of_origin?_eq_none horigin]
  omega

end SourceLine

/-- There is an address `k` words farther on for every label. -/
def SymbolTable.HasRoom (k : Word) (symbols : SymbolTable) : Prop :=
  ∀ s ∈ symbols, s.address.toNat + k.toNat ≤ 0xFFFF

theorem toNat_add_of_le {w k : Word} (h : w.toNat + k.toNat ≤ 0xFFFF) :
    (w + k).toNat = w.toNat + k.toNat := by
  rw [BitVec.toNat_add]
  omega

/-! ## Reading tokens -/

section Reading

variable {token : String}

theorem SymbolTable.lookup?_moved (name : String) :
    SymbolTable.lookup? (symbols.map (Symbol.moved k)) name =
      (symbols.lookup? name).map (Symbol.moved k) := List.find?_map

theorem SymbolTable.address_moved (name : String) :
    SymbolTable.address (symbols.map (Symbol.moved k)) name =
      (symbols.address name).map (· + k) := by
  rw [address, address, lookup?_moved]
  cases symbols.lookup? name <;> rfl

/-- The address of a label is that of a symbol. -/
theorem SymbolTable.exists_of_address {name : String} {w : Word}
    (h : symbols.address name = .ok w) : ∃ s ∈ symbols, s.address = w := by
  rw [address_eq_ok_iff] at h
  obtain ⟨s, hs, rfl⟩ := h
  exact ⟨s, List.mem_of_find?_eq_some hs, rfl⟩

/-- A branch and the label that it goes to are as far apart as they were. -/
theorem readTarget_moved (hroom : symbols.HasRoom k) :
    readTarget (symbols.map (Symbol.moved k)) (counter + k.toNat) token =
      readTarget symbols counter token := by
  rw [readTarget, readTarget, SymbolTable.address_moved]
  cases Numeral.literal? token with
  | some n => rfl
  | none =>
    cases haddress : symbols.address token with
    | error fault => rfl
    | ok w =>
      -- The way is one between numbers, and since the new address does not go round, both ends of
      -- it are `k` farther on.
      obtain ⟨s, hs, rfl⟩ := SymbolTable.exists_of_address haddress
      have hsum := toNat_add_of_le (hroom s hs)
      refine congrArg Except.ok ?_
      simp only [hsum]
      omega

theorem readBranch_moved (hroom : symbols.HasRoom k) :
    readBranch (symbols.map (Symbol.moved k)) (counter + k.toNat) token =
      readBranch symbols counter token := by
  rw [readBranch, readBranch, readTarget_moved hroom]

theorem Mnemonic.instruction_moved (m : Mnemonic) (operands : List String)
    (hroom : symbols.HasRoom k) :
    m.instruction (symbols.map (Symbol.moved k)) (counter + k.toNat) operands =
      m.instruction symbols counter operands := by
  simp only [instruction, readBranch_moved hroom]

theorem instructionWords_moved (mnemonic : String) (operands : List String)
    (hroom : symbols.HasRoom k) :
    instructionWords ⟨names, symbols.map (Symbol.moved k)⟩ (counter + k.toNat) mnemonic operands =
      instructionWords ⟨names, symbols⟩ counter mnemonic operands := by
  simp only [instructionWords, Mnemonic.instruction_moved _ _ hroom]

theorem dataWord_moved :
    dataWord (symbols.map (Symbol.moved k)) token =
      (dataWord symbols token).map (movedWord k token) := by
  rw [dataWord, dataWord, SymbolTable.address_moved]
  unfold movedWord
  cases Numeral.literal? token with
  | some n => rfl
  | none => cases Statement.isName token.toList <;> rfl

theorem mapM_dataWord_moved (values : List String) :
    values.mapM (dataWord (symbols.map (Symbol.moved k))) =
      (values.mapM (dataWord symbols)).map (List.zipWith (movedWord k) values) := by
  induction values with
  | nil => rfl
  | cons value values ih =>
    rw [List.mapM_cons, List.mapM_cons, ih, dataWord_moved]
    cases dataWord symbols value with
    | error fault => rfl
    | ok w => cases values.mapM (dataWord symbols) <;> rfl

end Reading

/-! ## Lines -/

theorem address?_add (hroom : counter + k.toNat ≤ 0xFFFF) :
    address? (counter + k.toNat) = (address? counter).map (· + k) := by
  have hsum : BitVec.ofNat 16 (counter + k.toNat) = BitVec.ofNat 16 counter + k := by
    rw [BitVec.ofNat_add, BitVec.ofNat_toNat, BitVec.setWidth_eq]
  rw [address?, address?, if_pos (by omega), if_pos (by omega), hsum]
  rfl

section Lines

variable {line : SourceLine} (horigin : line.origin? = none)
  (hroom : counter + line.size names + k.toNat ≤ 0xFFFF)

include horigin in
theorem SourceLine.next_moved :
    line.next names (counter + k.toNat) = line.next names counter + k.toNat := by
  rw [next_of_origin?_eq_none horigin, next_of_origin?_eq_none horigin, Nat.add_right_comm]

include hroom in
/-- A line binds its label `k` words farther on. -/
theorem SourceLine.bind_moved :
    line.bind (symbols.map (Symbol.moved k)) (counter + k.toNat) =
      ((line.bind symbols counter).1.map (Symbol.moved k), (line.bind symbols counter).2) := by
  have haddress := @address?_add k counter (by omega)
  rw [bind, bind]
  cases line.statement with
  | error fault => rfl
  | ok s =>
    cases s with
    | label name =>
      have hhere : WordMachine.address? counter = some (BitVec.ofNat 16 counter) :=
        if_pos (by omega)
      simp only [SymbolTable.bind, SymbolTable.lookup?_moved, haddress, hhere]
      cases symbols.lookup? name with
      | some first => rfl
      | none => simp [Symbol.moved]
    | _ => rfl

omit hroom in
/-- A line binds its label to the address at which the counter stands. -/
theorem SourceLine.address_of_mem_bind {s : Symbol} (h : s ∈ (line.bind symbols counter).1) :
    s ∈ symbols ∨ counter < 0x10000 ∧ s.address = BitVec.ofNat 16 counter := by
  rw [bind] at h
  split at h
  · exact .inl h
  · split at h
    · next table hbind =>
      obtain ⟨-, hlt, rfl⟩ := SymbolTable.bind_eq_ok_iff.1 hbind
      rcases List.mem_append.1 h with h | h
      · exact .inl h
      · obtain rfl := List.mem_singleton.1 h
        exact .inr ⟨hlt, rfl⟩
    · exact .inl h
  · exact .inl h

include horigin hroom in
theorem SourceLine.address?_moved :
    line.address? (counter + k.toNat) = (line.address? counter).map (· + k) := by
  have haddress := @address?_add k counter (by omega)
  rw [origin?] at horigin
  rw [address?, address?]
  cases hs : line.statement with
  | error fault => rfl
  | ok s =>
    cases s with
    | blank => rfl
    | origin address => simp [hs] at horigin
    | _ => exact haddress

omit hroom in
include horigin in
theorem SourceLine.toNat_of_mem_address? {address : Word} (h : address ∈ line.address? counter) :
    address.toNat = counter := by
  rw [origin?] at horigin
  rw [address?] at h
  split at h
  · cases h
  · cases h
  · next hs => simp [hs] at horigin
  · rw [WordMachine.address?] at h
    split at h
    · next hlt =>
      obtain rfl := Option.some.inj h
      exact Memory.toNat_ofNat_of_lt hlt
    · cases h

include hroom in
/-- The words of a line are those that it had, but for the addresses of labels among its data. -/
theorem SourceLine.words?_moved (htable : symbols.HasRoom k) :
    line.words? ⟨names, symbols.map (Symbol.moved k)⟩ (counter + k.toNat) =
      (line.words? ⟨names, symbols⟩ counter).map (Except.map (line.movedWords k)) := by
  unfold movedWords
  rw [size] at hroom
  rw [words?, words?]
  cases hs : line.statement with
  | error fault => rfl
  | ok s =>
    simp only [hs] at hroom
    cases s with
    | data values =>
      simp only [Statement.words, mapM_dataWord_moved]
      rw [if_neg (by omega), if_neg (by omega)]
      rfl
    | instruction mnemonic operands =>
      simp only [Statement.words, instructionWords_moved mnemonic operands htable]
      rw [if_neg (by omega), if_neg (by omega)]
      exact congrArg some (congrFun Except.map_id _).symm
    | _ => rfl

end Lines

/-! ## Walks -/

/-- The visit to a line that stands `k` words farther on, as all labels do. -/
def Visit.moved (k : Word) (v : Visit) : Visit :=
  ⟨v.counter + k.toNat, v.symbols.map (Symbol.moved k), v.line⟩

section Walks

variable {lines : List SourceLine} (h : SourceLine.Movable k names counter lines)

include h

theorem bindLabels_moved :
    (bindLabels names (counter + k.toNat) (symbols.map (Symbol.moved k)) lines).1 =
      (bindLabels names counter symbols lines).1.map (Symbol.moved k) := by
  induction lines generalizing counter symbols with
  | nil => rfl
  | cons line rest ih =>
    obtain ⟨horigin, hroom, hrest⟩ := h.cons
    simp only [bindLabels, SourceLine.next_moved horigin, SourceLine.bind_moved hroom]
    exact ih hrest

theorem Visit.ofLines_moved :
    ofLines names (counter + k.toNat) (symbols.map (Symbol.moved k)) lines =
      (ofLines names counter symbols lines).map (moved k) := by
  induction lines generalizing counter symbols with
  | nil => rfl
  | cons line rest ih =>
    obtain ⟨horigin, hroom, hrest⟩ := h.cons
    rw [ofLines, ofLines, List.map_cons, SourceLine.next_moved horigin,
      SourceLine.bind_moved hroom, ih hrest]
    rfl

/-- At every visit there is room for the line to stand `k` words farther on. -/
theorem SourceLine.Movable.of_mem_ofLines {v : Visit}
    (hv : v ∈ Visit.ofLines names counter symbols lines) :
    v.line.origin? = none ∧ v.counter + v.line.size names + k.toNat ≤ 0xFFFF := by
  induction lines generalizing counter symbols with
  | nil => cases hv
  | cons line rest ih =>
    obtain ⟨horigin, hroom, hrest⟩ := h.cons
    rcases List.mem_cons.1 hv with rfl | hv
    · exact ⟨horigin, hroom⟩
    · exact ih hrest hv

/-- The labels that the lines bind have room as well. -/
theorem SourceLine.Movable.hasRoom (hsymbols : symbols.HasRoom k) :
    SymbolTable.HasRoom k (bindLabels names counter symbols lines).1 := by
  induction lines generalizing counter symbols with
  | nil => exact hsymbols
  | cons line rest ih =>
    obtain ⟨-, hroom, hrest⟩ := h.cons
    refine ih hrest fun s hs => ?_
    rcases SourceLine.address_of_mem_bind hs with hs | ⟨hlt, haddress⟩
    · exact hsymbols s hs
    · rw [haddress, Memory.toNat_ofNat_of_lt hlt]
      omega

end Walks

/-! ## Rows -/

/-- The row of a line that stands `k` words farther on shows that, and is otherwise what it was, but
    for the addresses of labels among its data. -/
theorem Visit.row_moved {v : Visit} (horigin : v.line.origin? = none)
    (hroom : v.counter + v.line.size names + k.toNat ≤ 0xFFFF) (htable : symbols.HasRoom k) :
    (v.moved k).row ⟨names, symbols.map (Symbol.moved k)⟩ =
      v.line.movedRow k (v.row ⟨names, symbols⟩) := by
  have hwords := SourceLine.words?_moved hroom htable
  simp only [row, place, moved, PlacedLine.words, PlacedLine.late, hwords,
    SourceLine.bind_moved hroom, SourceLine.address?_moved horigin hroom, SourceLine.movedRow]
  cases v.line.words? ⟨names, symbols⟩ v.counter with
  | none => simp
  | some result => cases result <;> simp [Except.map]

/-! ## Behind a line that moves the counter -/

namespace SourceLine

section Below

variable (n counter : Nat) (lines : List SourceLine)

/-- Lines below others bind copies of the labels that they bind by themselves. -/
theorem bindLabels_below :
    (bindLabels (declared lines) counter [] (lines.map (Copy.below n).line)).1 =
      (bindLabels (declared lines) counter [] lines).1.map (Copy.below n).symbol :=
  @Copy.bindLabels_map_line (Copy.below n) _ [] _ [] [] lines counter
    (@mem_names_second [] lines n) (@NamesApart.apart lines [] (List.forall_mem_nil _) n)
    Copy.mem_declared_of_label? (List.forall_mem_nil _) (List.forall_mem_nil _)

theorem ofLines_below :
    Visit.ofLines (declared lines) counter [] (lines.map (Copy.below n).line) =
      (Visit.ofLines (declared lines) counter [] lines).map ((Copy.below n).visit []) :=
  @Copy.ofLines_map_line (Copy.below n) _ [] _ [] [] lines counter
    (@mem_names_second [] lines n) (@NamesApart.apart lines [] (List.forall_mem_nil _) n)
    Copy.mem_declared_of_label? (List.forall_mem_nil _) (List.forall_mem_nil _)

end Below

section Behind

variable {first : SourceLine} {lines : List SourceLine}
  (hfirst : first.statement = .ok (.origin k))

include hfirst

theorem declared_cons_below :
    declared (first :: lines.map (Copy.below 1).line) = declared lines := by
  have hlabel : first.label? = none := by simp only [label?, hfirst]
  rw [declared, List.filterMap_cons_none hlabel]
  exact ((Copy.below 1).declared_map_line lines).trans (List.map_id _)

variable (h : Movable k (declared lines) 0 lines)

include h

/-- The labels are those that the lines bind by themselves, `k` words farther on. -/
theorem scope_cons_below :
    scope (first :: lines.map (Copy.below 1).line) =
      ⟨declared lines, ((scope lines).symbols.map (Symbol.moved k)).map (Copy.below 1).symbol⟩ := by
  have hmoved := @bindLabels_moved k (declared lines) 0 [] lines h
  rw [Nat.zero_add, List.map_nil] at hmoved
  simp only [scope, declared_cons_below hfirst, bindLabels, next, bind, hfirst,
    bindLabels_below, hmoved]

/-- The visits to the lines are those to the lines by themselves, `k` words farther on. -/
theorem visits_cons_below :
    visits (first :: lines.map (Copy.below 1).line) =
      ⟨0, [], first⟩ :: ((visits lines).map (Visit.moved k)).map ((Copy.below 1).visit []) := by
  have hmoved := @Visit.ofLines_moved k (declared lines) 0 [] lines h
  rw [Nat.zero_add, List.map_nil] at hmoved
  simp only [visits, declared_cons_below hfirst, Visit.ofLines, next, bind, hfirst,
    ofLines_below, hmoved]

/-- All words fit, since every line stands in memory. -/
theorem forall_fits_cons_below (scope' : Scope) :
    ∀ v ∈ visits (first :: lines.map (Copy.below 1).line), v.place.Fits scope' := by
  rw [visits_cons_below hfirst h, List.map_map, List.forall_mem_cons, List.forall_mem_map]
  refine ⟨PlacedLine.fits_of_le (Nat.zero_le _), fun v hv => PlacedLine.fits_of_le ?_⟩
  obtain ⟨-, hroom⟩ := h.of_mem_ofLines hv
  change v.counter + k.toNat ≤ 0x10000
  omega

/-- Behind the line in front, a line has the row that it has by itself, `k` words farther on. -/
theorem row_visit_below {v : Visit} (hv : v ∈ visits lines) :
    ((Copy.below 1).visit [] (v.moved k)).row (scope (first :: lines.map (Copy.below 1).line)) =
      (Copy.below 1).row (v.line.movedRow k (v.row (scope lines))) := by
  obtain ⟨hline, hsymbols⟩ := of_mem_visits hv
  obtain ⟨horigin, hroom⟩ := h.of_mem_ofLines hv
  have hapart := @NamesApart.apart lines [] (List.forall_mem_nil _) 1 v.line hline
  have hnames : ∀ {table : SymbolTable}, (∀ s ∈ table, s.name ∈ declared lines) →
      ∀ s ∈ table.map (Symbol.moved k), s.name ∈ declared lines :=
    fun htable => List.forall_mem_map.2 htable
  have hscope : ∀ s ∈ (scope lines).symbols, s.name ∈ declared lines :=
    fun s hs => name_mem_declared hs
  -- What the line mentions is found in both tables or in neither, since all names are copied.
  have hagrees : ∀ token ∈ v.line.mentions, (Copy.below 1).Agrees
      ⟨declared lines, (scope lines).symbols.map (Symbol.moved k)⟩
      (scope (first :: lines.map (Copy.below 1).line)) token := by
    intro token htoken
    rw [scope_cons_below hfirst h]
    have haddress := (hapart token htoken).address_eq (Copy.below 1) (hnames hscope)
      (List.forall_mem_nil _) (List.forall_mem_nil _)
    rw [List.append_nil] at haddress
    exact ⟨Iff.rfl, haddress⟩
  rw [Copy.row_visit _ (v := v.moved k) hagrees hapart (hnames hsymbols) (List.forall_mem_nil _)]
  exact congrArg _ (Visit.row_moved horigin hroom (h.hasRoom (List.forall_mem_nil _)))

/-- The listing is the row of the line that moves the counter, and the rows of the lines by
    themselves, `k` words farther on. -/
theorem map_row_cons_below :
    (visits (first :: lines.map (Copy.below 1).line)).map
        (Visit.row (scope (first :: lines.map (Copy.below 1).line))) =
      ⟨first.number, some k, [], first.text, none⟩ ::
        (List.zipWith (movedRow k) lines
          ((visits lines).map (Visit.row (scope lines)))).map (Copy.below 1).row := by
  have hzip : List.zipWith (movedRow k) lines ((visits lines).map (Visit.row (scope lines))) =
      (visits lines).map fun v => v.line.movedRow k (v.row (scope lines)) := by
    calc
      List.zipWith (movedRow k) lines ((visits lines).map (Visit.row (scope lines)))
          = List.zipWith (movedRow k) ((visits lines).map Visit.line)
              ((visits lines).map (Visit.row (scope lines))) := by rw [map_line_visits]
      _ = (visits lines).map fun v => v.line.movedRow k (v.row (scope lines)) := by
        rw [List.zipWith_map_left, List.zipWith_map_right, List.zipWith_self]
  rw [hzip, visits_cons_below hfirst h, List.map_cons, List.map_map, List.map_map, List.map_map]
  refine congrArg₂ _ (Visit.row_of_origin (v := ⟨0, [], first⟩) hfirst _).1
    (List.map_congr_left fun v hv => row_visit_below hfirst h hv)

end Behind

end SourceLine

/-! ## Assemblies -/

theorem filterMap_lineFault?_zipWith_movedRow (k : Word) {lines : List SourceLine}
    {rows : List Row} (h : rows.length = lines.length) :
    (List.zipWith (SourceLine.movedRow k) lines rows).filterMap Row.lineFault? =
      rows.filterMap Row.lineFault? := by
  induction lines generalizing rows with
  | nil =>
    obtain rfl := List.length_eq_zero_iff.1 h
    rfl
  | cons line lines ih =>
    obtain ⟨row, rows, rfl⟩ := List.exists_of_length_succ _ h
    rw [List.zipWith_cons_cons, List.filterMap_cons, List.filterMap_cons,
      ih (Nat.succ.inj h)]
    rfl

/-- The lines of a source behind one line are a copy of its lines by itself. -/
theorem SourceLine.ofSource_append_line {origin : String} {text : List Char}
    (htext : Text.lines origin.toList = [text]) (hend : origin.toList.getLast? = some '\n')
    (source : String) :
    ofSource (origin ++ source) =
      ⟨1, String.ofList text, Statement.ofLine text⟩ ::
        (ofSource source).map (Copy.below 1).line := by
  rw [@ofSource_append_below origin source 1 (.inr hend) (by rw [htext]; rfl),
    ofSource_eq_ofTexts origin, htext]
  rfl

/-- A source that moves the address counter nowhere, behind a line that moves it to `k`, where its
    last word still ends in memory. There is an assembly with and without the line. All labels are
    `k` words farther on and so are the addresses of the rows, none of which goes round. The words
    of instructions are the same; of data, numbers are the same and labels give their new
    addresses. The faults are the same, with line numbers one larger. -/
theorem assemble_relocated {origin source : String} {text : List Char} {k : Word}
    (hnone : ∀ line ∈ SourceLine.ofSource source, line.origin? = none)
    (hsize : k.toNat + ((SourceLine.ofSource source).map
      (SourceLine.size (SourceLine.declared (SourceLine.ofSource source)))).sum ≤ 0xFFFF)
    (htext : Text.lines origin.toList = [text]) (hend : origin.toList.getLast? = some '\n')
    (horigin : Statement.ofLine text = .ok (.origin k)) :
    ∃ a b, assemble source = .ok a ∧ assemble (origin ++ source) = .ok b ∧
      b.symbols = a.symbols.map (fun s => ⟨s.name, s.address + k, s.line + 1⟩) ∧
      (∀ s ∈ a.symbols, s.address.toNat + k.toNat ≤ 0xFFFF) ∧
      b.listing = ⟨1, some k, [], String.ofList text, none⟩ ::
        (List.zipWith (SourceLine.movedRow k) (SourceLine.ofSource source) a.listing).map
          (Copy.below 1).row ∧
      (∀ row ∈ a.listing, ∀ address ∈ row.address, address.toNat + k.toNat ≤ 0xFFFF) ∧
      b.faults = a.faults.map (Copy.below 1).lineFault := by
  have hlines := SourceLine.ofSource_append_line htext hend source
  have hmovable : SourceLine.Movable k (SourceLine.declared (SourceLine.ofSource source)) 0
      (SourceLine.ofSource source) := ⟨hnone, by omega⟩
  obtain ⟨a, ha⟩ : ∃ a, assemble source = .ok a := by
    refine exists_assemble_iff_fits.2 fun v hv => PlacedLine.fits_of_le ?_
    obtain ⟨-, hroom⟩ := hmovable.of_mem_ofLines hv
    change v.counter ≤ 0x10000
    omega
  obtain ⟨b, hb⟩ : ∃ b, assemble (origin ++ source) = .ok b := by
    rw [exists_assemble_iff_fits, hlines]
    exact SourceLine.forall_fits_cons_below horigin hmovable _
  have hlisting : b.listing = ⟨1, some k, [], String.ofList text, none⟩ ::
      (List.zipWith (SourceLine.movedRow k) (SourceLine.ofSource source) a.listing).map
        (Copy.below 1).row := by
    rw [listing_eq_map_visits hb, hlines, SourceLine.map_row_cons_below horigin hmovable,
      listing_eq_map_visits ha]
  refine ⟨a, b, ha, hb, ?_, ?_, hlisting, ?_, ?_⟩
  · rw [symbols_of_assemble hb, hlines, SourceLine.scope_cons_below horigin hmovable, List.map_map,
      symbols_of_assemble ha]
    rfl
  · rw [symbols_of_assemble ha]
    exact hmovable.hasRoom (List.forall_mem_nil _)
  · rw [listing_eq_map_visits ha, List.forall_mem_map]
    intro v hv address haddress
    obtain ⟨horigin, hroom⟩ := hmovable.of_mem_ofLines hv
    rw [SourceLine.toNat_of_mem_address? horigin haddress]
    omega
  · have hlength : a.listing.length = (SourceLine.ofSource source).length := by
      rw [listing_eq_map_visits ha, List.length_map, SourceLine.visits, Visit.length_ofLines]
    rw [Assembly.faults_eq_filterMap hb, hlisting, List.filterMap_cons_none rfl,
      Copy.filterMap_lineFault?_map_row, filterMap_lineFault?_zipWith_movedRow k hlength,
      Assembly.faults_eq_filterMap ha]

/-- A branch and data with a label, a label that is declared twice and a mnemonic that there is not:
    behind an origin, the word of data and the addresses are others, the branch is not. -/
theorem assemble_relocated_twice :
    ∃ a b, assemble "NOP\nx:\nJNZ x\n.word x, -1\nx:\nFROB" = .ok a ∧
      assemble (".org 0x100\n" ++ "NOP\nx:\nJNZ x\n.word x, -1\nx:\nFROB") = .ok b ∧
      a.symbols = [⟨"x", 1, 2⟩] ∧ b.symbols = [⟨"x", 0x101, 3⟩] ∧
      a.listing.map Row.changes =
        [[⟨0, 0xFFF0⟩], [], [⟨1, 0xE3FF⟩], [⟨2, 1⟩, ⟨3, 0xFFFF⟩], [], []] ∧
      b.listing.map Row.changes = [[], [⟨0x100, 0xFFF0⟩], [], [⟨0x101, 0xE3FF⟩],
        [⟨0x102, 0x101⟩, ⟨0x103, 0xFFFF⟩], [], []] ∧
      b.faults = [⟨6, .duplicateLabel "x" 3⟩, ⟨7, .unknownInstruction "FROB"⟩] := by
  obtain ⟨a, b, ha, hb, hsymbols, -, hlisting, -, hfaults⟩ :=
    @assemble_relocated ".org 0x100\n" "NOP\nx:\nJNZ x\n.word x, -1\nx:\nFROB" ".org 0x100".toList
      0x100 (by decide +kernel) (by decide +kernel) (by decide +kernel) (by decide +kernel)
      (by decide +kernel)
  have hrows := listing_of_assemble ha
  have htable : a.symbols = [⟨"x", 1, 2⟩] := by
    rw [symbols_of_assemble ha]
    decide +kernel
  refine ⟨a, b, ha, hb, htable, ?_, ?_, ?_, ?_⟩
  · rw [hsymbols, htable]
    rfl
  · rw [hrows]
    decide +kernel
  · rw [hlisting, hrows]
    decide +kernel
  · rw [hfaults, Assembly.faults_eq_filterMap ha, hrows]
    decide +kernel

end WordMachine
