import WordMachine.Proofs.Assembly.Copies

/-!
# Names that are kept apart

A copy of lines may stand among other lines of a source. If none of their labels is spelled like a
token of the copy, and no two names of the lines themselves are spelled alike (`Copy.Apart`), then
nobody sees the others: the first walk binds copies of the labels (`Copy.bindLabels_map_line`), the
visits to the lines of the copy are those to the lines, each copied (`Copy.ofLines_map_line`), and
what is made of them in the end is copied as well (`Copy.Among.map_row`).
-/

namespace WordMachine

namespace Copy

variable (w : Copy)

/-- In the copy the token is none of the names of other lines, and no name but itself is spelled
    like it. -/
structure Apart (names others : List String) (token : String) : Prop where
  not_mem : w.spell token ∉ others
  eq_of_spell : ∀ name ∈ names, w.spell name = w.spell token → name = token

variable {names others names' : List String} {token : String}
  {symbols before behind : SymbolTable} {line : SourceLine} {lines : List SourceLine}
  {counter : Nat}

section Tables

variable (hsymbols : ∀ s ∈ symbols, s.name ∈ names) (hbefore : ∀ s ∈ before, s.name ∈ others)

theorem Apart.mem_iff (h : w.Apart names others token)
    (hnames : ∀ name, name ∈ names' ↔ name ∈ names.map w.spell ∨ name ∈ others) :
    w.spell token ∈ names' ↔ token ∈ names := by
  rw [hnames, or_iff_left h.not_mem, List.mem_map]
  constructor
  · rintro ⟨name, hname, heq⟩
    rwa [← h.eq_of_spell name hname heq]
  · exact fun htoken => ⟨token, htoken, rfl⟩

include hsymbols hbefore

/-- A label is found in the copy of a table, with labels of other lines before and behind it. -/
theorem Apart.lookup?_eq (h : w.Apart names others token)
    (hbehind : ∀ s ∈ behind, s.name ∈ others) :
    SymbolTable.lookup? (before ++ (symbols.map w.symbol ++ behind)) (w.spell token) =
      (symbols.lookup? token).map w.symbol := by
  have hother : ∀ table : SymbolTable, (∀ s ∈ table, s.name ∈ others) →
      table.find? (·.name == w.spell token) = none := by
    intro table htable
    refine List.find?_eq_none.2 fun s hs heq => h.not_mem ?_
    rw [← beq_iff_eq.1 heq]
    exact htable s hs
  have hsame : ∀ s ∈ symbols, ((w.symbol s).name == w.spell token) = (s.name == token) := by
    intro s hs
    rw [Bool.eq_iff_iff, beq_iff_eq, beq_iff_eq]
    exact ⟨h.eq_of_spell s.name (hsymbols s hs), congrArg w.spell⟩
  rw [SymbolTable.lookup?, List.find?_append, List.find?_append, hother before hbefore,
    hother behind hbehind, Option.none_or, Option.or_none, List.find?_map]
  -- Only names in the table are compared with the token, so it is the same symbol that is first.
  rw [SymbolTable.lookup?, ← List.head?_filter, ← List.head?_filter]
  exact congrArg (fun found => found.head?.map w.symbol) (List.filter_congr hsame)

theorem Apart.address_eq (h : w.Apart names others token)
    (hbehind : ∀ s ∈ behind, s.name ∈ others) :
    SymbolTable.address (before ++ (symbols.map w.symbol ++ behind)) (w.spell token) =
      (symbols.address token).mapError w.fault := by
  rw [SymbolTable.address, SymbolTable.address, h.lookup?_eq w hsymbols hbefore hbehind]
  cases symbols.lookup? token <;> rfl

/-- A line of the copy binds a copy of the label that its original binds. -/
theorem bind_line (h : ∀ token ∈ line.mentions, w.Apart names others token) (counter : Nat) :
    (w.line line).bind (before ++ symbols.map w.symbol) counter =
      (before ++ (line.bind symbols counter).1.map w.symbol,
        (line.bind symbols counter).2.map w.fault) := by
  rw [SourceLine.mentions] at h
  rw [SourceLine.bind, SourceLine.bind, statement_line]
  cases hs : line.statement with
  | error fault => rfl
  | ok s =>
    rw [hs] at h
    cases s with
    | label name =>
      -- The line asks for its label in a table with nothing behind the copied labels.
      have hlookup : SymbolTable.lookup? (before ++ symbols.map w.symbol) (w.spell name) =
          (symbols.lookup? name).map w.symbol := by
        have hfound := (h name List.mem_cons_self).lookup?_eq w hsymbols hbefore
          (List.forall_mem_nil _)
        rwa [List.append_nil] at hfound
      simp only [statement, Except.map, Except.mapError, SymbolTable.bind, hlookup]
      cases symbols.lookup? name with
      | some first => rfl
      | none =>
        cases address? counter with
        | some address => simp [Copy.line, symbol]
        | none => rfl
    | _ => rfl

end Tables

/-! ## The walks over a copy -/

section Walks

variable (hnames : ∀ name, name ∈ names' ↔ name ∈ names.map w.spell ∨ name ∈ others)
  (hlines : ∀ line ∈ lines, ∀ token ∈ line.mentions, w.Apart names others token)
  (hlabels : ∀ line ∈ lines, ∀ name, line.label? = some name → name ∈ names)
  (hsymbols : ∀ s ∈ symbols, s.name ∈ names) (hbefore : ∀ s ∈ before, s.name ∈ others)

include hnames hlines hlabels hsymbols hbefore

theorem bindLabels_map_line :
    (bindLabels names' counter (before ++ symbols.map w.symbol) (lines.map w.line)).1 =
      before ++ (bindLabels names counter symbols lines).1.map w.symbol := by
  induction lines generalizing counter symbols with
  | nil => rfl
  | cons line rest ih =>
    obtain ⟨hline, hrest⟩ := List.forall_mem_cons.1 hlines
    obtain ⟨hlabel, hlabels⟩ := List.forall_mem_cons.1 hlabels
    have hnext := w.next_line (fun token htoken => (hline token htoken).mem_iff w hnames) counter
    simp only [List.map_cons, bindLabels, hnext, w.bind_line hsymbols hbefore hline]
    exact ih hrest hlabels fun s hs =>
      (SourceLine.exists_of_mem_bind hs).elim (hsymbols s) (hlabel s.name)

/-- The visits to the lines of a copy are those to the lines, each copied. -/
theorem ofLines_map_line :
    Visit.ofLines names' counter (before ++ symbols.map w.symbol) (lines.map w.line) =
      (Visit.ofLines names counter symbols lines).map (w.visit before) := by
  induction lines generalizing counter symbols with
  | nil => rfl
  | cons line rest ih =>
    obtain ⟨hline, hrest⟩ := List.forall_mem_cons.1 hlines
    obtain ⟨hlabel, hlabels⟩ := List.forall_mem_cons.1 hlabels
    have hnext := w.next_line (fun token htoken => (hline token htoken).mem_iff w hnames) counter
    rw [List.map_cons, Visit.ofLines, Visit.ofLines, List.map_cons, hnext,
      w.bind_line hsymbols hbefore hline, ih hrest hlabels]
    · rfl
    · exact fun s hs => (SourceLine.exists_of_mem_bind hs).elim (hsymbols s) (hlabel s.name)

end Walks

/-! ## The visits to a copy -/

section Visits

variable {scope scope' : Scope} {v : Visit}

theorem fits_visit (h : ∀ token ∈ v.line.mentions, w.Agrees scope scope' token)
    (before : SymbolTable) : (w.visit before v).place.Fits scope' ↔ v.place.Fits scope := by
  have hwords := w.words?_line h v.counter
  simp only [PlacedLine.Fits, Visit.place, visit, hwords]
  cases v.line.words? scope v.counter with
  | none => simp
  | some result => cases result <;> simp

/-- The row of a line of the copy is a copy of the row of the line. -/
theorem row_visit (h : ∀ token ∈ v.line.mentions, w.Agrees scope scope' token)
    (hapart : ∀ token ∈ v.line.mentions, w.Apart names others token)
    (hsymbols : ∀ s ∈ v.symbols, s.name ∈ names) (hbefore : ∀ s ∈ before, s.name ∈ others) :
    (w.visit before v).row scope' = w.row (v.row scope) := by
  have hwords := w.words?_line h v.counter
  simp only [Visit.row, Visit.place, visit, PlacedLine.words, PlacedLine.late, hwords,
    w.bind_line hsymbols hbefore hapart, w.address?_line, row]
  cases v.line.words? scope v.counter with
  | none => cases (v.line.bind v.symbols v.counter).2 <;> rfl
  | some result => cases result <;> rfl

end Visits

end Copy

/-! ## Copies among other lines -/

/-- The labels that lines bind are declared by them. -/
theorem SourceLine.name_mem_declared {names : List String} {counter : Nat}
    {lines : List SourceLine} {s : Symbol} (h : s ∈ (bindLabels names counter [] lines).1) :
    s.name ∈ declared lines := by
  rcases exists_of_mem_bindLabels h with h | ⟨line, hline, hname⟩
  · exact absurd h List.not_mem_nil
  · exact List.mem_filterMap.2 ⟨line, hline, hname⟩

theorem SourceLine.of_mem_visits {lines : List SourceLine} {v : Visit} (h : v ∈ visits lines) :
    v.line ∈ lines ∧ ∀ s ∈ v.symbols, s.name ∈ declared lines := by
  obtain ⟨k, hk⟩ := List.mem_iff_getElem?.1 h
  rw [getElem?_visits, Option.map_eq_some_iff] at hk
  obtain ⟨line, hline, rfl⟩ := hk
  refine ⟨List.mem_of_getElem? hline, fun s hs => ?_⟩
  exact ((List.take_sublist k lines).filterMap label?).subset (name_mem_declared hs)

namespace Copy

section Bound

variable (w : Copy) {lines : List SourceLine} {others names' : List String} {before : SymbolTable}

theorem mem_declared_of_label? :
    ∀ line ∈ lines, ∀ name, line.label? = some name → name ∈ SourceLine.declared lines :=
  fun line hline _ hname => List.mem_filterMap.2 ⟨line, hline, hname⟩

/-- Behind other labels, lines bind copies of those that they bind by themselves. -/
theorem bindLabels_copied
    (hnames : ∀ name, name ∈ names' ↔
      name ∈ (SourceLine.declared lines).map w.spell ∨ name ∈ others)
    (hlines : ∀ line ∈ lines, ∀ token ∈ line.mentions,
      w.Apart (SourceLine.declared lines) others token)
    (hbefore : ∀ s ∈ before, s.name ∈ others) :
    (bindLabels names' 0 before (lines.map w.line)).1 =
      before ++ (SourceLine.scope lines).symbols.map w.symbol := by
  have hbound := @bindLabels_map_line w _ _ _ [] before lines 0 hnames hlines
    mem_declared_of_label? (List.forall_mem_nil _) hbefore
  rwa [List.map_nil, List.append_nil] at hbound

end Bound

/-- Lines are copied into a source in which names stand for what `scope'` says. There the labels
    `before` and `behind` those of the copy are labels of the other lines. -/
structure Among (w : Copy) (lines : List SourceLine) (others : List String)
    (before behind : SymbolTable) (scope' : Scope) : Prop where
  apart : ∀ line ∈ lines, ∀ token ∈ line.mentions,
    w.Apart (SourceLine.declared lines) others token
  mem_declared_iff : ∀ name, name ∈ scope'.declared ↔
    name ∈ (SourceLine.declared lines).map w.spell ∨ name ∈ others
  symbols_eq : scope'.symbols = before ++ ((SourceLine.scope lines).symbols.map w.symbol ++ behind)
  before_mem : ∀ s ∈ before, s.name ∈ others
  behind_mem : ∀ s ∈ behind, s.name ∈ others

namespace Among

variable {w : Copy} {lines : List SourceLine} {others : List String} {before behind : SymbolTable}
  {scope' : Scope} (h : w.Among lines others before behind scope')

include h

theorem agrees {line : SourceLine} (hline : line ∈ lines) :
    ∀ token ∈ line.mentions, w.Agrees (SourceLine.scope lines) scope' token := by
  intro token htoken
  have hapart := h.apart line hline token htoken
  refine ⟨hapart.mem_iff w h.mem_declared_iff, ?_⟩
  rw [h.symbols_eq]
  exact hapart.address_eq w (fun s hs => SourceLine.name_mem_declared hs) h.before_mem h.behind_mem

theorem ofLines_eq :
    Visit.ofLines scope'.declared 0 before (lines.map w.line) =
      (SourceLine.visits lines).map (w.visit before) := by
  have hvisits := @ofLines_map_line w _ _ _ [] before lines 0 h.mem_declared_iff h.apart
    mem_declared_of_label? (List.forall_mem_nil _) h.before_mem
  rwa [List.map_nil, List.append_nil] at hvisits

/-- The words of the copy fit exactly if those of the lines do. -/
theorem forall_fits_iff :
    (∀ v ∈ Visit.ofLines scope'.declared 0 before (lines.map w.line), v.place.Fits scope') ↔
      ∀ v ∈ SourceLine.visits lines, v.place.Fits (SourceLine.scope lines) := by
  rw [h.ofLines_eq, List.forall_mem_map]
  refine forall₂_congr fun v hv => w.fits_visit (h.agrees ?_) before
  exact (SourceLine.of_mem_visits hv).1

/-- The rows of the copy are copies of the rows of the lines. -/
theorem map_row :
    (Visit.ofLines scope'.declared 0 before (lines.map w.line)).map (Visit.row scope') =
      ((SourceLine.visits lines).map (Visit.row (SourceLine.scope lines))).map w.row := by
  rw [h.ofLines_eq, List.map_map, List.map_map]
  refine List.map_congr_left fun v hv => ?_
  obtain ⟨hline, hsymbols⟩ := SourceLine.of_mem_visits hv
  exact w.row_visit (h.agrees hline) (h.apart v.line hline) hsymbols h.before_mem

end Among

/-! ## Copied rows -/

section Rows

variable (w : Copy) (rows : List Row)

/-- Copied rows put the same words at the same addresses. -/
theorem flatMap_changes_map_row : (rows.map w.row).flatMap Row.changes = rows.flatMap Row.changes :=
  List.flatMap_map ..

theorem filterMap_lineFault?_map_row :
    (rows.map w.row).filterMap Row.lineFault? =
      (rows.filterMap Row.lineFault?).map w.lineFault := by
  rw [List.filterMap_map, List.map_filterMap]
  refine List.filterMap_congr fun row _ => ?_
  cases hfault : row.fault <;> simp [Row.lineFault?, Copy.row, lineFault, hfault]

end Rows

end Copy

end WordMachine
