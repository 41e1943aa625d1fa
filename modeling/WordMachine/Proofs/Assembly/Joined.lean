import WordMachine.Proofs.Assembly.Apart

/-!
# Sources that are joined

A source that starts by moving the address counter is not told where the counter was. If moreover
neither of two sources says a name that the other declares, the second is assembled behind the first
as it is by itself (`assemble_append`): its lines are a copy among those of the first, only with
other numbers (`SourceLine.ofTexts_add`), and the lines of the first are one among those of the
second.
-/

namespace WordMachine

/-! ## Lines with other numbers -/

namespace Copy

theorem statement_below (n : Nat) (s : Statement) : (below n).statement s = s := by
  cases s with
  | data values => exact congrArg Statement.data (List.map_id _)
  | instruction mnemonic operands => exact congrArg _ (List.map_id _)
  | _ => rfl

theorem fault_below {n : Nat} {fault : Fault} (h : Statement.IsFault fault) :
    (below n).fault fault = fault := by
  cases fault with
  | duplicateLabel name firstLine => exact h.elim
  | _ => rfl

/-- Where the fault of a line is not one of two lines, only the number of the line changes. -/
theorem line_below {n : Nat} {line : SourceLine}
    (h : ∀ fault, line.statement = .error fault → (below n).fault fault = fault) :
    (below n).line line = ⟨line.number + n, line.text, line.statement⟩ := by
  have hstatement : (line.statement.map (below n).statement).mapError (below n).fault =
      line.statement := by
    cases hs : line.statement with
    | error fault => exact congrArg Except.error (h fault hs)
    | ok s => exact congrArg Except.ok (statement_below n s)
  rw [Copy.line, hstatement]
  rfl

theorem fault_below_zero (fault : Fault) : (below 0).fault fault = fault := by
  cases fault <;> rfl

/-- Below no lines a copy is the original. -/
theorem line_below_zero : (below 0).line = id :=
  funext fun _ => line_below fun fault _ => fault_below_zero fault

theorem symbol_below_zero : (below 0).symbol = id := rfl

theorem row_below_zero : (below 0).row = id := by
  funext row
  have hfault : row.fault.map (below 0).fault = row.fault :=
    (congrArg (row.fault.map ·) (funext fault_below_zero)).trans Option.map_id_apply
  rw [Copy.row, hfault]
  rfl

end Copy

/-- The lines of a source with larger numbers are a copy of them. -/
theorem SourceLine.ofTexts_add (first n : Nat) (texts : List (List Char)) :
    ofTexts (first + n) texts = (ofTexts first texts).map (Copy.below n).line := by
  induction texts generalizing first with
  | nil => rfl
  | cons text texts ih =>
    rw [ofTexts_cons, ofTexts_cons, List.map_cons, ← ih, Nat.add_right_comm]
    congr 1
    rw [Copy.line_below]
    exact fun fault hfault => Copy.fault_below (Statement.ofLine_failsIn text fault hfault)

/-! ## Lines that move the counter first -/

/-- The row of a line that moves the address counter does not show where the counter was. -/
theorem Visit.row_of_origin {v : Visit} {address : Word}
    (h : v.line.statement = .ok (.origin address)) (scope : Scope) :
    v.row scope = ⟨v.line.number, some address, [], v.line.text, none⟩ ∧ v.place.Fits scope := by
  have hwords : v.line.words? scope v.counter = none := by simp only [SourceLine.words?, h]
  constructor
  · simp only [row, place, PlacedLine.words, PlacedLine.late, hwords, SourceLine.address?,
      SourceLine.bind, h, Option.or_none]
  · intro ws hws
    cases hwords.symm.trans hws

/-- The lines start with one that moves the address counter. -/
def SourceLine.StartsAt (lines : List SourceLine) (address : Word) : Prop :=
  ∃ line ∈ lines.head?, line.statement = .ok (.origin address)

/-- Where the counter was before such lines shows neither in the labels that they bind nor in their
    rows, nor in whether their words fit. -/
theorem SourceLine.StartsAt.walks {lines : List SourceLine} {address : Word}
    (h : StartsAt lines address) (names : List String) (counter counter' : Nat)
    (symbols : SymbolTable) (scope : Scope) :
    (bindLabels names counter symbols lines).1 = (bindLabels names counter' symbols lines).1 ∧
    (Visit.ofLines names counter symbols lines).map (Visit.row scope) =
      (Visit.ofLines names counter' symbols lines).map (Visit.row scope) ∧
    ((∀ v ∈ Visit.ofLines names counter symbols lines, v.place.Fits scope) ↔
      ∀ v ∈ Visit.ofLines names counter' symbols lines, v.place.Fits scope) := by
  obtain ⟨line, hline, hs⟩ := h
  obtain ⟨rest, rfl⟩ := List.head?_eq_some_iff.1 hline
  have hnext : ∀ counter, line.next names counter = address.toNat := fun counter => by
    simp only [next, hs]
  have hbind : ∀ counter, line.bind symbols counter = (symbols, none) := fun counter => by
    simp only [bind, hs]
  have hrow := fun counter => Visit.row_of_origin (v := ⟨counter, symbols, line⟩) hs scope
  refine ⟨?_, ?_, ?_⟩
  · simp only [bindLabels, hnext, hbind]
  · simp only [Visit.ofLines, hnext, hbind, List.map_cons, (hrow _).1]
  · simp only [Visit.ofLines, hnext, hbind, List.forall_mem_cons, (hrow _).2]

theorem SourceLine.StartsAt.map_line {lines : List SourceLine} {address : Word}
    (h : StartsAt lines address) (w : Copy) : StartsAt (lines.map w.line) address := by
  obtain ⟨line, hline, hs⟩ := h
  refine ⟨w.line line, ?_, ?_⟩
  · rw [List.head?_map, hline]
    rfl
  · rw [w.statement_line, hs]
    rfl

/-! ## Lines behind others -/

namespace SourceLine

/-- No token of the lines is a name that the others declare. -/
def NamesApart (lines others : List SourceLine) : Prop :=
  ∀ name ∈ declared others, ∀ line ∈ lines, name ∉ line.mentions

theorem NamesApart.apart {lines others : List SourceLine} (h : NamesApart lines others) (n : Nat) :
    ∀ line ∈ lines, ∀ token ∈ line.mentions,
      (Copy.below n).Apart (declared lines) (declared others) token :=
  fun line hline token htoken =>
    ⟨fun hmem => h token hmem line hline htoken, fun _ _ heq => heq⟩

section Behind

variable {first second : List SourceLine} {address : Word}

theorem declared_append_below (first second : List SourceLine) (n : Nat) :
    declared (first ++ second.map (Copy.below n).line) = declared first ++ declared second := by
  refine List.filterMap_append.trans (congrArg (declared first ++ ·) ?_)
  exact ((Copy.below n).declared_map_line second).trans (List.map_id _)

theorem mem_names_first (name : String) : name ∈ declared first ++ declared second ↔
    name ∈ (declared first).map (Copy.below 0).spell ∨ name ∈ declared second := by
  rw [List.mem_append]
  exact or_congr_left (by rw [Copy.below, List.map_id])

theorem mem_names_second (n : Nat) (name : String) : name ∈ declared first ++ declared second ↔
    name ∈ (declared second).map (Copy.below n).spell ∨ name ∈ declared first := by
  rw [List.mem_append, or_comm]
  exact or_congr_left (by rw [Copy.below, List.map_id])

/-- The first lines bind what they bind by themselves. -/
theorem bindLabels_first (hfirst : NamesApart first second) :
    (bindLabels (declared first ++ declared second) 0 [] first).1 = (scope first).symbols := by
  have hbound := (Copy.below 0).bindLabels_copied mem_names_first (hfirst.apart 0)
    (List.forall_mem_nil _)
  rwa [Copy.line_below_zero, Copy.symbol_below_zero, List.map_id, List.map_id] at hbound

section Apart

variable (hfirst : NamesApart first second) (hsecond : NamesApart second first)
  (horigin : StartsAt second address) (n : Nat)

include hfirst hsecond horigin

/-- Where names are apart, the labels that are bound are those of the first lines and those of a
    copy of the others. -/
theorem scope_append_below :
    scope (first ++ second.map (Copy.below n).line) =
      ⟨declared first ++ declared second,
        (scope first).symbols ++ (scope second).symbols.map (Copy.below n).symbol⟩ := by
  have hbound := (Copy.below n).bindLabels_copied (mem_names_second n) (hsecond.apart n)
    fun s (hs : s ∈ (scope first).symbols) => name_mem_declared hs
  rw [scope, declared_append_below, bindLabels_append]
  simp only [bindLabels_first hfirst]
  rw [((horigin.map_line _).walks _ _ 0 _ ⟨[], []⟩).1]
  exact congrArg (Scope.mk _) hbound

/-- Both stand among the lines of the other as they do by themselves. -/
theorem among_append_below :
    (Copy.below 0).Among first (declared second) []
      ((scope second).symbols.map (Copy.below n).symbol)
      (scope (first ++ second.map (Copy.below n).line)) ∧
    (Copy.below n).Among second (declared first) (scope first).symbols []
      (scope (first ++ second.map (Copy.below n).line)) := by
  rw [scope_append_below hfirst hsecond horigin]
  refine ⟨⟨hfirst.apart 0, mem_names_first, ?_, List.forall_mem_nil _, ?_⟩,
    ⟨hsecond.apart n, mem_names_second n, ?_, fun s hs => name_mem_declared hs,
      List.forall_mem_nil _⟩⟩
  · rw [Copy.symbol_below_zero, List.map_id, List.nil_append]
  · rw [List.forall_mem_map]
    intro s hs
    have hname : s.name ∈ declared second := name_mem_declared hs
    exact hname
  · rw [List.append_nil]

/-- The rows of all lines are those of the first and copies of those of the others, and all words
    fit exactly if they do in both. -/
theorem visits_append_below :
    (visits (first ++ second.map (Copy.below n).line)).map
        (Visit.row (scope (first ++ second.map (Copy.below n).line))) =
      (visits first).map (Visit.row (scope first)) ++
        ((visits second).map (Visit.row (scope second))).map (Copy.below n).row ∧
    ((∀ v ∈ visits (first ++ second.map (Copy.below n).line),
        v.place.Fits (scope (first ++ second.map (Copy.below n).line))) ↔
      (∀ v ∈ visits first, v.place.Fits (scope first)) ∧
        ∀ v ∈ visits second, v.place.Fits (scope second)) := by
  obtain ⟨hamong, hamong'⟩ := among_append_below hfirst hsecond horigin n
  have hnames : (scope (first ++ second.map (Copy.below n).line)).declared =
      declared first ++ declared second := declared_append_below first second n
  -- The walks come to the other lines from where the first have left the counter.
  obtain ⟨-, hrows, hfits⟩ := (horigin.map_line (Copy.below n)).walks
    (declared first ++ declared second)
    (first.foldl (fun counter line => line.next (declared first ++ declared second) counter) 0) 0
    (scope first).symbols (scope (first ++ second.map (Copy.below n).line))
  have hrows₁ := hamong.map_row
  have hrows₂ := hamong'.map_row
  have hfits₁ := hamong.forall_fits_iff
  have hfits₂ := hamong'.forall_fits_iff
  rw [hnames] at hrows₁ hrows₂ hfits₁ hfits₂
  rw [Copy.line_below_zero, List.map_id] at hrows₁ hfits₁
  rw [Copy.row_below_zero, List.map_id] at hrows₁
  rw [visits, declared_append_below, Visit.ofLines_append, bindLabels_first hfirst]
  constructor
  · rw [List.map_append, hrows₁, hrows, hrows₂]
  · rw [List.forall_mem_append, hfits₁, hfits, hfits₂]

end Apart

end Behind

end SourceLine

/-! ## Joined sources -/

/-- The label that a line declares is among its tokens. -/
theorem SourceLine.mem_mentions_of_label? {line : SourceLine} {name : String}
    (h : line.label? = some name) : name ∈ line.mentions := by
  rw [mentions, label?_eq_some_iff.1 h]
  exact List.mem_singleton_self name

/-- Names that are apart are declared on one side only. -/
theorem SourceLine.NamesApart.not_mem_declared {lines others : List SourceLine} {name : String}
    (h : NamesApart lines others) (hname : name ∈ declared others) : name ∉ declared lines := by
  intro hmem
  obtain ⟨line, hline, hlabel⟩ := List.mem_filterMap.1 hmem
  exact h name hname line hline (mem_mentions_of_label? hlabel)

/-- In tables of different names with one behind the other, a label has the address that it has in
    one of them. -/
theorem SymbolTable.address_append_below {symbols others : SymbolTable}
    (h : ∀ s ∈ symbols, ∀ t ∈ others, t.name ≠ s.name) (n : Nat) (name : String) (w : Word) :
    SymbolTable.address (symbols ++ others.map (Copy.below n).symbol) name = .ok w ↔
      symbols.address name = .ok w ∨ others.address name = .ok w := by
  have hcopied : (others.map (Copy.below n).symbol).find? (·.name == name) =
      (others.lookup? name).map (Copy.below n).symbol := List.find?_map
  simp only [address_eq_ok_iff]
  rw [lookup?, List.find?_append, hcopied, ← lookup?]
  cases hfound : symbols.lookup? name with
  | none => simp [Copy.symbol]
  | some s =>
    have hs : s.name = name := by simpa using List.find?_some hfound
    have hnone : others.lookup? name = none := by
      refine List.find?_eq_none.2 fun t ht heq => ?_
      exact h s (List.mem_of_find?_eq_some hfound) t ht ((beq_iff_eq.1 heq).trans hs.symm)
    simp [hnone]

/-- The lines of a source behind another one are a copy of its lines by itself. -/
theorem SourceLine.ofSource_append_below {first second : String} {n : Nat}
    (hend : first = "" ∨ first.toList.getLast? = some '\n')
    (hn : (Text.lines first.toList).length = n) :
    ofSource (first ++ second) = ofSource first ++ (ofSource second).map (Copy.below n).line := by
  rw [ofSource_append hend, ofTexts_add, ofSource_eq_ofTexts, length_ofTexts, hn]
  rfl

theorem SourceLine.startsAt_ofSource {source : String} {address : Word}
    (h : ∃ text ∈ (Text.lines source.toList).head?, Statement.ofLine text = .ok (.origin address)) :
    StartsAt (ofSource source) address := by
  obtain ⟨text, htext, hs⟩ := h
  obtain ⟨rest, hlines⟩ := List.head?_eq_some_iff.1 htext
  rw [ofSource_eq_ofTexts, hlines]
  exact ⟨_, rfl, hs⟩

/-- A source that starts by moving the address counter, behind a source that is empty or ends in a
    line feed, where neither says a name that the other declares: what is assembled is what is
    assembled of each by itself. There is no assembly exactly if one of them has none. Otherwise
    the listing and the faults are those of the first and then those of the second, in which line
    numbers are larger by the number of the first's lines (`Copy.below`); the changes are those of
    both, one behind the other; so are the labels, each with the address that it has in one of
    them; and it is a success exactly if both are. -/
theorem assemble_append {first second : String} {address : Word} {n : Nat}
    (hend : first = "" ∨ first.toList.getLast? = some '\n')
    (hn : (Text.lines first.toList).length = n)
    (horigin : ∃ text ∈ (Text.lines second.toList).head?,
      Statement.ofLine text = .ok (.origin address))
    (hfirst : SourceLine.NamesApart (SourceLine.ofSource first) (SourceLine.ofSource second))
    (hsecond : SourceLine.NamesApart (SourceLine.ofSource second) (SourceLine.ofSource first)) :
    ((∃ overrun, assemble (first ++ second) = .error overrun) ↔
      (∃ overrun, assemble first = .error overrun) ∨
        ∃ overrun, assemble second = .error overrun) ∧
    ∀ a b, assemble first = .ok a → assemble second = .ok b →
      ∃ c, assemble (first ++ second) = .ok c ∧
        c.listing = a.listing ++ b.listing.map (Copy.below n).row ∧
        c.faults = a.faults ++ b.faults.map (Copy.below n).lineFault ∧
        c.changes = a.changes ++ b.changes ∧
        c.symbols = a.symbols ++ b.symbols.map (Copy.below n).symbol ∧
        (∀ name w, c.symbols.address name = .ok w ↔
          a.symbols.address name = .ok w ∨ b.symbols.address name = .ok w) ∧
        (c.success = true ↔ a.success = true ∧ b.success = true) := by
  have hlines : SourceLine.ofSource (first ++ second) = SourceLine.ofSource first ++
      (SourceLine.ofSource second).map (Copy.below n).line :=
    SourceLine.ofSource_append_below hend hn
  have hscope := SourceLine.scope_append_below hfirst hsecond
    (SourceLine.startsAt_ofSource horigin) n
  obtain ⟨hrows, hfits⟩ := SourceLine.visits_append_below hfirst hsecond
    (SourceLine.startsAt_ofSource horigin) n
  rw [← hlines] at hrows hfits hscope
  constructor
  · rw [Except.exists_eq_error_iff, Except.exists_eq_error_iff, Except.exists_eq_error_iff,
      exists_assemble_iff_fits, exists_assemble_iff_fits, exists_assemble_iff_fits, hfits,
      not_and_or]
  intro a b ha hb
  obtain ⟨c, hc⟩ := exists_assemble_iff_fits.2
    (hfits.2 ⟨exists_assemble_iff_fits.1 ⟨a, ha⟩, exists_assemble_iff_fits.1 ⟨b, hb⟩⟩)
  have hlisting : c.listing = a.listing ++ b.listing.map (Copy.below n).row := by
    rw [listing_eq_map_visits hc, hrows, listing_eq_map_visits ha, listing_eq_map_visits hb]
  have hfaults : c.faults = a.faults ++ b.faults.map (Copy.below n).lineFault := by
    rw [Assembly.faults_eq_filterMap hc, hlisting, List.filterMap_append,
      Copy.filterMap_lineFault?_map_row, Assembly.faults_eq_filterMap ha,
      Assembly.faults_eq_filterMap hb]
  have hsymbols : c.symbols = a.symbols ++ b.symbols.map (Copy.below n).symbol := by
    rw [symbols_of_assemble hc, hscope, symbols_of_assemble ha, symbols_of_assemble hb]
  refine ⟨c, hc, hlisting, hfaults, ?_, hsymbols, fun name w => ?_, ?_⟩
  · rw [Assembly.changes, hlisting, List.flatMap_append, Copy.flatMap_changes_map_row]
    rfl
  · rw [hsymbols]
    refine SymbolTable.address_append_below (fun s hs t ht heq => ?_) n name w
    rw [symbols_of_assemble ha] at hs
    rw [symbols_of_assemble hb] at ht
    have hname : s.name ∈ SourceLine.declared (SourceLine.ofSource first) :=
      SourceLine.name_mem_declared hs
    exact hsecond.not_mem_declared (heq ▸ hname) (SourceLine.name_mem_declared ht)
  · rw [Assembly.success, Assembly.success, Assembly.success, hfaults]
    simp

/-- A loop, and behind it a source at an address of its own that declares a label twice and refers
    to one that there is not: its faults are there with other line numbers. -/
theorem assemble_append_duplicate :
    ∃ a b c, assemble "a:\nJNZ a\n" = .ok a ∧ assemble ".org 16\nc:\nc:\nJNZ d" = .ok b ∧
      assemble ("a:\nJNZ a\n" ++ ".org 16\nc:\nc:\nJNZ d") = .ok c ∧
      c.listing = a.listing ++ b.listing.map (Copy.below 2).row ∧
      b.faults = [⟨3, .duplicateLabel "c" 2⟩, ⟨4, .unknownLabel "d"⟩] ∧
      c.faults = [⟨5, .duplicateLabel "c" 4⟩, ⟨6, .unknownLabel "d"⟩] := by
  obtain ⟨a, ha⟩ := exists_assemble "a:\nJNZ a\n" (by decide +kernel)
  obtain ⟨b, hb⟩ := exists_assemble ".org 16\nc:\nc:\nJNZ d" (by decide +kernel)
  have hfirst : SourceLine.NamesApart (SourceLine.ofSource "a:\nJNZ a\n")
      (SourceLine.ofSource ".org 16\nc:\nc:\nJNZ d") := by
    rw [SourceLine.NamesApart]
    decide +kernel
  have hsecond : SourceLine.NamesApart (SourceLine.ofSource ".org 16\nc:\nc:\nJNZ d")
      (SourceLine.ofSource "a:\nJNZ a\n") := by
    rw [SourceLine.NamesApart]
    decide +kernel
  have hfaults : a.faults = [] := by
    rw [Assembly.faults_eq_filterMap ha, listing_of_assemble ha]
    decide +kernel
  have hfaults' : b.faults = [⟨3, .duplicateLabel "c" 2⟩, ⟨4, .unknownLabel "d"⟩] := by
    rw [Assembly.faults_eq_filterMap hb, listing_of_assemble hb]
    decide +kernel
  obtain ⟨c, hc, hlisting, hjoined, -⟩ :=
    (@assemble_append "a:\nJNZ a\n" ".org 16\nc:\nc:\nJNZ d" 16 2 (.inr (by decide))
      (by decide +kernel) ⟨".org 16".toList, by decide +kernel, by decide +kernel⟩ hfirst
      hsecond).2 a b ha hb
  refine ⟨a, b, c, ha, hb, hc, hlisting, hfaults', ?_⟩
  rw [hjoined, hfaults, hfaults']
  rfl

end WordMachine
