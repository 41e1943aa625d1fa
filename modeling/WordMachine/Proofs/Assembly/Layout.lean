import WordMachine.Proofs.Assembly.Changes
import WordMachine.Proofs.Assembly.Instructions

/-!
# The layout of an assembly

Where a line stands is told by the lines before it: the last origin among them, and the sizes of
the lines behind that origin (`SourceLine.counterAt_eq_endOf`). It does not matter which of them
are wrong, since a line takes its place before it is looked at. In turn, what the row of a line
shows is told by the place and the size of the line (`Row.LaidOut`): its address, whether there is
room for its words, and how many words it has. A line has all of its words or none, and with a
fault it has none, so that the memory is made by the rows without fault alone (`assemble_layout`).
-/

namespace WordMachine

/-! ## Where lines stand -/

namespace SourceLine

/-- The address that a line moves the counter to, if it is an origin. -/
def origin? (line : SourceLine) : Option Word :=
  match line.statement with
  | .ok (.origin address) => some address
  | _ => none

/-- The number of words that a line takes, whether or not they are right. -/
def size (declared : List String) (line : SourceLine) : Nat :=
  match line.statement with
  | .ok statement => statement.size declared
  | .error _ => 0

/-- Where lines that start at zero end: behind the last origin among them, if there is one, and
    behind the words of the lines that follow it. -/
def endOf (declared : List String) (lines : List SourceLine) : Nat :=
  ((lines.reverse.findSome? origin?).getD 0).toNat +
    ((lines.reverse.takeWhile (·.origin?.isNone)).map (size declared)).sum

variable {declared : List String} {counter : Nat} {line : SourceLine}

theorem next_of_origin? {address : Word} (h : line.origin? = some address) :
    line.next declared counter = address.toNat := by
  rw [origin?] at h
  split at h
  · next hstatement =>
    obtain rfl := Option.some.inj h
    simp only [next, hstatement]
  · cases h

theorem next_of_origin?_eq_none (h : line.origin? = none) :
    line.next declared counter = counter + line.size declared := by
  rw [origin?] at h
  split at h
  · cases h
  · next horigin =>
    rw [next, size]
    split
    · next hstatement => simp only [hstatement, Nat.add_zero]
    · next address hstatement => exact absurd hstatement (horigin address)
    · next statement _ hstatement => simp only [hstatement]

/-- Walking over lines moves the counter to where they end. -/
theorem foldl_next (declared : List String) (lines : List SourceLine) :
    lines.foldl (fun counter line => line.next declared counter) 0 = endOf declared lines := by
  induction lines using List.reverseRecOn with
  | nil => rfl
  | append_singleton lines line ih =>
    rw [List.foldl_append, List.foldl_cons, List.foldl_nil, ih]
    -- Only what stands behind the last origin counts, so that an origin starts anew.
    cases horigin : line.origin? with
    | some address => simp [next_of_origin? horigin, endOf, horigin]
    | none =>
      simp [next_of_origin?_eq_none horigin, endOf, horigin]
      omega

theorem counterAt_eq_endOf (lines : List SourceLine) (k : Nat) :
    counterAt lines k = endOf (SourceLine.declared lines) (lines.take k) :=
  foldl_next _ _

end SourceLine

/-! ## Rows -/

/-- What the row of a line shows where the line stands at `start`. -/
structure Row.LaidOut (declared : List String) (start : Nat) (line : SourceLine) (row : Row) :
    Prop where
  /-- A label, data or an instruction is where the lines before it end, if that is in memory. -/
  placed : ∀ s, line.statement = .ok s → (s.Emits ∨ ∃ name, s = .label name) →
    row.address = if start ≤ 0xFFFF then some (BitVec.ofNat 16 start) else none
  origin : ∀ address, line.statement = .ok (.origin address) → row.address = some address
  silent : (line.statement = .ok .blank ∨ ∃ fault, line.statement = .error fault) →
    row.address = none
  /-- There is no room exactly if the words would go on behind the end of memory. The fault is
      the place of the last of them. -/
  room : ∀ s, line.statement = .ok s → s.Emits → 0 < s.size declared → ∀ address,
    row.fault = some (.addressOverflow address) ↔
      0x10000 < start + s.size declared ∧ address = start + s.size declared - 1
  words : ∀ s, line.statement = .ok s → s.Emits → row.fault = none →
    row.words.length = s.size declared
  fault : row.fault ≠ none → row.words = [] ∧ row.changes = []

namespace PlacedLine

variable {scope : Scope} {early : List LineFault} {p : PlacedLine} {s : Statement}

/-- The row of a line has the fault that the words of its statement have. -/
theorem fault_row_eq_some_iff (hs : p.line.statement = .ok s) (hemits : s.Emits)
    (hearly : earlyFault? early p.line = none) {fault : Fault} :
    (p.row scope early).fault = some fault ↔ s.words scope p.counter = .error fault := by
  rw [row, hearly, Option.or_none, late_eq_some_iff, SourceLine.words?_eq_some_iff]
  simp [hs, hemits]

/-- The row of a line without fault has the words of its statement. -/
theorem words_row_of_fault_eq_none (hs : p.line.statement = .ok s) (hemits : s.Emits)
    (hearly : earlyFault? early p.line = none) (hfault : (p.row scope early).fault = none) :
    s.words scope p.counter = .ok (p.row scope early).words := by
  cases hwords : s.words scope p.counter with
  | error fault =>
    rw [(fault_row_eq_some_iff hs hemits hearly).2 hwords] at hfault
    cases hfault
  | ok ws =>
    have hline : p.line.words? scope p.counter = some (.ok ws) :=
      SourceLine.words?_eq_some_iff.2 ⟨s, hs, hemits, hwords⟩
    simp only [row, words, hline]

/-- With a fault of either walk, a row has no words. -/
theorem words_row_of_fault_ne_none
    (hearly : ∀ s, p.line.statement = .ok s → s.Emits → earlyFault? early p.line = none)
    (hfault : (p.row scope early).fault ≠ none) : (p.row scope early).words = [] := by
  cases hwords : p.line.words? scope p.counter with
  | none => simp only [row, words, hwords]
  | some result =>
    obtain ⟨s, hs, hemits, rfl⟩ := SourceLine.words?_eq_some_iff.1 hwords
    obtain ⟨fault, hfault⟩ := Option.ne_none_iff_exists'.1 hfault
    rw [(fault_row_eq_some_iff hs hemits (hearly s hs hemits)).1 hfault] at hwords
    simp only [row, words, hwords]

variable (p) in
theorem row_laidOut (hnamed : scope.symbols.Named)
    (hearly : ∀ s, p.line.statement = .ok s → s.Emits → earlyFault? early p.line = none) :
    (p.row scope early).LaidOut scope.declared p.counter p.line where
  placed s hs hplaced := by
    have haddress : p.line.address? p.counter = address? p.counter := by
      rcases hplaced with hemits | ⟨name, rfl⟩
      · exact SourceLine.address?_of_emits hs hemits p.counter
      · simp only [SourceLine.address?, hs]
    rw [row, haddress, address?]
    simp only [Nat.lt_succ_iff]
  origin address hs := by simp only [row, SourceLine.address?, hs]
  silent hs := by
    rcases hs with hs | ⟨fault, hs⟩
    · simp only [row, SourceLine.address?, hs]
    · simp only [row, SourceLine.address?, hs]
  room s hs hemits hpos address := by
    rw [fault_row_eq_some_iff hs hemits (hearly s hs hemits),
      Statement.words_eq_addressOverflow_iff hnamed]
    simp only [hpos, true_and]
  words s hs hemits hfault :=
    (Statement.length_of_words
      (words_row_of_fault_eq_none hs hemits (hearly s hs hemits) hfault)).1
  fault hfault := by
    have hwords := words_row_of_fault_ne_none hearly hfault
    refine ⟨hwords, ?_⟩
    rw [Row.changes, hwords]
    split <;> rfl

end PlacedLine

/-- Rows without changes can be left out. -/
theorem Row.flatMap_changes_filter {rows : List Row} {keep : Row → Bool}
    (h : ∀ row ∈ rows, keep row = false → row.changes = []) :
    (rows.filter keep).flatMap changes = rows.flatMap changes := by
  induction rows with
  | nil => rfl
  | cons row rows ih =>
    obtain ⟨hrow, hrows⟩ := List.forall_mem_cons.1 h
    cases hkeep : keep row with
    | true => rw [List.filter_cons_of_pos hkeep, List.flatMap_cons, List.flatMap_cons, ih hrows]
    | false =>
      rw [List.filter_cons_of_neg (by simp [hkeep]), List.flatMap_cons, hrow hkeep, ih hrows,
        List.nil_append]

/-! ## Assemblies -/

/-- The row of a line shows the place where the lines before it end. -/
theorem row_laidOut_endOf {source : String} {k : Nat} {line : SourceLine}
    (hline : (SourceLine.ofSource source)[k]? = some line) :
    (PlacedLine.row (SourceLine.scope (SourceLine.ofSource source))
      (SourceLine.earlyFaults (SourceLine.ofSource source))
      ⟨SourceLine.counterAt (SourceLine.ofSource source) k, line⟩).LaidOut
      (SourceLine.declared (SourceLine.ofSource source))
      (SourceLine.endOf (SourceLine.declared (SourceLine.ofSource source))
        ((SourceLine.ofSource source).take k)) line := by
  rw [← SourceLine.counterAt_eq_endOf]
  exact PlacedLine.row_laidOut ⟨_, line⟩ (named_scope source)
    fun s hs hemits => earlyFault?_of_emits (List.mem_of_getElem? hline) hs hemits

end WordMachine
