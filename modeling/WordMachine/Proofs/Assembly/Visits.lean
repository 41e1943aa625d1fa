import WordMachine.Proofs.Assembly.Rows

/-!
# Visits to lines

The walks come to a line with what the lines before it have left: the first with the address
counter and the labels bound so far, the second with the counter alone. A *visit* is the line with
both (`Visit.ofLines`). What an assembly shows of the line is told by its visit and by what names
stand for in the end (`Visit.row`), and so is whether there is an assembly: the listing is the rows
of the visits (`listing_eq_map_visits`), and there is one exactly if at every visit the words fit
(`exists_assemble_iff_fits`). Two assemblies are therefore compared visit by visit.
-/

namespace WordMachine

/-- A line, where the address counter stands before it, and the labels that are bound before it. -/
structure Visit where
  counter : Nat
  symbols : SymbolTable
  line : SourceLine

namespace Visit

/-- The visits to lines that stand one after another. -/
def ofLines (declared : List String) (counter : Nat) (symbols : SymbolTable) :
    List SourceLine → List Visit
  | [] => []
  | line :: rest =>
    ⟨counter, symbols, line⟩ ::
      ofLines declared (line.next declared counter) (line.bind symbols counter).1 rest

/-- The place of the line. -/
def place (v : Visit) : PlacedLine := ⟨v.counter, v.line⟩

/-- The row of the line. -/
def row (scope : Scope) (v : Visit) : Row :=
  ⟨v.line.number, v.line.address? v.counter, v.place.words scope, v.line.text,
    (v.place.late scope).or (v.line.bind v.symbols v.counter).2⟩

variable (declared : List String) (counter : Nat) (symbols : SymbolTable)

/-- A visit comes with what the lines before it have left. -/
theorem getElem?_ofLines (lines : List SourceLine) (k : Nat) :
    (ofLines declared counter symbols lines)[k]? = lines[k]?.map fun line =>
      ⟨(lines.take k).foldl (fun counter line => line.next declared counter) counter,
        (bindLabels declared counter symbols (lines.take k)).1, line⟩ := by
  induction lines generalizing counter symbols k with
  | nil => rfl
  | cons line rest ih =>
    cases k with
    | zero => rfl
    | succ k =>
      rw [ofLines, List.getElem?_cons_succ, ih]
      rfl

/-- Visits to lines behind others come with what these have left. -/
theorem ofLines_append (before lines : List SourceLine) :
    ofLines declared counter symbols (before ++ lines) =
      ofLines declared counter symbols before ++
        ofLines declared (before.foldl (fun counter line => line.next declared counter) counter)
          (bindLabels declared counter symbols before).1 lines := by
  induction before generalizing counter symbols with
  | nil => rfl
  | cons line before ih =>
    rw [List.cons_append, ofLines, ih]
    rfl

theorem length_ofLines (lines : List SourceLine) :
    (ofLines declared counter symbols lines).length = lines.length := by
  induction lines generalizing counter symbols with
  | nil => rfl
  | cons line rest ih => rw [ofLines, List.length_cons, ih, List.length_cons]

theorem map_place_ofLines (lines : List SourceLine) :
    (ofLines declared counter symbols lines).map place =
      PlacedLine.ofLines declared counter lines := by
  induction lines generalizing counter symbols with
  | nil => rfl
  | cons line rest ih =>
    rw [ofLines, List.map_cons, ih]
    rfl

end Visit

namespace SourceLine

variable (lines : List SourceLine)

/-- The visits to the lines of a source. -/
def visits : List Visit := Visit.ofLines (declared lines) 0 [] lines

theorem getElem?_visits (k : Nat) :
    (visits lines)[k]? = lines[k]?.map (⟨counterAt lines k, symbolsAt lines k, ·⟩) :=
  Visit.getElem?_ofLines (declared lines) 0 [] lines k

theorem map_place_visits : (visits lines).map Visit.place = places lines :=
  Visit.map_place_ofLines (declared lines) 0 [] lines

theorem map_line_visits : (visits lines).map Visit.line = lines := by
  calc
    (visits lines).map Visit.line = ((visits lines).map Visit.place).map (·.line) := by
      rw [List.map_map]
      rfl
    _ = lines := by rw [map_place_visits, map_line_places]

variable {lines}

/-- The fault that a line has in the first walk is that of its visit. -/
theorem Numbered.map_row_places (h : Numbered lines) (scope : Scope) :
    (places lines).map (PlacedLine.row scope (earlyFaults lines)) =
      (visits lines).map (Visit.row scope) := by
  refine List.ext_getElem? fun k => ?_
  rw [List.getElem?_map, getElem?_places, List.getElem?_map, getElem?_visits]
  cases hline : lines[k]? with
  | none => rfl
  | some line =>
    simp only [Option.map_some, PlacedLine.row, Visit.row, Visit.place, earlyFault?_eq h hline]

end SourceLine

section Assembled

variable {source : String} {a : Assembly}

theorem listing_eq_map_visits (h : assemble source = .ok a) :
    a.listing = (SourceLine.visits (SourceLine.ofSource source)).map
      (Visit.row (SourceLine.scope (SourceLine.ofSource source))) := by
  rw [listing_of_assemble h, (SourceLine.numbered_ofSource source).map_row_places]

theorem exists_assemble_iff_fits :
    (∃ a, assemble source = .ok a) ↔
      ∀ v ∈ SourceLine.visits (SourceLine.ofSource source),
        v.place.Fits (SourceLine.scope (SourceLine.ofSource source)) := by
  rw [← List.forall_mem_map (f := Visit.place), SourceLine.map_place_visits]
  constructor
  · rintro ⟨a, ha⟩
    exact (assembleLines_eq_ok_iff.1 ha).1
  · exact fun hfits => ⟨_, assembleLines_eq_ok_iff.2 ⟨hfits, rfl⟩⟩

end Assembled

end WordMachine
