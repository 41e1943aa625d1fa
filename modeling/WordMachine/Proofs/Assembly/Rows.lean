import Mathlib.Data.List.Nodup
import WordMachine.Proofs.Assembly.Places

/-!
# The rows and the faults of an assembly

An assembly tells its faults twice: a row shows the fault of its line, and the faults of all lines
stand in a list of their own. The list is made of two, one from each walk over the lines. Either
is in the order of the lines (`SourceLine.earlyFaults_eq_flatMap`), and no line has a fault in both
walks (`PlacedLine.early_or_late_eq_none`), so that the two are merged line by line
(`merge_flatMap_mark`) and the list is what the rows show, in their order
(`Assembly.faults_eq_filterMap`). There is a row for every line, whatever is wrong with the lines
before it (`assemble_faults_of_rows`).
-/

namespace List

variable {α : Type*} {le : α → α → Bool} {a b : α} {as bs : List α}

/-- What comes before all of the other list is merged first. -/
theorem merge_cons_left (h : ∀ b ∈ bs, le a b = true) :
    (a :: as).merge bs le = a :: as.merge bs le := by
  cases bs with
  | nil => simp
  | cons b bs => rw [cons_merge_cons, if_pos (h b mem_cons_self)]

theorem merge_cons_right (h : ∀ a ∈ as, le a b = false) :
    as.merge (b :: bs) le = b :: as.merge bs le := by
  cases as with
  | nil => simp
  | cons a as => rw [cons_merge_cons, if_neg (by simp [h a mem_cons_self])]

end List

namespace WordMachine

/-! ## Faults in the order of lines -/

/-- A fault that a line is marked with has the number of the line. -/
theorem SourceLine.line_of_mem_mark {line : SourceLine} {fault : Option Fault} {e : LineFault}
    (h : e ∈ line.mark fault) : e.line = line.number := by
  rw [mark, Option.mem_toList, Option.map_eq_some_iff] at h
  obtain ⟨_, -, rfl⟩ := h
  rfl

section Marks

variable {α : Type*} {line : α → SourceLine} {as : List α}

theorem exists_of_mem_flatMap_mark {fault : α → Option Fault} {e : LineFault}
    (h : e ∈ as.flatMap fun a => (line a).mark (fault a)) : ∃ a ∈ as, e.line = (line a).number := by
  obtain ⟨a, ha, he⟩ := List.mem_flatMap.1 h
  exact ⟨a, ha, SourceLine.line_of_mem_mark he⟩

/-- The faults of two walks over the same lines are merged line by line, if no line has a fault in
    both. -/
theorem merge_flatMap_mark {early late : α → Option Fault}
    (hsorted : as.Pairwise fun a b => (line a).number < (line b).number)
    (hone : ∀ a ∈ as, early a = none ∨ late a = none) :
    (as.flatMap fun a => (line a).mark (early a)).merge
        (as.flatMap fun a => (line a).mark (late a)) (fun e e' => e.line ≤ e'.line) =
      as.flatMap fun a => (line a).mark ((late a).or (early a)) := by
  induction as with
  | nil => simp
  | cons a as ih =>
    obtain ⟨hbehind, hsorted⟩ := List.pairwise_cons.1 hsorted
    obtain ⟨ha, hone⟩ := List.forall_mem_cons.1 hone
    have hnumber : ∀ (fault : α → Option Fault),
        ∀ e ∈ as.flatMap (fun b => (line b).mark (fault b)), (line a).number < e.line := by
      intro fault e he
      obtain ⟨b, hb, hline⟩ := exists_of_mem_flatMap_mark he
      rw [hline]
      exact hbehind b hb
    rw [List.flatMap_cons, List.flatMap_cons, List.flatMap_cons, ← ih hsorted hone]
    -- The fault of the line, in whichever walk it is found, comes before those of the others.
    cases hearly : early a with
    | none =>
      cases hlate : late a with
      | none => rfl
      | some fault =>
        refine List.merge_cons_right fun e he => ?_
        exact decide_eq_false (Nat.not_le.2 (hnumber early e he))
    | some fault =>
      rw [ha.resolve_left (by simp [hearly])]
      refine List.merge_cons_left fun e he => ?_
      exact decide_eq_true (Nat.le_of_lt (hnumber late e he))

end Marks

namespace SourceLine

variable {lines : List SourceLine}

theorem Numbered.pairwise (h : Numbered lines) :
    lines.Pairwise fun a b => a.number < b.number := by
  rw [List.pairwise_iff_getElem]
  intro i j hi hj hlt
  have hbefore := h i lines[i] (List.getElem?_eq_getElem hi)
  have hbehind := h j lines[j] (List.getElem?_eq_getElem hj)
  omega

/-- The first walk finds faults in the order of the lines, at most one in each. -/
theorem snd_bindLabels_eq_flatMap (names : List String) (counter : Nat) (symbols : SymbolTable)
    (h : lines.Pairwise fun a b => a.number < b.number) :
    (bindLabels names counter symbols lines).2 =
      lines.flatMap fun line =>
        line.mark (earlyFault? (bindLabels names counter symbols lines).2 line) := by
  induction lines generalizing counter symbols with
  | nil => rfl
  | cons line rest ih =>
    obtain ⟨hbehind, hrest⟩ := List.pairwise_cons.1 h
    rw [bindLabels]
    generalize hbound : line.bind symbols counter = bound
    have hothers : (bindLabels names (line.next names counter) bound.1 rest).2.find?
        (·.line == line.number) = none :=
      find?_earlyFaults_eq_none names _ _ fun other hother => (hbehind other hother).ne'
    have hhere : earlyFault? (line.mark bound.2 ++
        (bindLabels names (line.next names counter) bound.1 rest).2) line = bound.2 := by
      rw [earlyFault?, List.find?_append, hothers]
      cases bound.2 <;> simp [mark]
    rw [List.flatMap_cons, hhere]
    refine congrArg (line.mark bound.2 ++ ·) ((ih _ _ hrest).trans ?_)
    refine List.flatMap_congr fun other hother => ?_
    -- The fault of the first line is not that of a line behind it.
    have hfirst : (line.mark bound.2).find? (·.line == other.number) = none := by
      refine List.find?_eq_none.2 fun e he => ?_
      rw [line_of_mem_mark he]
      simpa using (hbehind other hother).ne
    rw [earlyFault?, earlyFault?, List.find?_append, hfirst, Option.none_or]

theorem map_line_places (lines : List SourceLine) : (places lines).map (·.line) = lines := by
  refine List.ext_getElem? fun k => ?_
  rw [List.getElem?_map, getElem?_places, Option.map_map]
  cases lines[k]? <;> rfl

/-- The places of a source are in the order of its lines. -/
theorem Numbered.pairwise_places (h : Numbered lines) :
    (places lines).Pairwise fun p q => p.line.number < q.line.number := by
  rw [← List.pairwise_map (f := PlacedLine.line) (R := fun a b => a.number < b.number),
    map_line_places]
  exact h.pairwise

theorem earlyFaults_eq_flatMap (h : Numbered lines) :
    earlyFaults lines =
      (places lines).flatMap fun p => p.line.mark (earlyFault? (earlyFaults lines) p.line) := by
  calc
    earlyFaults lines
        = lines.flatMap fun line => line.mark (earlyFault? (earlyFaults lines) line) :=
      snd_bindLabels_eq_flatMap (declared lines) 0 [] h.pairwise
    _ = ((places lines).map (·.line)).flatMap
          fun line => line.mark (earlyFault? (earlyFaults lines) line) := by rw [map_line_places]
    _ = (places lines).flatMap fun p => p.line.mark (earlyFault? (earlyFaults lines) p.line) :=
      List.flatMap_map ..

end SourceLine

/-- A line with a fault in the second walk has none in the first, which only finds faults where
    there are no words to assemble. -/
theorem PlacedLine.early_or_late_eq_none {source : String} {scope : Scope} {p : PlacedLine}
    (hp : p.line ∈ SourceLine.ofSource source) :
    earlyFault? (SourceLine.earlyFaults (SourceLine.ofSource source)) p.line = none ∨
      p.late scope = none := by
  cases hlate : p.late scope with
  | none => exact .inr rfl
  | some fault =>
    obtain ⟨s, hs, hemits, -⟩ := SourceLine.words?_eq_some_iff.1 (late_eq_some_iff.1 hlate)
    exact .inl (earlyFault?_of_emits hp hs hemits)

/-! ## Assemblies -/

/-- The fault that a row shows, with its line. -/
def Row.lineFault? (row : Row) : Option LineFault := row.fault.map (⟨row.line, ·⟩)

section Assembled

variable {source : String} {a : Assembly}

/-- The faults of an assembly are those that its rows show. -/
theorem Assembly.faults_eq_filterMap (h : assemble source = .ok a) :
    a.faults = a.listing.filterMap Row.lineFault? := by
  have hnumbered := SourceLine.numbered_ofSource source
  obtain ⟨-, rfl⟩ := assembleLines_eq_ok_iff.1 h
  have hone : ∀ p ∈ SourceLine.places (SourceLine.ofSource source),
      earlyFault? (SourceLine.earlyFaults (SourceLine.ofSource source)) p.line = none ∨
        p.late (SourceLine.scope (SourceLine.ofSource source)) = none := by
    intro p hp
    obtain ⟨k, line, hline, rfl⟩ := SourceLine.exists_of_mem_places hp
    exact PlacedLine.early_or_late_eq_none (List.mem_of_getElem? hline)
  have hmerge := merge_flatMap_mark hnumbered.pairwise_places hone
  rw [← SourceLine.earlyFaults_eq_flatMap hnumbered] at hmerge
  simp only [hmerge, List.filterMap_eq_flatMap_toList, List.flatMap_map]
  rfl

/-- The rows of an assembly stand for the lines of its source. -/
theorem getElem?_lines_of_assemble (h : assemble source = .ok a) (k : Nat) :
    (a.listing[k]?).map (fun row => (row.line, row.text)) =
      (Text.lines source.toList)[k]?.map fun text => (k + 1, String.ofList text) := by
  rw [listing_of_assemble h, List.getElem?_map, SourceLine.getElem?_places, SourceLine.ofSource,
    List.getElem?_map, List.getElem?_zipIdx, Nat.add_comm 1 k]
  simp only [Option.map_map]
  rfl

/-- The rows of an assembly are in the order of their lines. -/
theorem Assembly.pairwise_listing (h : assemble source = .ok a) :
    a.listing.Pairwise fun row other => row.line < other.line := by
  rw [listing_of_assemble h, List.pairwise_map]
  exact (SourceLine.numbered_ofSource source).pairwise_places

end Assembled

/-- No fault of an assembly is lost, invented, doubled or out of place. There is exactly one row
    for each line of the source, in order, with the number and the text of the line, whatever
    faults other lines have; and the faults are those that the rows show, in the same order. So
    their lines go up, no line has two of them, and an assembly is a success exactly if no row
    shows a fault. -/
theorem assemble_faults_of_rows {source : String} {a : Assembly} (h : assemble source = .ok a) :
    a.listing.length = (Text.lines source.toList).length ∧
    (∀ (k : Nat) (text : List Char), (Text.lines source.toList)[k]? = some text →
      ∃ row, a.listing[k]? = some row ∧ row.line = k + 1 ∧ row.text = String.ofList text) ∧
    a.faults = a.listing.filterMap (fun row => row.fault.map (⟨row.line, ·⟩)) ∧
    (a.faults.map LineFault.line).Pairwise (· < ·) ∧
    (∀ e ∈ a.faults, ∀ e' ∈ a.faults, e.line = e'.line → e = e') ∧
    (a.success = true ↔ ∀ row ∈ a.listing, row.fault = none) := by
  have hfaults := Assembly.faults_eq_filterMap h
  have hsorted : (a.faults.map LineFault.line).Pairwise (· < ·) := by
    rw [hfaults, List.pairwise_map, List.pairwise_filterMap]
    refine (Assembly.pairwise_listing h).imp fun {row other} hlt e he e' he' => ?_
    obtain ⟨_, -, rfl⟩ := Option.map_eq_some_iff.1 he
    obtain ⟨_, -, rfl⟩ := Option.map_eq_some_iff.1 he'
    exact hlt
  refine ⟨?_, fun k text htext => ?_, hfaults, hsorted, fun e he e' he' hline => ?_, ?_⟩
  · rw [listing_of_assemble h, List.length_map, SourceLine.places, PlacedLine.length_ofLines,
      SourceLine.ofSource, List.length_map, List.length_zipIdx]
  · have hrow := getElem?_lines_of_assemble h k
    rw [htext, Option.map_some, Option.map_eq_some_iff] at hrow
    obtain ⟨row, hrow, heq⟩ := hrow
    exact ⟨row, hrow, congrArg Prod.fst heq, congrArg Prod.snd heq⟩
  · have hnodup : (a.faults.map LineFault.line).Nodup := hsorted.imp Nat.ne_of_lt
    exact List.inj_on_of_nodup_map hnodup he he' hline
  · rw [Assembly.success, hfaults, List.isEmpty_iff, List.filterMap_eq_nil_iff]
    simp [Row.lineFault?]

/-- A wrong mnemonic in front of a text that says nothing right, of a label that is declared
    again, and of a branch to a label that there is not; and a line that is right. -/
theorem assemble_faults_of_rows_mixed :
    ∃ a, assemble "FROB\n.word ,\nx:\nx:\njz y\nNOP" = .ok a ∧
      a.faults = [⟨1, .unknownInstruction "FROB"⟩, ⟨2, .operandCount ".word" (.atLeast 1) 0⟩,
        ⟨4, .duplicateLabel "x" 3⟩, ⟨5, .unknownLabel "y"⟩] ∧
      ∃ row, a.listing[5]? = some row ∧ row.line = 6 ∧ row.text = "NOP" := by
  obtain ⟨a, ha⟩ :=
    exists_assemble "FROB\n.word ,\nx:\nx:\njz y\nNOP" (by decide +kernel)
  obtain ⟨-, hrows, hfaults, -⟩ := assemble_faults_of_rows ha
  refine ⟨a, ha, ?_, hrows 5 "NOP".toList (by decide)⟩
  rw [hfaults, listing_of_assemble ha]
  decide +kernel

end WordMachine
