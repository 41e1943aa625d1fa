import WordMachine.Proofs.Assembly.Overrun
import WordMachine.Proofs.Assembly.Visits

/-!
# Idle lines

A line is *idle* if nothing is done at it in either walk: the address counter stays where it is, no
label is declared, no fault is found and there are no words. Such are blank lines, and lines that
are only the name of a label. The first walk finds the same labels and faults without the line
(`SourceLine.IsIdle.bindLabels_append`), and the second does the same, apart from the row of the
line (`SourceLine.IsIdle.placeWords_append`). An assembly with the line is therefore the one without
it, with one row more (`SourceLine.IsIdle.assembleLines_append`).
-/

namespace WordMachine

namespace SourceLine

/-- Neither walk does anything at the line. -/
structure IsIdle (scope : Scope) (line : SourceLine) : Prop where
  next_eq : ∀ counter, line.next scope.declared counter = counter
  label?_eq : line.label? = none
  bind_eq : ∀ symbols counter, line.bind symbols counter = (symbols, none)
  words?_eq : ∀ counter, ∀ result ∈ line.words? scope counter, result = .ok []

variable {scope : Scope} {line : SourceLine}

theorem isIdle_of_blank (h : line.statement = .ok .blank) : line.IsIdle scope where
  next_eq counter := by simp only [next, h, Statement.size, Nat.add_zero]
  label?_eq := by simp only [label?, h]
  bind_eq symbols counter := by simp only [bind, h]
  words?_eq counter := by simp [words?, h]

/-- The name of a label alone is idle. -/
theorem IsBareLabel.isIdle (h : line.IsBareLabel scope.declared) : line.IsIdle scope := by
  obtain ⟨name, hs, hm, hdeclared⟩ := h
  refine ⟨fun counter => ?_, ?_, SourceLine.bind_of_emits hs trivial,
    fun counter result hresult => ?_⟩
  · have hsize : (Statement.instruction name []).size scope.declared = 0 :=
      if_pos (isBareLabel_iff.2 ⟨hm, rfl, hdeclared⟩)
    simp only [next, hs, hsize, Nat.add_zero]
  · simp only [label?, hs]
  · obtain ⟨s, hs', -, rfl⟩ := SourceLine.words?_eq_some_iff.1 hresult
    obtain rfl := Except.ok.inj (hs.symm.trans hs')
    exact Statement.words_of_bareLabel hm hdeclared

namespace IsIdle

variable {before behind idle lines : List SourceLine} {early : List LineFault} {counter : Nat}
  {symbols : SymbolTable} {memory : Memory}

theorem words_eq (h : line.IsIdle scope) (counter : Nat) :
    PlacedLine.words scope ⟨counter, line⟩ = [] := by
  rw [PlacedLine.words]
  split
  · next ws hws => exact Except.ok.inj (h.words?_eq counter _ hws)
  · rfl

theorem late_eq (h : line.IsIdle scope) (counter : Nat) :
    PlacedLine.late scope ⟨counter, line⟩ = none := by
  refine Option.eq_none_iff_forall_ne_some.2 fun fault hfault => ?_
  cases h.words?_eq counter _ (PlacedLine.late_eq_some_iff.1 hfault)

/-- The row of the line shows at most where the line stands. -/
theorem row_eq (h : line.IsIdle scope) (counter : Nat) (symbols : SymbolTable) :
    Visit.row scope ⟨counter, symbols, line⟩ =
      ⟨line.number, line.address? counter, [], line.text, none⟩ := by
  rw [Visit.row, Visit.place, h.words_eq, h.late_eq, h.bind_eq]
  rfl

section Lines

variable (hidle : ∀ line ∈ idle, line.IsIdle scope)

include hidle

theorem declared_append : declared (before ++ (idle ++ behind)) = declared (before ++ behind) := by
  have hnone : idle.filterMap label? = [] :=
    List.filterMap_eq_nil_iff.2 fun line hline => (hidle line hline).label?_eq
  simp only [declared, List.filterMap_append, hnone, List.nil_append]

/-- The first walk finds the same without the lines. -/
theorem bindLabels_append :
    bindLabels scope.declared counter symbols (before ++ (idle ++ behind)) =
      bindLabels scope.declared counter symbols (before ++ behind) := by
  have hhere : ∀ counter symbols, bindLabels scope.declared counter symbols (idle ++ behind) =
      bindLabels scope.declared counter symbols behind := by
    intro counter symbols
    induction idle with
    | nil => rfl
    | cons line idle ih =>
      obtain ⟨hline, hidle⟩ := List.forall_mem_cons.1 hidle
      simp only [List.cons_append, bindLabels, hline.bind_eq, hline.next_eq, ih hidle]
      rfl
  rw [WordMachine.bindLabels_append, WordMachine.bindLabels_append]
  simp only [hhere]

/-- The walks come to the lines behind as they would without the lines. -/
theorem ofLines_append :
    Visit.ofLines scope.declared counter symbols (idle ++ behind) =
      idle.map (⟨counter, symbols, ·⟩) ++ Visit.ofLines scope.declared counter symbols behind := by
  induction idle with
  | nil => rfl
  | cons line idle ih =>
    obtain ⟨hline, hidle⟩ := List.forall_mem_cons.1 hidle
    rw [List.cons_append, Visit.ofLines, hline.next_eq, hline.bind_eq, ih hidle]
    rfl

end Lines

/-- The second walk does the same without the line, but for the row of the line. -/
theorem placeWords_append (h : line.IsIdle scope)
    (hfits : PlacedLine.Fits scope
      ⟨before.foldl (fun counter line => line.next scope.declared counter) counter, line⟩) :
    placeWords scope early counter memory (before ++ line :: behind) =
      (placeWords scope early counter memory (before ++ behind)).map fun placement =>
        { placement with
          rows := placement.rows.insertIdx before.length
            (PlacedLine.row scope early
              ⟨before.foldl (fun counter line => line.next scope.declared counter) counter,
                line⟩) } := by
  -- By induction on the lines before it, with the counter and the memory that they leave general.
  induction before generalizing counter memory with
  | nil =>
    have hhere : PlacedLine.Fits scope ⟨counter, line⟩ := hfits
    rw [List.nil_append, PlacedLine.placeWords_cons_of_fits hhere, h.next_eq, PlacedLine.write,
      h.words_eq, h.late_eq]
    rfl
  | cons other before ih =>
    by_cases hother : PlacedLine.Fits scope ⟨counter, other⟩
    · rw [List.cons_append, List.cons_append, PlacedLine.placeWords_cons_of_fits hother,
        PlacedLine.placeWords_cons_of_fits hother, ih hfits]
      cases placeWords scope early (other.next scope.declared counter)
        (PlacedLine.write scope ⟨counter, other⟩ memory) (before ++ behind) <;> rfl
    · rw [List.cons_append, List.cons_append, PlacedLine.placeWords_cons_of_not_fits hother,
        PlacedLine.placeWords_cons_of_not_fits hother]
      rfl

section Sources

variable (hidle : ∀ line ∈ idle, line.IsIdle (SourceLine.scope (before ++ (idle ++ behind))))

include hidle

/-- Names mean the same without the lines, and the first walk finds the same faults. -/
theorem scope_append :
    SourceLine.scope (before ++ (idle ++ behind)) = SourceLine.scope (before ++ behind) ∧
      earlyFaults (before ++ (idle ++ behind)) = earlyFaults (before ++ behind) := by
  have hbound :
      bindLabels (declared (before ++ (idle ++ behind))) 0 [] (before ++ (idle ++ behind)) =
        bindLabels (declared (before ++ (idle ++ behind))) 0 [] (before ++ behind) :=
    bindLabels_append hidle
  rw [SourceLine.scope, SourceLine.scope, earlyFaults, earlyFaults, hbound, declared_append hidle]
  exact ⟨rfl, rfl⟩

/-- The visits to the lines are among those to all others. -/
theorem visits_append :
    ∃ (first last : List Visit) (counter : Nat) (symbols : SymbolTable),
      first.length = before.length ∧
      visits (before ++ behind) = first ++ last ∧
      visits (before ++ (idle ++ behind)) =
        first ++ (idle.map (⟨counter, symbols, ·⟩) ++ last) := by
  have hvisits := @ofLines_append _ behind idle
    (before.foldl (fun counter line => line.next (declared (before ++ (idle ++ behind))) counter) 0)
    (bindLabels (declared (before ++ (idle ++ behind))) 0 [] before).1 hidle
  refine ⟨_, _, _, _, Visit.length_ofLines .., ?_,
    (Visit.ofLines_append ..).trans (congrArg (_ ++ ·) hvisits)⟩
  rw [visits, ← declared_append hidle]
  exact Visit.ofLines_append ..

end Sources

/-- An assembly is the one without the line, with the row of the line. -/
theorem assembleLines_append (h : line.IsIdle (SourceLine.scope (before ++ line :: behind)))
    (hfits : PlacedLine.Fits (SourceLine.scope (before ++ line :: behind))
      ⟨counterAt (before ++ line :: behind) before.length, line⟩) :
    assembleLines (before ++ line :: behind) =
      (assembleLines (before ++ behind)).map fun a =>
        { a with
          listing := a.listing.insertIdx before.length
            (PlacedLine.row (SourceLine.scope (before ++ line :: behind))
              (earlyFaults (before ++ line :: behind))
              ⟨counterAt (before ++ line :: behind) before.length, line⟩) } := by
  have hidle : ∀ other ∈ [line], other.IsIdle (SourceLine.scope (before ++ ([line] ++ behind))) :=
    List.forall_mem_singleton.2 h
  obtain ⟨hscope, hearly⟩ : SourceLine.scope (before ++ line :: behind) =
      SourceLine.scope (before ++ behind) ∧
        earlyFaults (before ++ line :: behind) = earlyFaults (before ++ behind) :=
    scope_append hidle
  have hcounter : counterAt (before ++ line :: behind) before.length =
      before.foldl
        (fun counter other => other.next (declared (before ++ line :: behind)) counter) 0 := by
    rw [counterAt, List.take_left]
  rw [hcounter] at hfits
  have hplaced := fun memory => @placeWords_append _ _ before behind
    (earlyFaults (before ++ line :: behind)) 0 memory h hfits
  rw [assembleLines_eq_map, assembleLines_eq_map, ← hearly, ← hscope, hcounter]
  -- Nothing depends on what memory holds at first.
  generalize Memory.filled 0 = memory
  refine (congrArg (Except.map _) (hplaced memory)).trans ?_
  cases placeWords (SourceLine.scope (before ++ line :: behind))
    (earlyFaults (before ++ line :: behind)) 0 memory (before ++ behind) <;> rfl

end IsIdle

end SourceLine

end WordMachine
