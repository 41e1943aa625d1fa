import WordMachine.Proofs.Assembly.Idle

/-!
# The name of a label alone

A line that is only the name of a label, one that some line declares and that is no mnemonic, is
there for nothing: it has no fault and no words, and each walk goes on as if it were not there. That
takes that the name does not start with a point. A label may have such a name, but a line that
starts so is read as a directive, and no directive is right without an operand
(`Statement.exists_ofText_eq_error_of_isName`). It has no words either, but a fault.
-/

namespace WordMachine

variable {source name : String} {a : Assembly} {k : Nat} {line : SourceLine}

/-- The row of a line that says nothing right has the fault of its text. -/
theorem row_of_statement_eq_error (h : assemble source = .ok a)
    (hline : (SourceLine.ofSource source)[k]? = some line) {fault : Fault}
    (hs : line.statement = .error fault) :
    a.listing[k]? = some ⟨line.number, none, [], line.text, some fault⟩ := by
  have hwords : ∀ scope counter, line.words? scope counter = none := by
    intro scope counter
    simp only [SourceLine.words?, hs]
  have hbind : ∀ symbols counter, (line.bind symbols counter).2 = some fault := by
    intro symbols counter
    simp only [SourceLine.bind, hs]
  rw [getElem?_listing h hline, PlacedLine.row, PlacedLine.words, PlacedLine.late, hwords,
    SourceLine.earlyFault?_eq (SourceLine.numbered_ofSource source) hline, hbind,
    SourceLine.address?, hs]
  rfl

/-- A line that is only the name of a label, one that some line declares and that is no mnemonic in
    any letter case, moves the address counter nowhere and has no words; and it has no fault exactly
    if the name does not start with a point. What is assembled is then what is assembled without
    the line, with its row. -/
theorem assemble_bareLabel {before behind : List SourceLine}
    (hlines : SourceLine.ofSource source = before ++ line :: behind)
    (htext : Text.trim (line.text.toList.takeWhile (· != ';')) = name.toList)
    (hdeclared : name ∈ SourceLine.declared (SourceLine.ofSource source))
    (hmnemonic : ∀ m ∈ Mnemonic.table, Text.upper name.toList ≠ m.name.toList)
    (hroom : SourceLine.counterAt (SourceLine.ofSource source) before.length ≤ 0x10000) :
    (∀ counter, line.next (SourceLine.declared (SourceLine.ofSource source)) counter = counter) ∧
    (∀ a, assemble source = .ok a → ∃ row, a.listing[before.length]? = some row ∧
      row.words = [] ∧ (row.fault = none ↔ name.toList.head? ≠ some '.')) ∧
    (name.toList.head? ≠ some '.' →
      assemble source = (assembleLines (before ++ behind)).map fun a =>
        { a with
          listing := a.listing.insertIdx before.length
            ⟨line.number,
              address? (SourceLine.counterAt (SourceLine.ofSource source) before.length),
              [], line.text, none⟩ }) := by
  have hline : (SourceLine.ofSource source)[before.length]? = some line := by simp [hlines]
  have hmem : line ∈ SourceLine.ofSource source := List.mem_of_getElem? hline
  have hstatement : line.statement = Statement.ofText name.toList := by
    rw [SourceLine.statement_of_mem_ofSource hmem, Statement.ofLine, htext]
  have hname : Statement.isName name.toList = true := by
    obtain ⟨other, hother, hlabel⟩ := List.mem_filterMap.1 hdeclared
    refine Statement.isName_of_ofLine ((SourceLine.statement_of_mem_ofSource hother).symm.trans ?_)
    exact SourceLine.label?_eq_some_iff.1 hlabel
  -- Only the first character of the name tells which of the two the line is.
  by_cases hpoint : name.toList.head? = some '.'
  · obtain ⟨fault, hfault⟩ := Statement.exists_ofText_eq_error_of_isName hname hpoint
    rw [hfault] at hstatement
    refine ⟨fun counter => ?_, fun a ha => ?_, fun hne => absurd hpoint hne⟩
    · simp only [SourceLine.next, hstatement]
    · exact ⟨_, row_of_statement_eq_error ha hline hstatement, rfl,
        iff_of_false (Option.some_ne_none fault) (not_not_intro hpoint)⟩
  · rw [Statement.ofText_of_isName hname hpoint, String.ofList_toList] at hstatement
    have hm : Mnemonic.find? name = none := by
      refine Option.eq_none_iff_forall_ne_some.2 fun m hm => ?_
      obtain ⟨hmem, hupper⟩ := Mnemonic.find?_eq_some_iff.1 hm
      exact hmnemonic m hmem hupper
    have hidle : line.IsIdle (SourceLine.scope (SourceLine.ofSource source)) :=
      SourceLine.IsBareLabel.isIdle ⟨name, hstatement, hm, hdeclared⟩
    have hearly := earlyFault?_of_emits hmem hstatement trivial
    have hrow : PlacedLine.row (SourceLine.scope (SourceLine.ofSource source))
        (SourceLine.earlyFaults (SourceLine.ofSource source))
        ⟨SourceLine.counterAt (SourceLine.ofSource source) before.length, line⟩ =
          ⟨line.number, address? (SourceLine.counterAt (SourceLine.ofSource source) before.length),
            [], line.text, none⟩ := by
      rw [PlacedLine.row, hidle.words_eq, hidle.late_eq, hearly,
        SourceLine.address?_of_emits hstatement trivial]
      rfl
    refine ⟨hidle.next_eq, fun a ha => ?_, fun _ => ?_⟩
    · exact ⟨_, (getElem?_listing ha hline).trans (congrArg some hrow), rfl, iff_of_true rfl hpoint⟩
    · have hfits : PlacedLine.Fits (SourceLine.scope (SourceLine.ofSource source))
          ⟨SourceLine.counterAt (SourceLine.ofSource source) before.length, line⟩ :=
        PlacedLine.fits_of_le hroom
      rw [← hrow, assemble]
      rw [hlines] at hidle hfits ⊢
      exact hidle.assembleLines_append hfits

/-- A label that is past the end of memory and so not bound, and its name alone in front of it,
    right behind the last word. -/
theorem assemble_bareLabel_unbound :
    ∃ a, assemble ".org 0xFFFF\nNOP\n\tend ; of memory\nend:" = .ok a ∧
      a.faults = [⟨4, .addressOverflow 0x10000⟩] ∧
      ∃ row, a.listing[2]? = some row ∧ row.words = [] ∧ row.fault = none := by
  obtain ⟨a, ha⟩ := exists_assemble ".org 0xFFFF\nNOP\n\tend ; of memory\nend:" (by decide +kernel)
  have hlines := @SourceLine.ofSource_eq_append ".org 0xFFFF\nNOP\n\tend ; of memory\nend:"
    [".org 0xFFFF".toList, "NOP".toList] ["end:".toList] "\tend ; of memory".toList
    (by decide +kernel)
  have htext : Text.trim ((String.ofList "\tend ; of memory".toList).toList.takeWhile (· != ';')) =
      "end".toList := by decide +kernel
  have hfaults : a.faults = [⟨4, .addressOverflow 0x10000⟩] := by
    rw [Assembly.faults_eq_filterMap ha, listing_of_assemble ha]
    decide +kernel
  obtain ⟨-, hrow, -⟩ := assemble_bareLabel hlines htext (by decide +kernel) (by decide +kernel)
    (by decide +kernel)
  obtain ⟨row, hget, hwords, hfault⟩ := hrow a ha
  exact ⟨a, ha, hfaults, row, hget, hwords, hfault.2 (by decide)⟩

/-- A label with a point in front is declared like any other, and yet a line that is only its name
    has a fault. -/
theorem assemble_bareLabel_point :
    ".x" ∈ SourceLine.declared (SourceLine.ofSource ".x:\n.x\n") ∧
    (∀ m ∈ Mnemonic.table, Text.upper ".x".toList ≠ m.name.toList) ∧
    SourceLine.counterAt (SourceLine.ofSource ".x:\n.x\n") 1 ≤ 0x10000 ∧
    ∃ a, assemble ".x:\n.x\n" = .ok a ∧
      a.listing[1]? = some ⟨2, none, [], ".x", some (.unknownDirective ".x")⟩ := by
  obtain ⟨a, ha⟩ := exists_assemble ".x:\n.x\n" (by decide +kernel)
  have hlines : Text.lines ".x:\n.x\n".toList = [".x:".toList] ++ ".x".toList :: [] := by
    decide +kernel
  have hline : (SourceLine.ofSource ".x:\n.x\n")[1]? =
      some ⟨2, ".x", Statement.ofLine ".x".toList⟩ := by
    rw [SourceLine.ofSource_eq_append hlines]
    rfl
  have hs : Statement.ofLine ".x".toList = .error (.unknownDirective ".x") := by decide +kernel
  exact ⟨by decide +kernel, by decide +kernel, by decide +kernel, a, ha,
    row_of_statement_eq_error ha hline hs⟩

end WordMachine
