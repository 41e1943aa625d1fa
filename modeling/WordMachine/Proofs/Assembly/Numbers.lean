import WordMachine.Proofs.Assembly.Layout

/-!
# Data that are numbers

Numbers among the values of a line of data are taken by their low bits, and no number is taken for
the name of a label (`Statement.isName_of_isNumber`). The literals have a bound, however, so that a
number may be none of them: it is then a fault of its line. The line has the words of all its
numbers if they are below the bound, and else the fault of the first that is not
(`mapM_dataWord_of_isNumber`).
-/

namespace WordMachine

open Numeral (IsDigit IsMagnitude IsNumber magnitudeBound)

variable {token : String} {tokens : List String} {i : Int} {is : List Int} {symbols : SymbolTable}

/-- No number is a name. -/
theorem Statement.isName_of_isNumber (h : IsNumber token i) : isName token.toList = false := by
  obtain ⟨c, rest, htoken, hc⟩ := h.exists_head
  rw [htoken, isName, Bool.and_eq_false_iff]
  left
  by_contra hstarts
  rw [startsLiteral_of_startsName (Bool.not_eq_false _ ▸ hstarts)] at hc
  cases hc

theorem dataWord_of_isNumber (h : IsNumber token i) :
    dataWord symbols token =
      if i.natAbs < magnitudeBound then .ok (BitVec.ofInt 16 i)
      else .error (.invalidImmediate token .numberOrLabel) := by
  rw [dataWord, h.literal?_eq]
  split <;> split <;> simp_all [Statement.isName_of_isNumber h]

/-- The first number that is not below the bound of literals decides. -/
theorem mapM_dataWord_of_isNumber (h : List.Forall₂ IsNumber tokens is) :
    tokens.mapM (dataWord symbols) =
      match (tokens.zip is).find? fun p => magnitudeBound ≤ p.2.natAbs with
      | none => .ok (is.map (BitVec.ofInt 16))
      | some p => .error (.invalidImmediate p.1 .numberOrLabel) := by
  induction h with
  | nil => rfl
  | @cons token i tokens is hi _ ih =>
    rw [List.mapM_cons, dataWord_of_isNumber hi, ih, List.zip_cons_cons, List.find?_cons]
    by_cases hbelow : i.natAbs < magnitudeBound
    · simp only [if_pos hbelow, Nat.not_le.2 hbelow, decide_false, Except.ok_bind]
      cases (tokens.zip is).find? fun p => magnitudeBound ≤ p.2.natAbs <;> rfl
    · simp only [if_neg hbelow, Nat.not_lt.1 hbelow, decide_true, Except.error_bind]

theorem Statement.words_data_of_isNumber {scope : Scope} {counter : Nat}
    (h : List.Forall₂ IsNumber tokens is) (hroom : counter + tokens.length ≤ 0x10000) :
    (data tokens).words scope counter =
      match (tokens.zip is).find? fun p => magnitudeBound ≤ p.2.natAbs with
      | none => .ok (is.map (BitVec.ofInt 16))
      | some p => .error (.invalidImmediate p.1 .numberOrLabel) := by
  rw [← mapM_dataWord_of_isNumber h]
  exact if_neg fun hover => absurd hover.2 (Nat.not_lt.2 hroom)

/-- All numbers are below the bound exactly if none is found that is not. -/
theorem find?_beyond_eq_none_iff (h : List.Forall₂ IsNumber tokens is) :
    (tokens.zip is).find? (fun p => magnitudeBound ≤ p.2.natAbs) = none ↔
      ∀ i ∈ is, i.natAbs < magnitudeBound := by
  have his : (tokens.zip is).map Prod.snd = is := List.map_snd_zip h.length_eq.ge
  conv_rhs => rw [← his]
  simpa using forall_comm

namespace PlacedLine

variable {scope : Scope} {early : List LineFault} {p : PlacedLine} {s : Statement}

/-- The row of a line of which the words are right. -/
theorem row_of_words_eq_ok (hs : p.line.statement = .ok s) (hemits : s.Emits)
    (hearly : earlyFault? early p.line = none) {ws : List Word}
    (hwords : s.words scope p.counter = .ok ws) :
    (p.row scope early).fault = none ∧ (p.row scope early).words = ws := by
  have hfault : (p.row scope early).fault = none := by
    refine Option.eq_none_iff_forall_ne_some.2 fun fault hfault => ?_
    cases hwords.symm.trans ((fault_row_eq_some_iff hs hemits hearly).1 hfault)
  have hrow := words_row_of_fault_eq_none hs hemits hearly hfault
  exact ⟨hfault, Except.ok.inj (hrow.symm.trans hwords)⟩

/-- The row of a line that has a fault where its words are looked for. -/
theorem row_of_words_eq_error (hs : p.line.statement = .ok s) (hemits : s.Emits)
    (hearly : earlyFault? early p.line = none) {fault : Fault}
    (hwords : s.words scope p.counter = .error fault) :
    (p.row scope early).fault = some fault ∧ (p.row scope early).words = [] := by
  have hfault := (fault_row_eq_some_iff hs hemits hearly).2 hwords
  exact ⟨hfault, words_row_of_fault_ne_none (fun _ _ _ => hearly) (by simp [hfault])⟩

end PlacedLine

/-- A line of data that are all numbers, where there are addresses for their words, has no fault
    and the low bits of each number for words exactly if the magnitudes of all are below the bound
    of literals. Else it has no words, and the fault of the first number that is not below it. -/
theorem assemble_data_of_numbers {source : String} {a : Assembly} (h : assemble source = .ok a)
    {k : Nat} {line : SourceLine} (hline : (SourceLine.ofSource source)[k]? = some line)
    (hdata : line.statement = .ok (.data tokens)) (hnumbers : List.Forall₂ IsNumber tokens is)
    (hroom : SourceLine.counterAt (SourceLine.ofSource source) k + tokens.length ≤ 0x10000) :
    ∃ row, a.listing[k]? = some row ∧
      (row.fault = none ∧ row.words = is.map (BitVec.ofInt 16) ↔ ∀ i ∈ is, i.natAbs < 2 ^ 63) ∧
      ∀ fault, row.fault = some fault → row.words = [] ∧
        ∃ token i, (tokens.zip is).find? (fun p => 2 ^ 63 ≤ p.2.natAbs) = some (token, i) ∧
          fault = .invalidImmediate token .numberOrLabel := by
  have hbound : 2 ^ 63 = magnitudeBound := by decide
  have hearly := earlyFault?_of_emits (List.mem_of_getElem? hline) hdata trivial
  have hwords :
      (Statement.data tokens).words (SourceLine.scope (SourceLine.ofSource source)) _ = _ :=
    Statement.words_data_of_isNumber hnumbers hroom
  rw [hbound, ← find?_beyond_eq_none_iff hnumbers]
  refine ⟨_, getElem?_listing h hline, ?_⟩
  cases hfind : (tokens.zip is).find? fun p => magnitudeBound ≤ p.2.natAbs with
  | none =>
    rw [hfind] at hwords
    obtain ⟨hfault, hrow⟩ := PlacedLine.row_of_words_eq_ok
      (p := ⟨SourceLine.counterAt (SourceLine.ofSource source) k, line⟩) hdata trivial hearly hwords
    refine ⟨iff_of_true ⟨hfault, hrow⟩ rfl, fun fault hsome => ?_⟩
    cases hfault.symm.trans hsome
  | some p =>
    rw [hfind] at hwords
    obtain ⟨hfault, hrow⟩ := PlacedLine.row_of_words_eq_error
      (p := ⟨SourceLine.counterAt (SourceLine.ofSource source) k, line⟩) hdata trivial hearly hwords
    refine ⟨iff_of_false ?_ nofun, fun fault hsome => ⟨hrow, p.1, p.2, rfl, ?_⟩⟩
    · rintro ⟨hnone, -⟩
      cases hfault.symm.trans hnone
    · exact Option.some.inj (hsome.symm.trans hfault)

/-- Numbers of both bases in the last words of memory, with signs and marks, of which the last is
    the greatest literal. -/
theorem assemble_data_of_numbers_last :
    ∃ a, assemble ".org 0xFFFD\n.word -32769, #$1fF, 9223372036854775807" = .ok a ∧
      List.Forall₂ IsNumber ["-32769", "#$1fF", "9223372036854775807"]
        [-32769, 0x1FF, 0x7FFFFFFFFFFFFFFF] ∧
      ∃ row, a.listing[1]? = some row ∧ row.fault = none ∧
        row.words = [0x7FFF, 0x01FF, 0xFFFF] := by
  obtain ⟨a, ha⟩ := exists_assemble ".org 0xFFFD\n.word -32769, #$1fF, 9223372036854775807"
    (by decide +kernel)
  have hten : IsNumber "-32769" (-32769) :=
    (by decide +kernel : Numeral.integer (-32769) = "-32769") ▸ Numeral.isNumber_integer _
  have hmark : "$" ∈ ["0x", "0X", "$"] := by decide
  have hone : IsDigit 16 1 '1' := ⟨by decide, .inl rfl⟩
  have hsmall : IsDigit 16 15 'f' := ⟨by decide, .inl rfl⟩
  have hcapital : IsDigit 16 15 'F' := ⟨by decide, .inr rfl⟩
  have hdigits : IsMagnitude 16 ['1', 'f', 'F'] 0x1FF := .more (.more (.one hone) hsmall) hcapital
  have hsixteen : IsNumber "#$1fF" 0x1FF := ⟨_, .bare (.sixteen hmark hdigits), .inr rfl⟩
  have hgreatest : IsNumber "9223372036854775807" 0x7FFFFFFFFFFFFFFF :=
    (by decide +kernel : Numeral.integer 0x7FFFFFFFFFFFFFFF = "9223372036854775807") ▸
      Numeral.isNumber_integer _
  have hnumbers := List.Forall₂.cons hten (.cons hsixteen (.cons hgreatest .nil))
  have hline : (SourceLine.ofSource ".org 0xFFFD\n.word -32769, #$1fF, 9223372036854775807")[1]? =
      some ⟨2, ".word -32769, #$1fF, 9223372036854775807",
        .ok (.data ["-32769", "#$1fF", "9223372036854775807"])⟩ := rfl
  obtain ⟨row, hrow, hbelow, -⟩ :=
    assemble_data_of_numbers ha hline rfl hnumbers (by decide +kernel)
  obtain ⟨hfault, hwords⟩ := hbelow.2 (by decide)
  exact ⟨a, ha, hnumbers, row, hrow, hfault, hwords.trans (by decide)⟩

/-- A number that is no literal: the line has room for its low bits, which are those of one, and yet
    has a fault and no word. -/
theorem assemble_data_of_numbers_beyond :
    ∃ (a : Assembly) (line : SourceLine) (row : Row),
      assemble ".word 9223372036854775809\n" = .ok a ∧
      SourceLine.ofSource ".word 9223372036854775809\n" = [line] ∧
      line.statement = .ok (.data ["9223372036854775809"]) ∧
      IsNumber "9223372036854775809" 0x8000000000000001 ∧
      a.listing = [row] ∧ row.address = some 0 ∧ row.words = [] ∧
      row.fault = some (.invalidImmediate "9223372036854775809" .numberOrLabel) := by
  obtain ⟨a, ha⟩ := exists_assemble ".word 9223372036854775809\n" (by decide +kernel)
  have hlisting := listing_of_assemble ha
  have hnumber : IsNumber "9223372036854775809" 0x8000000000000001 :=
    (by decide +kernel : Numeral.integer 0x8000000000000001 = "9223372036854775809") ▸
      Numeral.isNumber_integer _
  refine ⟨a, ⟨1, ".word 9223372036854775809", .ok (.data ["9223372036854775809"])⟩,
    ⟨1, some 0, [], ".word 9223372036854775809",
      some (.invalidImmediate "9223372036854775809" .numberOrLabel)⟩, ha, rfl, rfl, hnumber, ?_,
    rfl, rfl, rfl⟩
  rw [hlisting]
  decide +kernel

end WordMachine
