import WordMachine.Proofs.Assembly.Labels
import WordMachine.Proofs.Assembly.Numbers

/-!
# Numbers, labels and registers told apart

An operand is a number, the name of a label or the name of a register, and its place decides which
of these it can be. Some places take two of them: data and branches take a number or a label,
operations on two words a register or a number. No number is a label or a register as well
(`literal?_iff_isNumber_and_apart`). There remain the tokens that are meant as a register, by a
number that no register has. They are no numbers either, and a line with one of them has the fault
that it is no register (`ofName?_iff_isNamed_and_fault_beyond`).
-/

namespace WordMachine

open Numeral (IsNumber)

variable {token target mnemonic : String} {symbols : SymbolTable} {counter : Nat} {r : Register}

/-! ## Numbers, and labels and registers, which are none -/

theorem readTarget_of_isName (h : Statement.isName token.toList = true) :
    readTarget symbols counter token =
      (symbols.address token).map fun address => address.toNat - ((counter : Int) + 1) := by
  rw [readTarget, Statement.literal?_of_isName h]

theorem readOperand_of_ofName? (h : Register.ofName? token = some r) :
    readOperand token = .ok (.register r) := by
  rw [readOperand, h]

/-- A token is read as a number exactly if it is one, space around it aside, and of a magnitude
    below `2 ^ 63`. What can be the name of a label is never read as a number, and is looked up
    among the labels; what names a register is never read as a number, and is that register. -/
theorem literal?_iff_isNumber_and_apart (token : String) :
    (∀ i, Numeral.literal? token = some i ↔
      IsNumber (String.ofList (Text.trim token.toList)) i ∧ i.natAbs < 2 ^ 63) ∧
    (Statement.isName token.toList = true → Numeral.literal? token = none ∧
      ∀ symbols : SymbolTable, dataWord symbols token = symbols.address token ∧
        ∀ counter : Nat, readTarget symbols counter token =
          (symbols.address token).map fun address => address.toNat - ((counter : Int) + 1)) ∧
    (∀ r, Register.ofName? token = some r →
      Numeral.literal? token = none ∧ readOperand token = .ok (.register r)) := by
  have hbound : 2 ^ 63 = Numeral.magnitudeBound := by decide
  rw [hbound]
  exact ⟨fun i => Numeral.literal?_eq_some_iff,
    fun hname => ⟨Statement.literal?_of_isName hname,
      fun symbols => ⟨dataWord_of_isName hname, fun counter => readTarget_of_isName hname⟩⟩,
    fun r hr => ⟨Register.literal?_of_ofName? hr, readOperand_of_ofName? hr⟩⟩

/-- A number of base sixteen with a sign, a mark and space around it; and a token that is a register
    and the name of a label at once, and is no number. -/
theorem literal?_iff_isNumber_and_apart_r7 :
    Numeral.literal? "\t#-0X1f " = some (-0x1F) ∧
      Statement.isName "R7".toList = true ∧ Register.ofName? "R7" = some ⟨7⟩ ∧
      Numeral.literal? "R7" = none ∧ dataWord [⟨"R7", 5, 1⟩] "R7" = .ok 5 ∧
      readOperand "R7" = .ok (.register ⟨7⟩) := by
  have hone : Numeral.IsDigit 16 1 '1' := ⟨by decide, .inl rfl⟩
  have hsmall : Numeral.IsDigit 16 15 'f' := ⟨by decide, .inl rfl⟩
  have hdigits : Numeral.IsMagnitude 16 ['1', 'f'] 0x1F := .more (.one hone) hsmall
  have hmark : "0X" ∈ ["0x", "0X", "$"] := by decide
  have hnumber : IsNumber (String.ofList (Text.trim "\t#-0X1f ".toList)) (-0x1F) :=
    ⟨_, .minus (.sixteen hmark hdigits), .inr rfl⟩
  obtain ⟨hnumbers, -, -⟩ := literal?_iff_isNumber_and_apart "\t#-0X1f "
  obtain ⟨-, hlabel, hregister⟩ := literal?_iff_isNumber_and_apart "R7"
  have hname : Statement.isName "R7".toList = true := by decide
  have hr7 : Register.ofName? "R7" = some ⟨7⟩ := by decide
  obtain ⟨hnone, hdata⟩ := hlabel hname
  exact ⟨(hnumbers _).2 ⟨hnumber, by decide⟩, hname, hr7, hnone, (hdata _).1.trans rfl,
    (hregister _ hr7).2⟩

/-! ## Registers that there are not -/

theorem readOperand_of_looksNumbered (hnone : Register.ofName? token = none)
    (hlooks : Register.looksNumbered token = true) :
    readOperand token = .error (.unknownRegister token) := by
  rw [readOperand, hnone]
  exact if_pos hlooks

theorem Mnemonic.instruction_alu_of_looksNumbered {m : Mnemonic} {op : AluOp} {write : Bool}
    (hform : m.form = .alu op write) (htarget : Register.ofName? target = some r)
    (hnone : Register.ofName? token = none) (hlooks : Register.looksNumbered token = true) :
    m.instruction symbols counter [target, token] = .error (.unknownRegister token) := by
  simp only [instruction, hform, readRegister, htarget, readOperand_of_looksNumbered hnone hlooks,
    Except.ok_bind, Except.error_bind]

/-- The row of a line with a mnemonic of the table, where no instruction can be read from its
    operands. -/
theorem PlacedLine.row_of_instruction_eq_error {scope : Scope} {early : List LineFault}
    {p : PlacedLine} {operands : List String} {m : Mnemonic} {fault : Fault}
    (hstatement : p.line.statement = .ok (.instruction mnemonic operands))
    (hm : Mnemonic.find? mnemonic = some m) (hcounter : p.counter ≤ 0xFFFF)
    (hearly : earlyFault? early p.line = none)
    (hread : m.instruction scope.symbols p.counter operands = .error fault) :
    (p.row scope early).fault = some fault ∧ (p.row scope early).words = [] := by
  obtain ⟨s, hs, hemits, hwords⟩ := SourceLine.words?_eq_some_iff.1
    (SourceLine.words?_of_instruction_eq_error hstatement hm hcounter hread)
  exact row_of_words_eq_error hs hemits hearly hwords

/-- A token is read as a register exactly if it is a name of it, space around it and letter case
    aside. An `R` and any other decimal digits, however many, are not taken for a number where one
    may stand: they are the fault of a line with an operation on two words that has them for its
    second operand, has a register for its first, and stands at a place in memory. -/
theorem ofName?_iff_isNamed_and_fault_beyond :
    (∀ (token : String) (r : Register), Register.ofName? token = some r ↔
      Register.IsNamed (Text.upper (Text.trim token.toList)) r) ∧
    ∀ {source : String} {a : Assembly}, assemble source = .ok a →
      ∀ {k : Nat} {line : SourceLine} {mnemonic target token : String} {m : Mnemonic} {op : AluOp}
        {write : Bool} {r : Register} {c : Char} {digits : List Char},
      (SourceLine.ofSource source)[k]? = some line →
      line.statement = .ok (.instruction mnemonic [target, token]) →
      m ∈ Mnemonic.table → Text.upper mnemonic.toList = m.name.toList → m.form = .alu op write →
      SourceLine.counterAt (SourceLine.ofSource source) k ≤ 0xFFFF →
      Register.ofName? target = some r →
      token.toList = c :: digits → c ∈ ['R', 'r'] → digits ≠ [] →
      (∀ d ∈ digits, d.isDigit = true) → Register.ofName? token = none →
      ∃ row, a.listing[k]? = some row ∧ row.words = [] ∧
        row.fault = some (.unknownRegister token) := by
  refine ⟨fun token r => Register.ofName?_eq_some_iff, ?_⟩
  intro source a h k line mnemonic target token m op write r c digits hline hstatement hm hname
    hform hcounter htarget htoken hc hdigits hall hnone
  have hfind := Mnemonic.find?_eq_some_iff.2 ⟨hm, hname⟩
  have hlooks := Register.looksNumbered_of_digits htoken hc hdigits hall
  have hearly := earlyFault?_of_instruction (List.mem_of_getElem? hline) hstatement
  have hread : m.instruction (SourceLine.scope (SourceLine.ofSource source)).symbols
      (SourceLine.counterAt (SourceLine.ofSource source) k) [target, token] = _ :=
    Mnemonic.instruction_alu_of_looksNumbered hform htarget hnone hlooks
  obtain ⟨hfault, hwords⟩ := PlacedLine.row_of_instruction_eq_error
    (p := ⟨SourceLine.counterAt (SourceLine.ofSource source) k, line⟩) hstatement hfind hcounter
    hearly hread
  exact ⟨_, getElem?_listing h hline, hwords, hfault⟩

/-- A comparison with a register that there is not, by a number of which the low byte is that of
    one. -/
theorem ofName?_iff_isNamed_and_fault_beyond_r257 :
    ∃ a, assemble "x:\n.org 0xFFFF\ncmp sp, r0257" = .ok a ∧ Register.ofName? "r0257" = none ∧
      Register.ofName? "r0001" = some ⟨1⟩ ∧ ∃ row, a.listing[2]? = some row ∧ row.words = [] ∧
        row.fault = some (.unknownRegister "r0257") := by
  obtain ⟨a, ha⟩ := exists_assemble "x:\n.org 0xFFFF\ncmp sp, r0257" (by decide +kernel)
  have hline : (SourceLine.ofSource "x:\n.org 0xFFFF\ncmp sp, r0257")[2]? =
      some ⟨3, "cmp sp, r0257", .ok (.instruction "cmp" ["sp", "r0257"])⟩ := rfl
  have hone : Numeral.IsMagnitude 10 ['0', '0', '0', '1'] 1 :=
    .zero_cons (by decide) <| .zero_cons (by decide) <| .zero_cons (by decide) <|
      .one ⟨by decide, .inl rfl⟩
  obtain ⟨hnames, hbeyond⟩ := ofName?_iff_isNamed_and_fault_beyond
  have hnone : Register.ofName? "r0257" = none := by decide
  have htoken : "r0257".toList = 'r' :: ['0', '2', '5', '7'] := rfl
  have hdigits : ∀ d ∈ ['0', '2', '5', '7'], d.isDigit = true := List.all_eq_true.1 rfl
  refine ⟨a, ha, hnone, (hnames _ _).2 (.inr ⟨_, rfl, hone⟩), ?_⟩
  exact hbeyond ha (m := ⟨"CMP", .alu .sub false⟩) (r := .sp) hline rfl (by decide) (by decide) rfl
    (by decide +kernel) (by decide) htoken (by decide) (List.cons_ne_nil _ _) hdigits hnone

end WordMachine
