import WordMachine.Assembly.Words
import WordMachine.Instruction.Printer
import WordMachine.Proofs.Assembly.Operands
import WordMachine.Proofs.Instruction.Mnemonic

/-!
# Instructions as written are read again

The text of an instruction is a mnemonic of the table and its operands
(`Instruction.spelling?`, `toList_text`), and these are plain tokens, so that as a line it is
that mnemonic with those operands. If the instruction has a word, the operands say the
instruction (`means_of_spelling?`), wherever they stand and whatever labels there are.
-/

namespace WordMachine

theorem Mnemonic.isPlain_name : ∀ m ∈ table, Statement.IsPlain m.name.toList := by decide

namespace Instruction

/-! ## Spelling -/

/-- The mnemonic and the operands that an instruction is written with, unless it is a word
    kept as it is. -/
def spelling? : Instruction → Option (Mnemonic × List String)
  | loadImmediate value => some (⟨"LDI", .loadImmediate⟩, [Numeral.hexLiteral value])
  | load target base offset =>
    some (⟨"LD", .transfer false⟩, [target.name, base.name, Numeral.integer offset])
  | store source base offset =>
    some (⟨"ST", .transfer true⟩, [source.name, base.name, Numeral.integer offset])
  | alu op target operand write =>
    let name := if write then op.mnemonic else op.flagsOnlyMnemonic?.getD op.mnemonic
    some (⟨name, .alu op write⟩, [target.name, operand.text])
  | shift op target count =>
    some (⟨op.mnemonic, .shift op⟩, [target.name, Numeral.natural count])
  | branch condition offset =>
    some (⟨condition.mnemonic, .branch condition⟩, [Numeral.integer offset])
  | move target source addend =>
    let addend := if addend = 0 then [] else [Numeral.natural addend]
    some (⟨"MOV", .move⟩, target.name :: source.name :: addend)
  | loadSigned target value =>
    some (⟨"LSI", .loadSigned⟩, [target.name, Numeral.integer value])
  | flag set group index =>
    match Mnemonic.flagAlias? set group index with
    | some name => some (⟨name, .flag set group (some index)⟩, [])
    | none => some (⟨Mnemonic.flagName set group, .flag set group none⟩, [Numeral.natural index])
  | system op => some (⟨op.mnemonic, .system op⟩, [])
  | halt => some (⟨"HALT", .halt⟩, [])
  | unknown _ => none

variable {i : Instruction} {m : Mnemonic} {operands : List String}

/-- An instruction on a flag is spelled with the name of the flag, if it has one, and else with
    its index. -/
theorem flag_of_spelling? {set : Bool} {group : FlagGroup} {index : Nat}
    (h : (flag set group index).spelling? = some (m, operands)) :
    (∃ name, Mnemonic.flagAlias? set group index = some name ∧
      m = ⟨name, .flag set group (some index)⟩ ∧ operands = []) ∨
    (Mnemonic.flagAlias? set group index = none ∧
      m = ⟨Mnemonic.flagName set group, .flag set group none⟩ ∧
      operands = [Numeral.natural index]) := by
  rw [spelling?] at h
  split at h
  · next name hname =>
    cases h
    exact .inl ⟨name, hname, rfl, rfl⟩
  · next hnone =>
    cases h
    exact .inr ⟨hnone, rfl, rfl⟩

/-- The text of an instruction is its spelling. -/
theorem toList_text (h : i.spelling? = some (m, operands)) :
    i.text.toList = Statement.written m.name.toList (operands.map String.toList) := by
  have hid : ∀ s : String, toString s = s := fun _ => rfl
  cases i with
  | unknown w => cases h
  | flag set group index =>
    rcases flag_of_spelling? h with ⟨name, hname, rfl, rfl⟩ | ⟨hnone, rfl, rfl⟩
    · simp [text, hname, Statement.written]
    · simp [text, hnone, Statement.written]
  | move target source addend =>
    cases h
    by_cases haddend : addend = 0 <;> simp [text, haddend, hid, Statement.written]
  | _ =>
    cases h
    simp [text, hid, Statement.written]

theorem exists_of_spelling?_eq_none (h : i.spelling? = none) : ∃ w, i = .unknown w := by
  cases i with
  | unknown w => exact ⟨w, rfl⟩
  | flag set group index =>
    cases hname : Mnemonic.flagAlias? set group index <;> simp [spelling?, hname] at h
  | _ => cases h

/-- A mnemonic that an instruction is spelled with is one of the table, if the instruction can
    be encoded. -/
theorem mem_table_of_spelling? (hi : i.Encodable) (h : i.spelling? = some (m, operands)) :
    m ∈ Mnemonic.table := by
  cases i with
  | loadImmediate n => cases h; decide
  | load t b x => cases h; decide
  | store s b x => cases h; decide
  | alu op t o write =>
    cases h
    cases write with
    | true => cases op <;> decide
    | false =>
      -- Without a form that sets flags only, the spelling would be that of the writing form.
      obtain ⟨hor, hxor⟩ := hi.1 rfl
      cases op with
      | or => exact absurd rfl hor
      | xor => exact absurd rfl hxor
      | _ => decide
  | shift op t n => cases h; cases op <;> decide
  | branch condition x => cases h; cases condition <;> decide
  | move t s n => cases h; decide
  | loadSigned t x => cases h; decide
  | flag set group index =>
    rcases flag_of_spelling? h with ⟨name, hname, rfl, rfl⟩ | ⟨-, rfl, rfl⟩
    · -- The name of a flag was looked up in the table.
      obtain ⟨m, hm, rfl⟩ := Option.map_eq_some_iff.1 hname
      have hform : m.form = .flag set group (some index) := by simpa using List.find?_some hm
      rw [← hform]
      exact List.mem_of_find?_eq_some hm
    · cases set <;> cases group <;> decide
  | system op => cases h; cases op <;> decide
  | halt => cases h; decide
  | unknown w => cases h

/-- The operands that an instruction is spelled with say it, if it can be encoded. -/
theorem means_of_spelling? (hi : i.Encodable) (h : i.spelling? = some (m, operands))
    (symbols : SymbolTable) (counter : Nat) : m.form.Means symbols counter operands i := by
  -- Every number that an instruction with a word can have is below the bound of literals.
  have hregister := Register.ofName?_name
  have hnatural : ∀ {n most : Nat}, n ≤ most → most < Numeral.magnitudeBound →
      Numeral.literal? (Numeral.natural n) = some (n : Int) :=
    fun hn hmost => Numeral.literal?_natural (Nat.lt_of_le_of_lt hn hmost)
  have hinteger : ∀ {x : Int}, -256 ≤ x → x ≤ 255 →
      Numeral.literal? (Numeral.integer x) = some x := by
    intro x hmin hmax
    have hbound : (256 : Nat) < Numeral.magnitudeBound := by decide
    exact Numeral.literal?_integer (by omega)
  cases i with
  | loadImmediate n =>
    cases h
    exact .loadImmediate (Numeral.literal?_hexLiteral (Nat.lt_of_le_of_lt hi (by decide))) hi
  | load t b x =>
    cases h
    obtain ⟨hmin, hmax⟩ := hi
    exact .loadOffset (hregister t) (hregister b) (hinteger (by omega) (by omega)) hmin hmax
  | store s b x =>
    cases h
    obtain ⟨hmin, hmax⟩ := hi
    exact .storeOffset (hregister s) (hregister b) (hinteger (by omega) (by omega)) hmin hmax
  | alu op t o write =>
    cases h
    cases o with
    | register r => exact .aluRegister (hregister t) (hregister r)
    | immediate n =>
      have hn := hi.2 n rfl
      exact .aluImmediate (hregister t) (hnatural hn (by decide)) hn
  | shift op t n =>
    cases h
    exact .shiftCount (hregister t) (hnatural hi (by decide)) hi
  | branch condition x =>
    cases h
    exact .branch (hinteger hi.1 hi.2) hi.1 hi.2
  | move t s n =>
    cases h
    split
    · next hn => exact hn ▸ .move (hregister t) (hregister s)
    · exact .moveAddend (hregister t) (hregister s) (hnatural hi (by decide)) hi
  | loadSigned t x =>
    cases h
    obtain ⟨hmin, hmax⟩ := hi
    exact .loadSigned (hregister t) (hinteger (by omega) (by omega)) hmin hmax
  | flag set group index =>
    rcases flag_of_spelling? h with ⟨name, -, rfl, rfl⟩ | ⟨-, rfl, rfl⟩
    · exact .flag
    · exact .flagIndex (hnatural hi (by decide)) hi
  | system op => cases h; exact .system
  | halt => cases h; exact .halt
  | unknown w => cases h

/-- The operands that an instruction is spelled with are plain. -/
theorem isPlain_of_spelling? (h : i.spelling? = some (m, operands)) :
    ∀ operand ∈ operands, Statement.IsPlain operand.toList := by
  have hregister := Statement.isPlain_register
  have hnatural := Statement.isPlain_natural
  have hinteger := Statement.isPlain_integer
  cases i with
  | loadImmediate n =>
    cases h
    simp [Statement.isPlain_hexLiteral]
  | alu op t o write =>
    cases h
    cases o <;> simp [Operand.text, hregister, hnatural]
  | move t s n =>
    cases h
    split <;> simp [hregister, hnatural]
  | flag set group index =>
    rcases flag_of_spelling? h with ⟨name, -, rfl, rfl⟩ | ⟨-, rfl, rfl⟩
    · simp
    · simp [hnatural]
  | unknown w => cases h
  | _ =>
    cases h
    simp [hregister, hnatural, hinteger]

end Instruction

end WordMachine
