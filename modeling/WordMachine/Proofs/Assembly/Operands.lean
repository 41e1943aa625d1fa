import WordMachine.Assembly.Operands
import WordMachine.Proofs.Encoding.Duality
import WordMachine.Proofs.Register
import WordMachine.Proofs.Source.Statement

/-!
# What operands say

`Form.Means` lists, form by form, which operands are right and what instruction they then
say: registers, numbers in the range of their place, and for a branch a number or the way
to a label. The assembler finds an instruction exactly if the operands say it
(`Mnemonic.instruction_eq_ok_iff`), and an instruction that it finds can always be encoded
(`Form.Means.encodable`): no number that is read is out of the range that the encoding
checks once more.
-/

namespace WordMachine

open Layout

variable {token : String} {f : Field} {symbols : SymbolTable} {counter : Nat}

/-! ## Single operands -/

theorem readRegister_eq_ok_iff {r : Register} :
    readRegister token = .ok r ↔ Register.ofName? token = some r := by
  rw [readRegister]
  split <;> simp_all

theorem readNumber_eq_ok_iff {expected : Expected} {x : Int} :
    readNumber token expected = .ok x ↔ Numeral.literal? token = some x := by
  rw [readNumber]
  split <;> simp_all

/-- A number in a range from zero on, taken as a natural number. -/
theorem exists_toNat_eq_iff {value : Option Int} {n most : Nat} :
    (∃ x : Int, value = some x ∧ (0 ≤ x ∧ x ≤ most) ∧ x.toNat = n) ↔
      value = some (n : Int) ∧ n ≤ most := by
  constructor
  · rintro ⟨x, hx, hrange, rfl⟩
    rw [Int.toNat_of_nonneg hrange.1]
    exact ⟨hx, by omega⟩
  · rintro ⟨hn, hle⟩
    exact ⟨n, hn, ⟨Int.natCast_nonneg n, by omega⟩, Int.toNat_natCast n⟩

theorem Field.readUnsigned_eq_ok_iff {n most : Nat} (hmost : f.maxUnsigned = most) :
    f.readUnsigned token = .ok n ↔ Numeral.literal? token = some (n : Int) ∧ n ≤ most := by
  simp only [readUnsigned, Except.bind_eq_ok_iff, readNumber_eq_ok_iff, Except.ite_eq_ok_iff, hmost]
  exact exists_toNat_eq_iff

theorem Field.readSigned_eq_ok_iff {x least most : Int} (hleast : f.minSigned = least)
    (hmost : f.maxSigned = most) :
    f.readSigned token = .ok x ↔ Numeral.literal? token = some x ∧ least ≤ x ∧ x ≤ most := by
  simp only [readSigned, Except.bind_eq_ok_iff, readNumber_eq_ok_iff, Except.ite_eq_ok_iff, hleast,
    hmost, exists_eq_right_right]

/-- The second operand of an operation on two words is a register or a number: no token
    is both. -/
theorem readOperand_eq_ok_iff {o : Operand} :
    readOperand token = .ok o ↔
      (∃ r, Register.ofName? token = some r ∧ o = .register r) ∨
      (∃ n : Nat, Numeral.literal? token = some (n : Int) ∧ n ≤ 15 ∧ o = .immediate n) := by
  have hmost : Alu.operand.maxUnsigned = (15 : Nat) := rfl
  rw [readOperand]
  split
  · next r hr =>
    simp only [Except.ok.injEq, hr, Option.some.injEq, Register.literal?_of_ofName? hr]
    simp [eq_comm]
  · next hnone =>
    split
    · next hlooks => simp [hnone, Register.literal?_of_looksNumbered hlooks]
    · simp only [Except.map_eq_ok_iff, Field.readUnsigned_eq_ok_iff hmost, hnone]
      simp [and_assoc, eq_comm]

theorem readFlagIndex_eq_ok_iff {n : Nat} :
    readFlagIndex token = .ok n ↔ Numeral.literal? token = some (n : Int) ∧ n ≤ 15 := by
  have hmost : Flag.index.maxUnsigned = (15 : Nat) := rfl
  simp only [readFlagIndex, Except.bind_eq_ok_iff, readNumber_eq_ok_iff, Except.ite_eq_ok_iff,
    hmost]
  exact exists_toNat_eq_iff

/-! ## Branch targets -/

/-- The labels have names that a label can have. -/
def SymbolTable.Named (symbols : SymbolTable) : Prop :=
  ∀ s ∈ symbols, Statement.isName s.name.toList = true

/-- What is bound in a table of labels is no number. -/
theorem SymbolTable.Named.literal? (h : symbols.Named) {s : Symbol}
    (hs : symbols.lookup? token = some s) : Numeral.literal? token = none := by
  have hname : s.name = token := by simpa using List.find?_some hs
  exact Statement.literal?_of_isName (hname ▸ h s (List.mem_of_find?_eq_some hs))

theorem SymbolTable.address_eq_ok_iff {a : Word} :
    symbols.address token = .ok a ↔ ∃ s, symbols.lookup? token = some s ∧ s.address = a := by
  rw [SymbolTable.address]
  split <;> simp_all

theorem readTarget_eq_ok_iff (h : symbols.Named) {x : Int} :
    readTarget symbols counter token = .ok x ↔
      Numeral.literal? token = some x ∨
      ∃ s, symbols.lookup? token = some s ∧ x = s.address.toNat - ((counter : Int) + 1) := by
  rw [readTarget]
  split
  · next n hn =>
    -- A token that is a number is no label, so that only one of the cases is left.
    rw [hn, Except.ok.injEq, Option.some.injEq]
    refine ⟨.inl, fun hx => hx.resolve_right ?_⟩
    rintro ⟨s, hs, -⟩
    rw [h.literal? hs] at hn
    cases hn
  · next hnone =>
    rw [Except.map_eq_ok_iff, hnone]
    simp only [SymbolTable.address_eq_ok_iff, reduceCtorEq, false_or]
    constructor
    · rintro ⟨_, ⟨s, hs, rfl⟩, rfl⟩
      exact ⟨s, hs, rfl⟩
    · rintro ⟨s, hs, rfl⟩
      exact ⟨s.address, ⟨s, hs, rfl⟩, rfl⟩

theorem readBranch_eq_ok_iff (h : symbols.Named) {x : Int} :
    readBranch symbols counter token = .ok x ↔
      (Numeral.literal? token = some x ∨
        ∃ s, symbols.lookup? token = some s ∧ x = s.address.toNat - ((counter : Int) + 1)) ∧
      -256 ≤ x ∧ x ≤ 255 := by
  have hmin : Branch.offset.minSigned = -256 := rfl
  have hmax : Branch.offset.maxSigned = 255 := rfl
  simp only [readBranch, Except.bind_eq_ok_iff, readTarget_eq_ok_iff h, Except.ite_eq_ok_iff, hmin,
    hmax, exists_eq_right_right]

theorem readTransfer_eq_ok_iff {store : Bool} {register base : String} {offset : Except Fault Int}
    {i : Instruction} :
    readTransfer store register base offset = .ok i ↔
      ∃ r b x, Register.ofName? register = some r ∧ Register.ofName? base = some b ∧
        offset = .ok x ∧ (if store then .store r b x else .load r b x) = i := by
  simp only [readTransfer, Except.bind_eq_ok_iff, readRegister_eq_ok_iff, Except.ok.injEq]
  constructor
  · rintro ⟨r, hr, b, hb, x, hx, rfl⟩
    exact ⟨r, b, x, hr, hb, hx, rfl⟩
  · rintro ⟨r, b, x, hr, hb, hx, rfl⟩
    exact ⟨r, hr, b, hb, x, hx, rfl⟩

/-! ## What operands say -/

/-- The instruction that the operands of a form say, where the address counter stands at
    `counter`. Every operand is of the kind that its place asks for, and every number in the
    range of its place. -/
inductive Form.Means (symbols : SymbolTable) (counter : Nat) :
    Form → List String → Instruction → Prop
  | loadImmediate {value : String} {n : Nat} :
    Numeral.literal? value = some (n : Int) → n ≤ 0x7FFF →
      Means symbols counter .loadImmediate [value] (.loadImmediate n)
  /-- Without an offset, the address is that in the base register. -/
  | load {target base : String} {t b : Register} :
    Register.ofName? target = some t → Register.ofName? base = some b →
      Means symbols counter (.transfer false) [target, base] (.load t b 0)
  | loadOffset {target base offset : String} {t b : Register} {x : Int} :
    Register.ofName? target = some t → Register.ofName? base = some b →
      Numeral.literal? offset = some x → -16 ≤ x → x ≤ 15 →
      Means symbols counter (.transfer false) [target, base, offset] (.load t b x)
  | store {source base : String} {s b : Register} :
    Register.ofName? source = some s → Register.ofName? base = some b →
      Means symbols counter (.transfer true) [source, base] (.store s b 0)
  | storeOffset {source base offset : String} {s b : Register} {x : Int} :
    Register.ofName? source = some s → Register.ofName? base = some b →
      Numeral.literal? offset = some x → -16 ≤ x → x ≤ 15 →
      Means symbols counter (.transfer true) [source, base, offset] (.store s b x)
  | aluRegister {op : AluOp} {write : Bool} {target operand : String} {t r : Register} :
    Register.ofName? target = some t → Register.ofName? operand = some r →
      Means symbols counter (.alu op write) [target, operand] (.alu op t (.register r) write)
  | aluImmediate {op : AluOp} {write : Bool} {target operand : String} {t : Register} {n : Nat} :
    Register.ofName? target = some t → Numeral.literal? operand = some (n : Int) → n ≤ 15 →
      Means symbols counter (.alu op write) [target, operand] (.alu op t (.immediate n) write)
  /-- Without a count, the shift is by one bit. -/
  | shift {op : ShiftOp} {target : String} {t : Register} :
    Register.ofName? target = some t →
      Means symbols counter (.shift op) [target] (.shift op t 1)
  | shiftCount {op : ShiftOp} {target count : String} {t : Register} {n : Nat} :
    Register.ofName? target = some t → Numeral.literal? count = some (n : Int) → n ≤ 15 →
      Means symbols counter (.shift op) [target, count] (.shift op t n)
  | branch {condition : Condition} {offset : String} {x : Int} :
    Numeral.literal? offset = some x → -256 ≤ x → x ≤ 255 →
      Means symbols counter (.branch condition) [offset] (.branch condition x)
  /-- The offset to a label counts from the word behind the branch. -/
  | branchLabel {condition : Condition} {label : String} {s : Symbol} {x : Int} :
    symbols.lookup? label = some s → x = s.address.toNat - ((counter : Int) + 1) →
      -256 ≤ x → x ≤ 255 →
      Means symbols counter (.branch condition) [label] (.branch condition x)
  /-- Without an addend, the copy is exact. -/
  | move {target source : String} {t s : Register} :
    Register.ofName? target = some t → Register.ofName? source = some s →
      Means symbols counter .move [target, source] (.move t s 0)
  | moveAddend {target source addend : String} {t s : Register} {n : Nat} :
    Register.ofName? target = some t → Register.ofName? source = some s →
      Numeral.literal? addend = some (n : Int) → n ≤ 3 →
      Means symbols counter .move [target, source, addend] (.move t s n)
  | loadSigned {target value : String} {t : Register} {x : Int} :
    Register.ofName? target = some t → Numeral.literal? value = some x → -16 ≤ x → x ≤ 15 →
      Means symbols counter .loadSigned [target, value] (.loadSigned t x)
  | flag {set : Bool} {group : FlagGroup} {n : Nat} :
    Means symbols counter (.flag set group (some n)) [] (.flag set group n)
  | flagIndex {set : Bool} {group : FlagGroup} {index : String} {n : Nat} :
    Numeral.literal? index = some (n : Int) → n ≤ 15 →
      Means symbols counter (.flag set group none) [index] (.flag set group n)
  | system {op : SystemOp} : Means symbols counter (.system op) [] (.system op)
  | halt : Means symbols counter .halt [] .halt

namespace Mnemonic

variable {m : Mnemonic} {operands : List String} {i : Instruction}

/-- What operands say is the instruction that they are read as. -/
theorem instruction_of_means (h : symbols.Named)
    (hmeans : m.form.Means symbols counter operands i) :
    m.instruction symbols counter operands = .ok i := by
  obtain ⟨name, form⟩ := m
  cases hmeans with
  | loadImmediate hvalue hn =>
    have hread := (Field.readUnsigned_eq_ok_iff (f := LoadImmediate.value) rfl).2 ⟨hvalue, hn⟩
    exact Except.map_eq_ok_iff.2 ⟨_, hread, rfl⟩
  | load ht hb => exact readTransfer_eq_ok_iff.2 ⟨_, _, 0, ht, hb, rfl, rfl⟩
  | loadOffset ht hb hoffset hmin hmax =>
    have hread :=
      (Field.readSigned_eq_ok_iff (f := Transfer.offset) rfl rfl).2 ⟨hoffset, hmin, hmax⟩
    exact readTransfer_eq_ok_iff.2 ⟨_, _, _, ht, hb, hread, rfl⟩
  | store hs hb => exact readTransfer_eq_ok_iff.2 ⟨_, _, 0, hs, hb, rfl, rfl⟩
  | storeOffset hs hb hoffset hmin hmax =>
    have hread :=
      (Field.readSigned_eq_ok_iff (f := Transfer.offset) rfl rfl).2 ⟨hoffset, hmin, hmax⟩
    exact readTransfer_eq_ok_iff.2 ⟨_, _, _, hs, hb, hread, rfl⟩
  | aluRegister ht hr =>
    have hread := readOperand_eq_ok_iff.2 (.inl ⟨_, hr, rfl⟩)
    simp [instruction, readRegister_eq_ok_iff.2 ht, hread]
  | aluImmediate ht hvalue hn =>
    have hread := readOperand_eq_ok_iff.2 (.inr ⟨_, hvalue, hn, rfl⟩)
    simp [instruction, readRegister_eq_ok_iff.2 ht, hread]
  | shift ht => simp [instruction, readRegister_eq_ok_iff.2 ht]
  | shiftCount ht hcount hn =>
    have hread := (Field.readUnsigned_eq_ok_iff (f := Shift.count) rfl).2 ⟨hcount, hn⟩
    simp [instruction, readRegister_eq_ok_iff.2 ht, hread]
  | branch hoffset hmin hmax =>
    exact Except.map_eq_ok_iff.2 ⟨_, (readBranch_eq_ok_iff h).2 ⟨.inl hoffset, hmin, hmax⟩, rfl⟩
  | branchLabel hs hx hmin hmax =>
    exact Except.map_eq_ok_iff.2 ⟨_, (readBranch_eq_ok_iff h).2 ⟨.inr ⟨_, hs, hx⟩, hmin, hmax⟩, rfl⟩
  | move ht hs => simp [instruction, readRegister_eq_ok_iff.2 ht, readRegister_eq_ok_iff.2 hs]
  | moveAddend ht hs haddend hn =>
    have hread := (Field.readUnsigned_eq_ok_iff (f := Move.addend) rfl).2 ⟨haddend, hn⟩
    simp [instruction, readRegister_eq_ok_iff.2 ht, readRegister_eq_ok_iff.2 hs, hread]
  | loadSigned ht hvalue hmin hmax =>
    have hread :=
      (Field.readSigned_eq_ok_iff (f := LoadSigned.value) rfl rfl).2 ⟨hvalue, hmin, hmax⟩
    simp [instruction, readRegister_eq_ok_iff.2 ht, hread]
  | flag => rfl
  | flagIndex hindex hn =>
    exact Except.map_eq_ok_iff.2 ⟨_, readFlagIndex_eq_ok_iff.2 ⟨hindex, hn⟩, rfl⟩
  | system => rfl
  | halt => rfl

/-- Operands are read as an instruction only if they say it. -/
theorem means_of_instruction (h : symbols.Named)
    (hread : m.instruction symbols counter operands = .ok i) :
    m.form.Means symbols counter operands i := by
  rw [instruction.eq_def] at hread
  split at hread
  · next hform =>
    obtain ⟨n, hn, rfl⟩ := Except.map_eq_ok_iff.1 hread
    obtain ⟨hvalue, hmax⟩ := (Field.readUnsigned_eq_ok_iff rfl).1 hn
    exact hform ▸ .loadImmediate hvalue hmax
  · next store register base hform =>
    obtain ⟨r, b, _, hr, hb, ⟨⟩, rfl⟩ := readTransfer_eq_ok_iff.1 hread
    cases store with
    | false => exact hform ▸ .load hr hb
    | true => exact hform ▸ .store hr hb
  · next store register base offset hform =>
    obtain ⟨r, b, x, hr, hb, hx, rfl⟩ := readTransfer_eq_ok_iff.1 hread
    obtain ⟨hoffset, hmin, hmax⟩ := (Field.readSigned_eq_ok_iff rfl rfl).1 hx
    cases store with
    | false => exact hform ▸ .loadOffset hr hb hoffset hmin hmax
    | true => exact hform ▸ .storeOffset hr hb hoffset hmin hmax
  · next op write target operand hform =>
    simp only [Except.bind_eq_ok_iff, readRegister_eq_ok_iff, Except.ok.injEq] at hread
    obtain ⟨t, ht, o, ho, rfl⟩ := hread
    obtain ⟨r, hr, rfl⟩ | ⟨n, hvalue, hn, rfl⟩ := readOperand_eq_ok_iff.1 ho
    · exact hform ▸ .aluRegister ht hr
    · exact hform ▸ .aluImmediate ht hvalue hn
  · next op target hform =>
    obtain ⟨t, ht, rfl⟩ := Except.map_eq_ok_iff.1 hread
    exact hform ▸ .shift (readRegister_eq_ok_iff.1 ht)
  · next op target count hform =>
    simp only [Except.bind_eq_ok_iff, readRegister_eq_ok_iff, Except.ok.injEq] at hread
    obtain ⟨t, ht, n, hn, rfl⟩ := hread
    obtain ⟨hcount, hmax⟩ := (Field.readUnsigned_eq_ok_iff rfl).1 hn
    exact hform ▸ .shiftCount ht hcount hmax
  · next condition target hform =>
    obtain ⟨x, hx, rfl⟩ := Except.map_eq_ok_iff.1 hread
    obtain ⟨hoffset | ⟨s, hs, hoffset⟩, hmin, hmax⟩ := (readBranch_eq_ok_iff h).1 hx
    · exact hform ▸ .branch hoffset hmin hmax
    · exact hform ▸ .branchLabel hs hoffset hmin hmax
  · next target source hform =>
    simp only [Except.bind_eq_ok_iff, readRegister_eq_ok_iff, Except.ok.injEq] at hread
    obtain ⟨t, ht, s, hs, rfl⟩ := hread
    exact hform ▸ .move ht hs
  · next target source addend hform =>
    simp only [Except.bind_eq_ok_iff, readRegister_eq_ok_iff, Except.ok.injEq] at hread
    obtain ⟨t, ht, s, hs, n, hn, rfl⟩ := hread
    obtain ⟨haddend, hmax⟩ := (Field.readUnsigned_eq_ok_iff rfl).1 hn
    exact hform ▸ .moveAddend ht hs haddend hmax
  · next target value hform =>
    simp only [Except.bind_eq_ok_iff, readRegister_eq_ok_iff, Except.ok.injEq] at hread
    obtain ⟨t, ht, x, hx, rfl⟩ := hread
    obtain ⟨hvalue, hmin, hmax⟩ := (Field.readSigned_eq_ok_iff rfl rfl).1 hx
    exact hform ▸ .loadSigned ht hvalue hmin hmax
  · next hform =>
    obtain rfl := Except.ok.inj hread
    exact hform ▸ .flag
  · next hform =>
    obtain ⟨n, hn, rfl⟩ := Except.map_eq_ok_iff.1 hread
    obtain ⟨hindex, hmax⟩ := readFlagIndex_eq_ok_iff.1 hn
    exact hform ▸ .flagIndex hindex hmax
  · next hform =>
    obtain rfl := Except.ok.inj hread
    exact hform ▸ .system
  · next hform =>
    obtain rfl := Except.ok.inj hread
    exact hform ▸ .halt
  · cases hread

/-- Operands are read as an instruction exactly if they say it. -/
theorem instruction_eq_ok_iff (h : symbols.Named) :
    m.instruction symbols counter operands = .ok i ↔ m.form.Means symbols counter operands i :=
  ⟨means_of_instruction h, instruction_of_means h⟩

end Mnemonic

namespace Form

variable {form : Form} {operands : List String} {i : Instruction}

/-- Operands that say an instruction are as many as the form takes. -/
theorem Means.allows (h : form.Means symbols counter operands i) :
    form.arity.allows operands.length = true := by
  cases h <;> rfl

theorem Means.known (h : form.Means symbols counter operands i) : i.Known := by
  intro v hv
  subst hv
  cases h

/-! ## Encoding what is said -/

/-- What the form itself says of an instruction can be encoded: it sets flags only where there
    is a form for that, and the flag that it implies is one of its group. -/
def isEncodable : Form → Bool
  | alu op write => write || op.flagsOnlyMnemonic?.isSome
  | flag _ _ (some n) => n ≤ 15
  | _ => true

theorem isEncodable_of_mem_table : ∀ m ∈ Mnemonic.table, m.form.isEncodable = true := by decide

/-- What is said can be encoded. -/
theorem Means.encodable (hform : form.isEncodable = true)
    (h : form.Means symbols counter operands i) : i.Encodable := by
  -- Which operations set flags only is a matter of the form, not of the operands.
  have hflags : ∀ {op : AluOp} {write : Bool}, (Form.alu op write).isEncodable = true →
      write = false → op ≠ .or ∧ op ≠ .xor := by
    rintro op _ hop rfl
    constructor <;> rintro rfl <;> cases hop
  cases h with
  | loadImmediate _ hn => exact hn
  | load => exact ⟨by decide, by decide⟩
  | loadOffset _ _ _ hmin hmax => exact ⟨hmin, hmax⟩
  | store => exact ⟨by decide, by decide⟩
  | storeOffset _ _ _ hmin hmax => exact ⟨hmin, hmax⟩
  | aluRegister => exact ⟨hflags hform, fun n hn => by cases hn⟩
  | aluImmediate _ _ hn => exact ⟨hflags hform, fun n heq => by cases heq; exact hn⟩
  | shift => exact (by decide : 1 ≤ 15)
  | shiftCount _ _ hn => exact hn
  | branch _ hmin hmax => exact ⟨hmin, hmax⟩
  | branchLabel _ _ hmin hmax => exact ⟨hmin, hmax⟩
  | move => exact Nat.zero_le 3
  | moveAddend _ _ _ hn => exact hn
  | loadSigned _ _ hmin hmax => exact ⟨hmin, hmax⟩
  | @flag set group n => exact (of_decide_eq_true hform : n ≤ 15)
  | flagIndex _ hn => exact hn
  | system => trivial
  | halt => trivial

end Form

/-- An instruction that is read has a word, and the word says that instruction. -/
theorem Mnemonic.exists_encode_of_instruction {m : Mnemonic} (hm : m ∈ Mnemonic.table)
    (h : symbols.Named) {operands : List String} {i : Instruction}
    (hread : m.instruction symbols counter operands = .ok i) :
    ∃ w, i.encode = .ok w ∧ Instruction.decode w = i := by
  have hmeans := means_of_instruction h hread
  obtain ⟨w, hw⟩ := (exists_encode_iff i).2 (hmeans.encodable (Form.isEncodable_of_mem_table m hm))
  exact ⟨w, hw, decode_of_encode hmeans.known hw⟩

end WordMachine
