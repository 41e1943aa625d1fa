import WordMachine.Proofs.Assembly.Overrun
import WordMachine.Proofs.Assembly.Visits

/-!
# Copied lines

Lines are copied below others, and their texts may be spelled in another way that keeps which
number, register and mnemonic a token is (`Copy`). What is read from a copy is what was read from
its original, with a copy of the fault if there was one: from the operands of a mnemonic
(`Copy.instruction_map_spell`), from a statement (`Copy.words_statement`) and from a line
(`Copy.words?_line`). Only labels can stand for something else where the copy is, so that this
takes that they do not (`Copy.Agrees`).
-/

namespace WordMachine

/-- The tokens of a statement: the label that it declares, or its data, or its mnemonic and
    operands. -/
def Statement.mentions : Statement → List String
  | label name => [name]
  | data values => values
  | instruction mnemonic operands => mnemonic :: operands
  | _ => []

/-- The tokens of a line. A line that says nothing right has none. -/
def SourceLine.mentions (line : SourceLine) : List String :=
  match line.statement with
  | .ok s => s.mentions
  | .error _ => []

/-- A way to copy lines: how their texts are spelled in the copy, with the same meaning, and how
    many lines stand above it. -/
structure Copy where
  spell : String → String
  above : Nat
  literal?_spell (token : String) : Numeral.literal? (spell token) = Numeral.literal? token
  ofName?_spell (token : String) : Register.ofName? (spell token) = Register.ofName? token
  looksNumbered_spell (token : String) :
    Register.looksNumbered (spell token) = Register.looksNumbered token
  isName_spell (token : String) :
    Statement.isName (spell token).toList = Statement.isName token.toList
  find?_spell (token : String) : Mnemonic.find? (spell token) = Mnemonic.find? token
  spell_integer (i : Int) : spell (Numeral.integer i) = Numeral.integer i

namespace Copy

/-- Lines below others, with the same texts. -/
def below (above : Nat) : Copy :=
  ⟨id, above, fun _ => rfl, fun _ => rfl, fun _ => rfl, fun _ => rfl, fun _ => rfl, fun _ => rfl⟩

variable (w : Copy)

/-- The fault that a line of the copy has for one of the original. -/
def fault : Fault → Fault
  | .unknownRegister token => .unknownRegister (w.spell token)
  | .invalidImmediate value expected => .invalidImmediate (w.spell value) expected
  | .unknownLabel name => .unknownLabel (w.spell name)
  | .unknownInstruction mnemonic => .unknownInstruction (w.spell mnemonic)
  | .unknownDirective name => .unknownDirective (w.spell name)
  | .invalidLabel name => .invalidLabel (w.spell name)
  | .labelNotAlone name => .labelNotAlone (w.spell name)
  | .duplicateLabel name firstLine => .duplicateLabel (w.spell name) (firstLine + w.above)
  | fault => fault

def lineFault (e : LineFault) : LineFault := ⟨e.line + w.above, w.fault e.fault⟩

def symbol (s : Symbol) : Symbol := ⟨w.spell s.name, s.address, s.line + w.above⟩

def statement : Statement → Statement
  | .label name => .label (w.spell name)
  | .data values => .data (values.map w.spell)
  | .instruction mnemonic operands => .instruction (w.spell mnemonic) (operands.map w.spell)
  | s => s

def line (line : SourceLine) : SourceLine :=
  ⟨line.number + w.above, w.spell line.text, (line.statement.map w.statement).mapError w.fault⟩

/-- A row keeps its address and its words. -/
def row (row : Row) : Row :=
  { row with
    line := row.line + w.above
    text := w.spell row.text
    fault := row.fault.map w.fault }

/-- The visit to a line of the copy, where labels of other lines are bound already. -/
def visit (bound : SymbolTable) (v : Visit) : Visit :=
  ⟨v.counter, bound ++ v.symbols.map w.symbol, w.line v.line⟩

/-! ## Reading tokens -/

section Reading

variable {token : String} {f : Field} {counter : Nat} {symbols symbols' : SymbolTable}

@[simp] theorem readRegister_spell :
    readRegister (w.spell token) = (readRegister token).mapError w.fault := by
  rw [readRegister, readRegister, w.ofName?_spell]
  cases Register.ofName? token <;> rfl

@[simp] theorem readNumber_spell {expected : Expected} :
    readNumber (w.spell token) expected = (readNumber token expected).mapError w.fault := by
  rw [readNumber, readNumber, w.literal?_spell]
  cases Numeral.literal? token <;> rfl

/-- Where a number does not fit, the fault tells the number and not the token. -/
theorem mapError_invalidImmediate {α : Type} {p : Prop} [Decidable p] {a : α} {n : Int}
    {expected : Expected} :
    (if p then Except.ok a
      else .error (.invalidImmediate (Numeral.integer n) expected)).mapError w.fault =
      if p then .ok a else .error (.invalidImmediate (Numeral.integer n) expected) := by
  rw [apply_ite (Except.mapError w.fault), Except.mapError, Except.mapError, fault, w.spell_integer]

@[simp] theorem readUnsigned_spell :
    f.readUnsigned (w.spell token) = (f.readUnsigned token).mapError w.fault := by
  rw [Field.readUnsigned, Field.readUnsigned, Except.mapError_bind, w.readNumber_spell]
  simp only [w.mapError_invalidImmediate]

@[simp] theorem readSigned_spell :
    f.readSigned (w.spell token) = (f.readSigned token).mapError w.fault := by
  rw [Field.readSigned, Field.readSigned, Except.mapError_bind, w.readNumber_spell]
  simp only [w.mapError_invalidImmediate]

@[simp] theorem readOperand_spell :
    readOperand (w.spell token) = (readOperand token).mapError w.fault := by
  rw [readOperand, readOperand, w.ofName?_spell, w.looksNumbered_spell, w.readUnsigned_spell]
  cases Register.ofName? token with
  | some r => rfl
  | none =>
    cases Register.looksNumbered token with
    | true => rfl
    | false => exact (Except.mapError_map ..).symm

@[simp] theorem readFlagIndex_spell :
    readFlagIndex (w.spell token) = (readFlagIndex token).mapError w.fault := by
  rw [readFlagIndex, readFlagIndex, Except.mapError_bind, w.readNumber_spell]
  congr 1
  funext n
  split <;> rfl

theorem readTransfer_spell {store : Bool} {register base : String} {offset : Except Fault Int} :
    readTransfer store (w.spell register) (w.spell base) (offset.mapError w.fault) =
      (readTransfer store register base offset).mapError w.fault := by
  simp only [readTransfer, Except.mapError_bind, w.readRegister_spell]
  rfl

section Targets

variable (h : symbols'.address (w.spell token) = (symbols.address token).mapError w.fault)
  (counter : Nat)

include h

theorem readTarget_spell :
    readTarget symbols' counter (w.spell token) =
      (readTarget symbols counter token).mapError w.fault := by
  rw [readTarget, readTarget, w.literal?_spell, h]
  cases Numeral.literal? token with
  | some n => rfl
  | none => exact (Except.mapError_map ..).symm

theorem readBranch_spell :
    readBranch symbols' counter (w.spell token) =
      (readBranch symbols counter token).mapError w.fault := by
  rw [readBranch, readBranch, Except.mapError_bind, w.readTarget_spell h counter]
  congr 1
  funext offset
  split <;> rfl

theorem dataWord_spell :
    dataWord symbols' (w.spell token) = (dataWord symbols token).mapError w.fault := by
  rw [dataWord, dataWord, w.literal?_spell, w.isName_spell, h]
  cases Numeral.literal? token with
  | some n => rfl
  | none => cases Statement.isName token.toList <;> rfl

end Targets

theorem mapM_dataWord_spell {values : List String}
    (h : ∀ token ∈ values,
      symbols'.address (w.spell token) = (symbols.address token).mapError w.fault) :
    (values.map w.spell).mapM (dataWord symbols') =
      (values.mapM (dataWord symbols)).mapError w.fault := by
  induction values with
  | nil => rfl
  | cons value values ih =>
    obtain ⟨hvalue, hvalues⟩ := List.forall_mem_cons.1 h
    rw [List.map_cons, List.mapM_cons, List.mapM_cons, w.dataWord_spell hvalue, ih hvalues]
    simp only [Except.mapError_bind]
    rfl

/-- Copied operands make the same instruction, or a copied fault. -/
theorem instruction_map_spell {m : Mnemonic} {operands : List String}
    (h : ∀ token ∈ operands,
      symbols'.address (w.spell token) = (symbols.address token).mapError w.fault) :
    m.instruction symbols' counter (operands.map w.spell) =
      (m.instruction symbols counter operands).mapError w.fault := by
  obtain ⟨name, form⟩ := m
  -- Operands that are too few or too many for the form are so in the copy, as their number is kept.
  rcases operands with _ | ⟨a, _ | ⟨b, _ | ⟨c, _ | ⟨d, rest⟩⟩⟩⟩
  case cons.nil =>
    have hbranch := w.readBranch_spell (h a List.mem_cons_self) counter
    cases form with
    | flag set group index => cases index <;> simp [Mnemonic.instruction, fault]
    | _ => simp [Mnemonic.instruction, fault, hbranch]
  all_goals
    cases form with
    | flag set group index => cases index <;> simp [Mnemonic.instruction, fault]
    | transfer store => simp [Mnemonic.instruction, fault, ← w.readTransfer_spell]
    | _ => simp [Mnemonic.instruction, fault]

@[simp] theorem mapError_encodeUnsigned (value : Int) :
    (f.encodeUnsigned value).mapError w.fault = f.encodeUnsigned value :=
  w.mapError_invalidImmediate

@[simp] theorem mapError_encodeSigned (value : Int) :
    (f.encodeSigned value).mapError w.fault = f.encodeSigned value :=
  w.mapError_invalidImmediate

/-- The fault of an instruction that has no word shows a number or an operation, and no text. -/
theorem mapError_encode (i : Instruction) : i.encode.mapError w.fault = i.encode := by
  cases i with
  | load target base offset => simp [Instruction.encode, encodeTransfer]
  | store source base offset => simp [Instruction.encode, encodeTransfer]
  | alu op target operand write =>
    rw [Instruction.encode]
    split
    · rfl
    · cases operand with
      | register r => rfl
      | immediate value => simp [Operand.encode]
  | branch condition offset =>
    simp only [Instruction.encode]
    split <;> rfl
  | flag set group index =>
    rw [Instruction.encode]
    split <;> rfl
  | _ => simp [Instruction.encode]

end Reading

/-! ## Statements -/

/-- What a token stands for, it stands for in the copy. -/
structure Agrees (scope scope' : Scope) (token : String) : Prop where
  declared : w.spell token ∈ scope'.declared ↔ token ∈ scope.declared
  address : scope'.symbols.address (w.spell token) =
    (scope.symbols.address token).mapError w.fault

section Statements

variable {declared declared' : List String} {scope scope' : Scope} {counter : Nat} {s : Statement}

theorem isBareLabel_spell {mnemonic : String} {operands : List String}
    (h : w.spell mnemonic ∈ declared' ↔ mnemonic ∈ declared) :
    isBareLabel declared' (w.spell mnemonic) (operands.map w.spell) =
      isBareLabel declared mnemonic operands := by
  rw [Bool.eq_iff_iff, isBareLabel_iff, isBareLabel_iff, w.find?_spell, List.map_eq_nil_iff, h]

theorem size_statement (h : ∀ token ∈ s.mentions, w.spell token ∈ declared' ↔ token ∈ declared) :
    (w.statement s).size declared' = s.size declared := by
  cases s with
  | data values => exact List.length_map _
  | instruction mnemonic operands =>
    rw [statement, Statement.size, Statement.size,
      w.isBareLabel_spell (h mnemonic List.mem_cons_self)]
  | _ => rfl

theorem instructionWords_spell {mnemonic : String} {operands : List String}
    (h : ∀ token ∈ mnemonic :: operands, w.Agrees scope scope' token) :
    instructionWords scope' counter (w.spell mnemonic) (operands.map w.spell) =
      (instructionWords scope counter mnemonic operands).mapError w.fault := by
  obtain ⟨hmnemonic, hoperands⟩ := List.forall_mem_cons.1 h
  rw [instructionWords, instructionWords, w.find?_spell, w.isBareLabel_spell hmnemonic.declared]
  cases Mnemonic.find? mnemonic with
  | some m =>
    simp only [w.instruction_map_spell fun token htoken => (hoperands token htoken).address,
      Except.mapError_bind, w.mapError_encode]
    rfl
  | none => cases isBareLabel scope.declared mnemonic operands <;> rfl

/-- A statement has the same words in the copy, or a copy of its fault. -/
theorem words_statement (h : ∀ token ∈ s.mentions, w.Agrees scope scope' token) (counter : Nat) :
    (w.statement s).words scope' counter = (s.words scope counter).mapError w.fault := by
  have hsize := w.size_statement fun token htoken => (h token htoken).declared
  simp only [Statement.words, hsize]
  split
  · rfl
  · cases s with
    | data values => exact w.mapM_dataWord_spell fun token htoken => (h token htoken).address
    | instruction mnemonic operands => exact w.instructionWords_spell h
    | _ => rfl

end Statements

/-! ## Lines -/

section Lines

variable {line : SourceLine} {scope scope' : Scope} {names names' : List String}

theorem statement_line :
    (w.line line).statement = (line.statement.map w.statement).mapError w.fault := rfl

theorem label?_line : (w.line line).label? = line.label?.map w.spell := by
  rw [SourceLine.label?, SourceLine.label?, statement_line]
  cases line.statement with
  | error fault => rfl
  | ok s => cases s <;> rfl

theorem declared_map_line (lines : List SourceLine) :
    SourceLine.declared (lines.map w.line) = (SourceLine.declared lines).map w.spell := by
  rw [SourceLine.declared, SourceLine.declared, List.filterMap_map, List.map_filterMap]
  exact List.filterMap_congr fun line _ => w.label?_line

theorem next_line (h : ∀ token ∈ line.mentions, w.spell token ∈ names' ↔ token ∈ names)
    (counter : Nat) :
    (w.line line).next names' counter = line.next names counter := by
  rw [SourceLine.mentions] at h
  rw [SourceLine.next, SourceLine.next, statement_line]
  cases hs : line.statement with
  | error fault => rfl
  | ok s =>
    rw [hs] at h
    have hsize := w.size_statement h
    cases s with
    | origin address => rfl
    | _ => exact congrArg (counter + ·) hsize

theorem address?_line (counter : Nat) : (w.line line).address? counter = line.address? counter := by
  rw [SourceLine.address?, SourceLine.address?, statement_line]
  cases line.statement with
  | error fault => rfl
  | ok s => cases s <;> rfl

theorem words?_line (h : ∀ token ∈ line.mentions, w.Agrees scope scope' token) (counter : Nat) :
    (w.line line).words? scope' counter =
      (line.words? scope counter).map (Except.mapError w.fault) := by
  rw [SourceLine.mentions] at h
  rw [SourceLine.words?, SourceLine.words?, statement_line]
  cases hs : line.statement with
  | error fault => rfl
  | ok s =>
    rw [hs] at h
    have hwords := w.words_statement h counter
    cases s with
    | data values => exact congrArg some hwords
    | instruction mnemonic operands => exact congrArg some hwords
    | _ => rfl

end Lines

end Copy

end WordMachine
