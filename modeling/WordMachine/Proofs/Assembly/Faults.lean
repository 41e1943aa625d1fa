import WordMachine.Assembly.Words
import WordMachine.Proofs.Assembly.Operands
import WordMachine.Proofs.Instruction.Mnemonic

/-!
# The faults of statements

Whatever reads an operand fails with a fault of operands (`Fault.OfOperands`), and so does what
puts operands together. The words of a statement are therefore missing for one of three reasons
(`Statement.fault_of_words`): there are no addresses for them, an operand is wrong, or the mnemonic
is none. The first reason comes before the others, and only it has its fault
(`Statement.words_eq_addressOverflow_iff`).
-/

namespace WordMachine

/-- The fault is in an operand, or in the number of operands. -/
def Fault.OfOperands : Fault → Prop
  | unknownRegister _ => True
  | invalidImmediate _ _ => True
  | unknownLabel _ => True
  | branchOutOfRange _ => True
  | flagIndexOutOfRange _ => True
  | operandCount _ _ _ => True
  | _ => False

/-! ## Reading operands -/

section Reading

open Except (failsIn_ok failsIn_error)

variable {token : String} {f : Field} {symbols : SymbolTable} {counter : Nat}

theorem readRegister_failsIn : (readRegister token).FailsIn Fault.OfOperands := by
  rw [readRegister]
  split
  · exact failsIn_ok _
  · exact failsIn_error trivial

theorem readNumber_failsIn {expected : Expected} :
    (readNumber token expected).FailsIn Fault.OfOperands := by
  rw [readNumber]
  split
  · exact failsIn_ok _
  · exact failsIn_error trivial

theorem Field.readUnsigned_failsIn : (f.readUnsigned token).FailsIn Fault.OfOperands := by
  refine readNumber_failsIn.bind fun n => ?_
  split
  · exact failsIn_ok _
  · exact failsIn_error trivial

theorem Field.readSigned_failsIn : (f.readSigned token).FailsIn Fault.OfOperands := by
  refine readNumber_failsIn.bind fun n => ?_
  split
  · exact failsIn_ok _
  · exact failsIn_error trivial

theorem readOperand_failsIn : (readOperand token).FailsIn Fault.OfOperands := by
  rw [readOperand]
  split
  · exact failsIn_ok _
  · split
    · exact failsIn_error trivial
    · exact Field.readUnsigned_failsIn.map

theorem SymbolTable.address_failsIn : (symbols.address token).FailsIn Fault.OfOperands := by
  rw [address]
  split
  · exact failsIn_ok _
  · exact failsIn_error trivial

theorem readTarget_failsIn : (readTarget symbols counter token).FailsIn Fault.OfOperands := by
  rw [readTarget]
  split
  · exact failsIn_ok _
  · exact SymbolTable.address_failsIn.map

theorem readBranch_failsIn : (readBranch symbols counter token).FailsIn Fault.OfOperands := by
  refine readTarget_failsIn.bind fun offset => ?_
  split
  · exact failsIn_ok _
  · exact failsIn_error trivial

theorem readFlagIndex_failsIn : (readFlagIndex token).FailsIn Fault.OfOperands := by
  refine readNumber_failsIn.bind fun n => ?_
  split
  · exact failsIn_ok _
  · exact failsIn_error trivial

theorem readTransfer_failsIn {store : Bool} {register base : String} {offset : Except Fault Int}
    (h : offset.FailsIn Fault.OfOperands) :
    (readTransfer store register base offset).FailsIn Fault.OfOperands :=
  readRegister_failsIn.bind fun _ => readRegister_failsIn.bind fun _ => h.bind fun _ => failsIn_ok _

theorem Mnemonic.instruction_failsIn {m : Mnemonic} {operands : List String} :
    (m.instruction symbols counter operands).FailsIn Fault.OfOperands := by
  rw [instruction.eq_def]
  split
  · exact Field.readUnsigned_failsIn.map
  · exact readTransfer_failsIn (failsIn_ok 0)
  · exact readTransfer_failsIn Field.readSigned_failsIn
  · exact readRegister_failsIn.bind fun _ => readOperand_failsIn.bind fun _ => failsIn_ok _
  · exact readRegister_failsIn.map
  · exact readRegister_failsIn.bind fun _ => Field.readUnsigned_failsIn.bind fun _ => failsIn_ok _
  · exact readBranch_failsIn.map
  · exact readRegister_failsIn.bind fun _ => readRegister_failsIn.bind fun _ => failsIn_ok _
  · exact readRegister_failsIn.bind fun _ => readRegister_failsIn.bind fun _ =>
      Field.readUnsigned_failsIn.bind fun _ => failsIn_ok _
  · exact readRegister_failsIn.bind fun _ => Field.readSigned_failsIn.bind fun _ => failsIn_ok _
  · exact failsIn_ok _
  · exact readFlagIndex_failsIn.map
  · exact failsIn_ok _
  · exact failsIn_ok _
  · exact failsIn_error trivial

theorem dataWord_failsIn : (dataWord symbols token).FailsIn Fault.OfOperands := by
  rw [dataWord]
  split
  · exact failsIn_ok _
  · split
    · exact SymbolTable.address_failsIn
    · exact failsIn_error trivial

end Reading

/-! ## Statements -/

section Statements

variable {scope : Scope} {counter : Nat} {s : Statement} {fault : Fault}

/-- What is wrong with a mnemonic and its operands is in the operands, or there is no such
    mnemonic. An instruction that is read has a word. -/
theorem instructionWords_failsIn (h : scope.symbols.Named) {mnemonic : String}
    {operands : List String} :
    (instructionWords scope counter mnemonic operands).FailsIn fun fault =>
      fault.OfOperands ∨ fault = .unknownInstruction mnemonic := by
  intro fault hfault
  rw [instructionWords] at hfault
  split at hfault
  · next m hm =>
    rcases Except.bind_eq_error_iff.1 hfault with hfault | ⟨i, hread, hfault⟩
    · exact .inl (Mnemonic.instruction_failsIn fault hfault)
    · obtain ⟨w, hw, -⟩ :=
        Mnemonic.exists_encode_of_instruction (Mnemonic.find?_eq_some_iff.1 hm).1 h hread
      rw [hw] at hfault
      cases hfault
  · split at hfault
    · cases hfault
    · obtain rfl := Except.error.inj hfault
      exact .inr rfl

/-- The words of a statement are missing because there are no addresses for them or, where there
    are, because an operand is wrong or the mnemonic is none. -/
theorem Statement.fault_of_words (h : scope.symbols.Named)
    (hfault : s.words scope counter = .error fault) :
    (0 < s.size scope.declared ∧ 0x10000 < counter + s.size scope.declared ∧
      fault = .addressOverflow (counter + s.size scope.declared - 1)) ∨
    (¬(0 < s.size scope.declared ∧ 0x10000 < counter + s.size scope.declared) ∧
      (fault.OfOperands ∨ ∃ mnemonic, fault = .unknownInstruction mnemonic)) := by
  simp only [words] at hfault
  split at hfault
  · next hover =>
    obtain rfl := Except.error.inj hfault
    exact .inl ⟨hover.1, hover.2, rfl⟩
  · next hroom =>
    refine .inr ⟨hroom, ?_⟩
    split at hfault
    · exact .inl (Except.FailsIn.mapM (fun _ _ => dataWord_failsIn) fault hfault)
    · next mnemonic operands =>
      exact (instructionWords_failsIn h fault hfault).imp_right fun heq => ⟨mnemonic, heq⟩
    · cases hfault

/-- A statement has the fault of missing addresses exactly if it takes words and the last of them
    would stand behind the end of memory. The fault tells where. -/
theorem Statement.words_eq_addressOverflow_iff (h : scope.symbols.Named) {address : Nat} :
    s.words scope counter = .error (.addressOverflow address) ↔
      0 < s.size scope.declared ∧ 0x10000 < counter + s.size scope.declared ∧
        address = counter + s.size scope.declared - 1 := by
  constructor
  · intro hfault
    rcases fault_of_words h hfault with ⟨hpos, hover, heq⟩ | ⟨-, hoperand | ⟨mnemonic, heq⟩⟩
    · exact ⟨hpos, hover, Fault.addressOverflow.inj heq⟩
    · exact hoperand.elim
    · cases heq
  · rintro ⟨hpos, hover, rfl⟩
    simp only [words, if_pos (show _ ∧ _ from ⟨hpos, hover⟩)]

end Statements

end WordMachine
