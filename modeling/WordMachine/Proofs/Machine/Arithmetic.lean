import WordMachine.Proofs.Machine.Frame

/-!
# Arithmetic in integers

The flags of an operation on two words are found from the bits of the words and of the result. What
they say is said of integers (`AluOp.Gives`): a sum carries if it is no number of a word, and a
difference if it is below zero; either overflows if the words, read with sign, have a sum or a
difference that no word has when it is read so. The result is the integer modulo the number of
words (`AluOp.gives_apply`).

An instruction that computes a result puts it into the status, and into a register if it writes it,
and changes nothing else (`Machine.Computes`). Behind a difference the conditions of branches
compare the words (`Condition.Compares`): the zero flag says that they are equal, the carry flag
that the first is less, and the negative and the overflow flag differ if it is less when both are
read with sign (`Machine.alu_in_integers`).
-/

namespace WordMachine

/-! ## Results -/

/-- A number that some word is when it is read with sign. -/
def Word.IsSigned (i : Int) : Prop := -0x8000 ≤ i ∧ i ≤ 0x7FFF

instance (i : Int) : Decidable (Word.IsSigned i) := inferInstanceAs (Decidable (_ ∧ _))

namespace AluOp

/-- A result that is found bit by bit, without flags of its own. -/
structure GivesBits (f : Bool → Bool → Bool) (a b : Word) (r : Result) : Prop where
  value : ∀ k, k < 16 → r.value.getLsbD k = f (a.getLsbD k) (b.getLsbD k)
  carry : r.carry = false
  overflow : r.overflow = false

/-- What an operation on two words has to give, said of the integers that the words are. -/
def Gives (a b : Word) (r : Result) : AluOp → Prop
  | add => r.value.toNat = (a.toNat + b.toNat) % 0x10000 ∧
    (r.carry = true ↔ 0x10000 ≤ a.toNat + b.toNat) ∧
    (r.overflow = true ↔ ¬Word.IsSigned (a.toInt + b.toInt))
  | sub => (r.value.toNat : Int) = ((a.toNat : Int) - b.toNat) % 0x10000 ∧
    (r.carry = true ↔ a.toNat < b.toNat) ∧
    (r.overflow = true ↔ ¬Word.IsSigned (a.toInt - b.toInt))
  | and => GivesBits (· && ·) a b r
  | or => GivesBits (· || ·) a b r
  | xor => GivesBits (fun x y => x != y) a b r

variable (a b : Word)

theorem carry_add : (a + b).ult a = true ↔ 0x10000 ≤ a.toNat + b.toNat := by
  rw [BitVec.ult_iff_toNat_lt, BitVec.toNat_add]
  omega

/-- A sum overflows if the words have the same sign and the sum another. -/
theorem overflow_add : ((a ^^^ (a + b)) &&& (b ^^^ (a + b))).msb = true ↔
    ¬Word.IsSigned (a.toInt + b.toInt) := by
  have hsigns : ((a ^^^ (a + b)) &&& (b ^^^ (a + b))).msb = a.saddOverflow b := by
    rw [BitVec.saddOverflow_eq, BitVec.msb_and, BitVec.msb_xor, BitVec.msb_xor]
    cases a.msb <;> cases b.msb <;> cases (a + b).msb <;> rfl
  rw [hsigns, BitVec.saddOverflow, Bool.or_eq_true, decide_eq_true_iff, decide_eq_true_iff,
    Word.IsSigned]
  omega

/-- A difference overflows if the words have different signs and it has that of the second. -/
theorem overflow_sub : ((a ^^^ b) &&& (a ^^^ (a - b))).msb = true ↔
    ¬Word.IsSigned (a.toInt - b.toInt) := by
  have hsigns : ((a ^^^ b) &&& (a ^^^ (a - b))).msb = a.ssubOverflow b := by
    rw [BitVec.ssubOverflow_eq, BitVec.msb_and, BitVec.msb_xor, BitVec.msb_xor]
    cases a.msb <;> cases b.msb <;> cases (a - b).msb <;> rfl
  rw [hsigns, BitVec.ssubOverflow, Bool.or_eq_true, decide_eq_true_iff, decide_eq_true_iff,
    Word.IsSigned]
  omega

theorem toNat_sub : ((a - b).toNat : Int) = ((a.toNat : Int) - b.toNat) % 0x10000 := by
  rw [BitVec.toNat_sub]
  omega

/-- Every operation gives what it has to. -/
theorem gives_apply (op : AluOp) : op.Gives a b (op.apply a b) := by
  cases op with
  | add => exact ⟨BitVec.toNat_add a b, carry_add a b, overflow_add a b⟩
  | sub => exact ⟨toNat_sub a b, BitVec.ult_iff_toNat_lt, overflow_sub a b⟩
  | and => exact ⟨fun k _ => BitVec.getLsbD_and, rfl, rfl⟩
  | or => exact ⟨fun k _ => BitVec.getLsbD_or, rfl, rfl⟩
  | xor => exact ⟨fun k _ => BitVec.getLsbD_xor, rfl, rfl⟩

/-- The sign of a difference is that of its numbers' difference, unless it overflows. -/
theorem msb_sub_ne_iff : ((a - b).msb ≠ ((a ^^^ b) &&& (a ^^^ (a - b))).msb) ↔
    a.toInt < b.toInt := by
  have hsign : (a - b).msb = true ↔ (a.toInt - b.toInt).bmod (2 ^ 16) < 0 := by
    rw [BitVec.msb_eq_toInt, decide_eq_true_iff, BitVec.toInt_sub]
  have hoverflow := overflow_sub a b
  have ha := BitVec.le_toInt a
  have hb := BitVec.le_toInt b
  have ha' := BitVec.toInt_lt (x := a)
  have hb' := BitVec.toInt_lt (x := b)
  rw [Word.IsSigned] at hoverflow
  rw [Int.bmod_def] at hsign
  rw [Ne, Bool.eq_iff_iff, hsign, hoverflow]
  omega

end AluOp

/-! ## Flags -/

namespace Status

/-- The flags of a status are those of a result, and its other bits are as they were. -/
structure Shows (before s : Status) (r : Result) : Prop where
  negative : s.negative = r.value.getLsbD 15
  zero : s.zero = true ↔ r.value = 0
  overflow : s.overflow = r.overflow
  carry : s.carry = r.carry
  others : ∀ b, 4 ≤ b → s.bits.getLsbD b = before.bits.getLsbD b

theorem getLsbD_setArithmetic (s : Status) (n z v c : Bool) (b : Nat) :
    (s.setArithmetic n z v c).bits.getLsbD b =
      if b = 3 then c else if b = 2 then v else if b = 1 then z else if b = 0 then n
      else s.bits.getLsbD b := by
  rw [setArithmetic, getLsbD_setBit _ (by decide), getLsbD_setBit _ (by decide),
    getLsbD_setBit _ (by decide), getLsbD_setBit _ (by decide)]

end Status

/-- The flags of a result are those that are set by it. -/
theorem Cpu.shows_setFlags (cpu : Cpu) (r : Result) :
    cpu.status.Shows (cpu.setFlags r).status r where
  negative := by
    rw [Status.negative, setFlags, Status.getLsbD_setArithmetic]
    exact BitVec.msb_eq_getLsbD_last r.value
  zero := by
    rw [Status.zero, setFlags, Status.getLsbD_setArithmetic]
    exact beq_iff_eq
  overflow := Status.getLsbD_setArithmetic _ _ _ _ _ 2
  carry := Status.getLsbD_setArithmetic _ _ _ _ _ 3
  others b hb := by
    rw [setFlags, Status.getLsbD_setArithmetic, if_neg (by omega), if_neg (by omega),
      if_neg (by omega), if_neg (by omega)]

/-! ## Instructions that compute -/

namespace Machine

/-- An instruction leaves a machine with a result: the machine goes on with its flags, with the
    result in the target if it is to be written, and with all else as it was. -/
structure Computes (m : Machine) (target : Register) (write : Bool) (r : Result)
    (outcome : Machine × Flow) : Prop where
  goes_on : outcome.2 = .next
  status : m.cpu.status.Shows outcome.1.cpu.status r
  written : outcome.1.cpu.get target = if write then r.value else m.cpu.get target
  registers : ∀ s, s ≠ target → outcome.1.cpu.get s = m.cpu.get s
  memory : outcome.1.memory = m.memory
  segments : outcome.1.cpu.segments = m.cpu.segments
  shadow : outcome.1.cpu.shadow = m.cpu.shadow

theorem computes_alu (m : Machine) (op : AluOp) (target : Register) (operand : Operand)
    (write : Bool) :
    m.Computes target write (op.apply (m.cpu.get target) (m.cpu.operand operand))
      (m.execute (.alu op target operand write)) := by
  have hflags := m.cpu.shows_setFlags (op.apply (m.cpu.get target) (m.cpu.operand operand))
  cases write with
  | false => exact ⟨rfl, hflags, rfl, fun _ _ => rfl, rfl, rfl, rfl⟩
  | true =>
    exact ⟨rfl, hflags, Cpu.get_set_self _ _ _, fun _ hs => Cpu.get_set_of_ne _ _ hs, rfl, rfl,
      rfl⟩

end Machine

/-! ## Comparisons -/

/-- What a condition says of two words behind their difference. -/
def Condition.Compares (a b : Word) : Condition → Prop
  | zero => a = b
  | notZero => a ≠ b
  | carry => a.toNat < b.toNat
  | notCarry => b.toNat ≤ a.toNat
  | negative => (a - b).toInt < 0
  | notNegative => 0 ≤ (a - b).toInt
  | overflow => ¬Word.IsSigned (a.toInt - b.toInt)
  | notOverflow => Word.IsSigned (a.toInt - b.toInt)

namespace Status.Shows

variable {before s : Status} {a b : Word} (h : before.Shows s (AluOp.sub.apply a b))

include h

theorem zero_iff_eq : s.zero = true ↔ a = b := by
  rw [h.zero]
  change a - b = 0#16 ↔ a = b
  rw [BitVec.sub_eq_iff_eq_add, BitVec.zero_add]

theorem carry_iff_lt : s.carry = true ↔ a.toNat < b.toNat := by
  rw [h.carry]
  exact BitVec.ult_iff_toNat_lt

theorem negative_eq_msb : s.negative = (a - b).msb :=
  h.negative.trans (BitVec.msb_eq_getLsbD_last (a - b)).symm

theorem negative_ne_overflow_iff_lt : s.negative ≠ s.overflow ↔ a.toInt < b.toInt := by
  rw [h.negative_eq_msb, h.overflow]
  exact AluOp.msb_sub_ne_iff a b

theorem overflow_iff : s.overflow = true ↔ ¬Word.IsSigned (a.toInt - b.toInt) := by
  rw [h.overflow]
  exact AluOp.overflow_sub a b

/-- Behind a difference the conditions compare its words. -/
theorem holds_iff (condition : Condition) : condition.holds s = true ↔ condition.Compares a b := by
  have hnegative : s.negative = true ↔ (a - b).toInt < 0 := by
    rw [h.negative_eq_msb, BitVec.msb_eq_toInt, decide_eq_true_iff]
  have hclear : ∀ {flag : Bool} {p : Prop}, (flag = true ↔ p) → ((!flag) = true ↔ ¬p) := by
    intro flag p hflag
    rw [Bool.not_eq_true', ← hflag, Bool.not_eq_true]
  cases condition with
  | zero => exact h.zero_iff_eq
  | notZero => exact hclear h.zero_iff_eq
  | carry => exact h.carry_iff_lt
  | notCarry => exact (hclear h.carry_iff_lt).trans Nat.not_lt
  | negative => exact hnegative
  | notNegative => exact (hclear hnegative).trans Int.not_lt
  | overflow => exact h.overflow_iff
  | notOverflow => exact (hclear h.overflow_iff).trans not_not

end Status.Shows

/-- The operand of an operation on two words is a word: it is in a register, or it is a number that
    fits into an instruction. -/
def Cpu.HasOperand (cpu : Cpu) (b : Word) : Operand → Prop
  | .register r => cpu.get r = b
  | .immediate value => value ≤ 15 ∧ b.toNat = value

theorem Cpu.operand_eq {cpu : Cpu} {b : Word} {operand : Operand} (h : cpu.HasOperand b operand) :
    cpu.operand operand = b := by
  cases operand with
  | register r => exact h
  | immediate value =>
    obtain ⟨-, hvalue⟩ := h
    rw [operand, ← hvalue, BitVec.ofNat_toNat, BitVec.setWidth_eq]

namespace Machine

variable {m : Machine} {target : Register} {operand : Operand} {a b : Word}

/-- The flags of a machine compare two words, and branches go by them. -/
structure Compared (a b : Word) (m : Machine) : Prop where
  equal : m.cpu.status.zero = true ↔ a = b
  less : m.cpu.status.carry = true ↔ a.toNat < b.toNat
  signedLess : m.cpu.status.negative ≠ m.cpu.status.overflow ↔ a.toInt < b.toInt
  taken : ∀ (condition : Condition) (offset : Int), condition.Compares a b →
    m.execute (.branch condition offset) = (m.setPc (m.cpu.pc + BitVec.ofInt 16 offset), .next)
  falls : ∀ (condition : Condition) (offset : Int), ¬condition.Compares a b →
    m.execute (.branch condition offset) = (m, .next)

/-- An operation on two words gives what it has to give on the integers that they are, sets the
    flags by it, and writes it if that is asked for. Behind a difference the flags compare the two
    words, with and without sign. -/
theorem alu_in_integers (ha : m.cpu.get target = a) (hb : m.cpu.HasOperand b operand)
    (write : Bool) :
    (∀ op : AluOp, ∃ r : Result, op.Gives a b r ∧
      m.Computes target write r (m.execute (.alu op target operand write))) ∧
    Compared a b (m.execute (.alu .sub target operand write)).1 := by
  have hcomputes : ∀ op : AluOp,
      m.Computes target write (op.apply a b) (m.execute (.alu op target operand write)) := by
    intro op
    rw [← ha, ← Cpu.operand_eq hb]
    exact computes_alu m op target operand write
  have hflags := (hcomputes .sub).status
  refine ⟨fun op => ⟨_, op.gives_apply a b, hcomputes op⟩, ?_⟩
  exact {
    equal := hflags.zero_iff_eq
    less := hflags.carry_iff_lt
    signedLess := hflags.negative_ne_overflow_iff_lt
    taken := fun condition _ h => execute_branch_taken ((hflags.holds_iff condition).2 h)
    falls := fun condition _ h =>
      execute_branch_fall
        (eq_false_of_ne_true fun hholds => h ((hflags.holds_iff condition).1 hholds)) }

/-- The least signed number compared with one: it is less, though the difference is not negative,
    because the difference overflows. Without sign it is not less. -/
theorem alu_in_integers_least :
    ∃ m : Machine, m.cpu.get ⟨1⟩ = 0x8000 ∧ m.cpu.HasOperand 1 (.immediate 1) ∧
      (m.execute (.alu .sub ⟨1⟩ (.immediate 1) false)).1.Compared 0x8000 1 ∧
      (m.execute (.alu .sub ⟨1⟩ (.immediate 1) false)).1.cpu.get ⟨1⟩ = 0x8000 ∧
      (m.execute (.alu .sub ⟨1⟩ (.immediate 1) true)).1.cpu.get ⟨1⟩ = 0x7FFF ∧
      ((0x8000 : Word).toInt < (1 : Word).toInt ∧ ¬(0x8000 : Word).toNat < (1 : Word).toNat) := by
  obtain ⟨m, hm⟩ : ∃ m, m = (Machine.start {}).set ⟨1⟩ 0x8000 := ⟨_, rfl⟩
  have ha : m.cpu.get ⟨1⟩ = 0x8000 := by rw [hm]; exact Cpu.get_set_self _ _ _
  have hb : m.cpu.HasOperand 1 (.immediate 1) := ⟨by decide, rfl⟩
  obtain ⟨hkept, hcompared⟩ := alu_in_integers ha hb false
  obtain ⟨hwritten, -⟩ := alu_in_integers ha hb true
  obtain ⟨_, -, hkept⟩ := hkept .sub
  obtain ⟨r, ⟨hvalue, -, -⟩, hwritten⟩ := hwritten .sub
  have hr : r.value = 0x7FFF := by
    exact BitVec.eq_of_toNat_eq (Int.ofNat_inj.1 hvalue)
  exact ⟨m, ha, hb, hcompared, hkept.written.trans ha, hwritten.written.trans hr, by decide,
    by decide⟩

end Machine

end WordMachine
