import WordMachine.Proofs.Machine.Arithmetic

/-!
# Shifts bit by bit

What a shift by one bit gives is said of the integers that the words are (`ShiftOp.GivesOne`): to
the left a word is doubled, to the right it is halved, with or without sign, and a rotation puts the
bit that goes out where the sign is. A longer shift is two shorter ones, one behind the other
(`ShiftOp.value_apply_add`, `ShiftOp.carry_apply_add`). So it is a chain of shifts by one bit, of
which the last one carries out what the whole does (`ShiftOp.chain_apply`).
-/

namespace WordMachine

namespace ShiftOp

/-- What a shift by one bit has to give: twice the word or half of it, and the bit that goes out.
    Half of a signed number is the next one below. -/
def GivesOne (a : Word) (r : Result) : ShiftOp → Prop
  | left => r.value.toNat = 2 * a.toNat % 0x10000 ∧ r.carry = a.getLsbD 15 ∧ r.overflow = false
  | right => r.value.toNat = a.toNat / 2 ∧ r.carry = a.getLsbD 0 ∧ r.overflow = false
  | arithmetic => r.value.toInt = a.toInt.fdiv 2 ∧ r.carry = a.getLsbD 0 ∧ r.overflow = false
  | rotate => r.value.toNat = a.toNat / 2 + 0x8000 * (a.getLsbD 0).toNat ∧
    r.carry = a.getLsbD 0 ∧ r.overflow = false

/-- The result of shifts by one bit, one behind the other. With none there is no carry. -/
inductive Chain (op : ShiftOp) (a : Word) : Nat → Result → Prop
  | none : Chain op a 0 { value := a }
  | one {count : Nat} {r r' : Result} :
    Chain op a count r → op.GivesOne r.value r' → Chain op a (count + 1) r'

/-! ## Shifts by one bit -/

section One

variable (a : Word)

theorem toNat_rotateRight_one :
    (a.rotateRight 1).toNat = a.toNat / 2 + 0x8000 * (a.getLsbD 0).toNat := by
  have hbit : (a.getLsbD 0).toNat = a.toNat % 2 := by
    rw [BitVec.getLsbD, Nat.testBit_zero]
    rcases Nat.mod_two_eq_zero_or_one a.toNat with h | h <;> rw [h] <;> rfl
  have hlow : a.toNat >>> 1 < 2 ^ 15 := by
    rw [Nat.shiftRight_eq_div_pow]
    omega
  have hhigh : a.toNat <<< 15 % 2 ^ 16 = (a.toNat % 2) <<< 15 := by
    rw [Nat.shiftLeft_eq, Nat.shiftLeft_eq]
    omega
  -- The halves share no bit, so that joining them is adding them.
  calc (a.rotateRight 1).toNat
      = a.toNat >>> 1 ||| a.toNat <<< 15 % 2 ^ 16 := BitVec.toNat_rotateRight
    _ = (a.toNat % 2) <<< 15 + a.toNat >>> 1 := by
      rw [hhigh, Nat.or_comm, Nat.shiftLeft_add_eq_or_of_lt hlow]
    _ = a.toNat / 2 + 0x8000 * (a.getLsbD 0).toNat := by
      rw [hbit, Nat.shiftLeft_eq, Nat.shiftRight_eq_div_pow]
      omega

theorem givesOne_apply (op : ShiftOp) : op.GivesOne a (op.apply a 1) := by
  cases op with
  | left =>
    refine ⟨?_, rfl, rfl⟩
    change (a <<< 1).toNat = _
    rw [BitVec.toNat_shiftLeft, Nat.shiftLeft_eq, Nat.mul_comm]
  | right =>
    refine ⟨?_, rfl, rfl⟩
    change (a >>> 1).toNat = _
    rw [BitVec.toNat_ushiftRight, Nat.shiftRight_eq_div_pow]
  | arithmetic =>
    refine ⟨?_, rfl, rfl⟩
    change (a.sshiftRight 1).toInt = _
    rw [BitVec.toInt_sshiftRight, Int.shiftRight_eq_div_pow]
    exact (Int.fdiv_eq_ediv_of_nonneg _ (by decide)).symm
  | rotate => exact ⟨toNat_rotateRight_one a, rfl, rfl⟩

end One

/-! ## Shifts one behind the other -/

section Two

variable (op : ShiftOp) (a : Word) {j k count : Nat}

/-- A bit of a word that is rotated is the bit that is so much higher, counted on from the lowest
    behind the highest. -/
theorem getLsbD_rotateRight_of_lt {i : Nat} (hi : i < 16) (hcount : count < 16) :
    (a.rotateRight count).getLsbD i = a.getLsbD ((i + count) % 16) := by
  rw [BitVec.getLsbD_rotateRight, Nat.mod_eq_of_lt hcount]
  by_cases h : i < 16 - count
  · have hindex : (i + count) % 16 = count + i := by omega
    simp [h, hindex]
  · have hindex : (i + count) % 16 = i - (16 - count) := by omega
    simp [h, hi, hindex]

/-- The word that a shift leads to, without an exception for a shift by no bits. -/
def shifted (a : Word) (count : Nat) : ShiftOp → Word
  | left => a <<< count
  | right => a >>> count
  | arithmetic => a.sshiftRight count
  | rotate => a.rotateRight count

/-- The bit that goes out last in a shift by some bits. -/
def lastOut (a : Word) (count : Nat) : ShiftOp → Bool
  | left => a.getLsbD (16 - count)
  | right => a.getLsbD (count - 1)
  | arithmetic => a.getLsbD (count - 1)
  | rotate => a.getLsbD (count - 1)

theorem overflow_apply (count : Nat) : (op.apply a count).overflow = false := by
  simp only [apply]
  split
  · rfl
  · cases op <;> rfl

theorem carry_apply (h : 1 ≤ count) : (op.apply a count).carry = op.lastOut a count := by
  simp only [apply, if_neg (Nat.ne_of_gt h)]
  cases op <;> rfl

theorem value_apply (count : Nat) : (op.apply a count).value = op.shifted a count := by
  simp only [apply]
  split
  · next hzero =>
    subst hzero
    refine BitVec.eq_of_getLsbD_eq fun i hi => ?_
    cases op with
    | left => simp [shifted]
    | right => simp [shifted]
    | arithmetic => simp [shifted]
    | rotate =>
      rw [shifted, getLsbD_rotateRight_of_lt a hi (by decide), Nat.add_zero, Nat.mod_eq_of_lt hi]
  · cases op <;> rfl

theorem shifted_add (h : j + k ≤ 15) :
    op.shifted a (j + k) = op.shifted (op.shifted a j) k := by
  cases op with
  | left => exact BitVec.shiftLeft_add a j k
  | right => exact BitVec.shiftRight_add a j k
  | arithmetic => exact BitVec.sshiftRight_add
  | rotate =>
    refine BitVec.eq_of_getLsbD_eq fun i hi => ?_
    simp only [shifted]
    rw [getLsbD_rotateRight_of_lt a hi (by omega), getLsbD_rotateRight_of_lt _ hi (by omega),
      getLsbD_rotateRight_of_lt a (Nat.mod_lt _ (by decide)) (by omega)]
    congr 1
    omega

/-- What goes out last behind the first of two shifts goes out last in both together. -/
theorem lastOut_add (h : j + k ≤ 15) (hk : 1 ≤ k) :
    op.lastOut a (j + k) = op.lastOut (op.shifted a j) k := by
  have hindex : j + (k - 1) = j + k - 1 := by omega
  have hroom : j + k - 1 < 16 := by omega
  cases op with
  | left =>
    have hleft : 16 - k - j = 16 - (j + k) := by omega
    simp only [lastOut, shifted]
    rw [BitVec.getLsbD_shiftLeft, hleft]
    simp [show 16 - k < 16 by omega, show ¬16 - k < j by omega]
  | right =>
    simp only [lastOut, shifted]
    rw [BitVec.getLsbD_ushiftRight, hindex]
  | arithmetic =>
    simp only [lastOut, shifted]
    rw [BitVec.getLsbD_sshiftRight, hindex]
    simp [hroom, show k - 1 < 16 by omega]
  | rotate =>
    simp only [lastOut, shifted]
    rw [getLsbD_rotateRight_of_lt a (by omega) (by omega), Nat.add_comm (k - 1), hindex,
      Nat.mod_eq_of_lt hroom]

/-- A shift is two shifts, one behind the other. -/
theorem value_apply_add (h : j + k ≤ 15) :
    (op.apply a (j + k)).value = (op.apply (op.apply a j).value k).value := by
  rw [value_apply, value_apply, value_apply, shifted_add op a h]

/-- A shift carries what the second of two shifts does, if that is by a bit at least. -/
theorem carry_apply_add (h : j + k ≤ 15) (hk : 1 ≤ k) :
    (op.apply a (j + k)).carry = (op.apply (op.apply a j).value k).carry := by
  rw [carry_apply op a (by omega), carry_apply _ _ hk, value_apply, lastOut_add op a h hk]

theorem apply_succ (h : count + 1 ≤ 15) :
    op.apply a (count + 1) = op.apply (op.apply a count).value 1 := by
  have hvalue := value_apply_add op a h
  have hcarry := carry_apply_add op a h (Nat.le_refl 1)
  have hoverflow : (op.apply a (count + 1)).overflow =
      (op.apply (op.apply a count).value 1).overflow := by
    rw [overflow_apply, overflow_apply]
  generalize op.apply a (count + 1) = r at *
  generalize op.apply (op.apply a count).value 1 = r' at *
  cases r
  cases r'
  simp_all

/-- A shift is a chain of shifts by one bit. -/
theorem chain_apply (h : count ≤ 15) : op.Chain a count (op.apply a count) := by
  induction count with
  | zero => exact .none
  | succ count ih =>
    rw [apply_succ op a h]
    exact .one (ih (Nat.le_of_succ_le h)) (givesOne_apply _ op)

end Two

end ShiftOp

namespace Machine

theorem computes_shift (m : Machine) (op : ShiftOp) (target : Register) (count : Nat) :
    m.Computes target true (op.apply (m.cpu.get target) count)
      (m.execute (.shift op target count)) :=
  ⟨rfl, m.cpu.shows_setFlags _, Cpu.get_set_self _ _ _, fun _ hs => Cpu.get_set_of_ne _ _ hs, rfl,
    rfl, rfl⟩

/-- A shift by one bit doubles or halves a word and carries the bit that goes out, and one by no
    bits leaves the word and carries none. Two shifts, one behind the other, are one shift by as
    many bits as both, and the second carries what the one does if it is by a bit at least. So an
    instruction that shifts a register does so bit by bit, and sets the flags by the last of them:
    there is no overflow. -/
theorem shift_bit_by_bit (op : ShiftOp) :
    (∀ a : Word, op.GivesOne a (op.apply a 1) ∧ op.apply a 0 = { value := a }) ∧
    (∀ (a : Word) (j k : Nat), j + k ≤ 15 →
      (op.apply a (j + k)).value = (op.apply (op.apply a j).value k).value ∧
      (1 ≤ k → (op.apply a (j + k)).carry = (op.apply (op.apply a j).value k).carry)) ∧
    ∀ (m : Machine) (target : Register) (count : Nat), count ≤ 15 →
      ∃ r, op.Chain (m.cpu.get target) count r ∧ r.overflow = false ∧
        m.Computes target true r (m.execute (.shift op target count)) :=
  ⟨fun a => ⟨op.givesOne_apply a, rfl⟩,
    fun a _ _ h => ⟨op.value_apply_add a h, op.carry_apply_add a h⟩,
    fun m target count h => ⟨_, op.chain_apply _ h, op.overflow_apply _ _,
      m.computes_shift op target count⟩⟩

/-- A negative number shifted by three bits, at once and by one and then two: what is carried is the
    third bit. -/
theorem shift_bit_by_bit_negative :
    ∃ m : Machine, m.cpu.get ⟨5⟩ = 0x8004 ∧ 1 + 2 ≤ 15 ∧
      (ShiftOp.apply 0x8004 3 .arithmetic).value =
        (ShiftOp.apply (ShiftOp.apply 0x8004 1 .arithmetic).value 2 .arithmetic).value ∧
      (ShiftOp.apply (ShiftOp.apply 0x8004 1 .arithmetic).value 2 .arithmetic).carry = true ∧
      ∃ r, ShiftOp.arithmetic.Chain 0x8004 3 r ∧
        m.Computes ⟨5⟩ true r (m.execute (.shift .arithmetic ⟨5⟩ 3)) := by
  obtain ⟨m, hm⟩ : ∃ m, m = (Machine.start {}).set ⟨5⟩ 0x8004 := ⟨_, rfl⟩
  have ha : m.cpu.get ⟨5⟩ = 0x8004 := by rw [hm]; exact Cpu.get_set_self _ _ _
  obtain ⟨-, htwo, hmachine⟩ := shift_bit_by_bit .arithmetic
  obtain ⟨hvalue, hcarry⟩ := htwo 0x8004 1 2 (by decide)
  obtain ⟨r, hchain, -, hcomputes⟩ := hmachine m ⟨5⟩ 3 (by decide)
  rw [ha] at hchain
  exact ⟨m, ha, by decide, hvalue, (hcarry (by decide)).symm.trans (by decide), r, hchain,
    hcomputes⟩

end Machine

end WordMachine
