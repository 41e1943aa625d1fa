import Mathlib.Data.Nat.Bitwise
import Mathlib.Tactic.Positivity
import WordMachine.Encoding.Field

/-!
# Laws of fields

What a word has in a field after a word was made from fields. A field reads back
what was put into it (`Field.get_put`), and reads nothing of what was put into a
field beside it (`Field.get_put_of_beside`); as a word is made by joining fields
with `|||`, these and `Field.get_or` compute every field of it. The other way round,
a word is the join of what its fields have in it (`Field.put_get`).

Read with sign, a field has the value that its bits have modulo the power of two,
taken to the range around zero (`Field.getSigned_eq`).

An opcode is a field at the high end of the word (`Opcode.field`): that an opcode
leads a word says what the word has in that field.
-/

namespace WordMachine

namespace Field

variable {f g : Field} {v w : Word}

/-- The field lies in a word. -/
def Fits (f : Field) : Prop := f.lsb + f.width ≤ 16

/-- No bit belongs to both fields. -/
def Beside (f g : Field) : Prop := f.lsb + f.width ≤ g.lsb ∨ g.lsb + g.width ≤ f.lsb

theorem Fits.width_le (hf : f.Fits) : f.width ≤ 16 := Nat.le_trans (Nat.le_add_left _ _) hf

theorem Beside.symm (h : f.Beside g) : g.Beside f := Or.symm h

instance : Decidable f.Fits := inferInstanceAs (Decidable (_ ≤ _))

instance : Decidable (f.Beside g) := inferInstanceAs (Decidable (_ ∨ _))

/-! ## Bits -/

theorem getLsbD_mask (f : Field) (i : Nat) :
    f.mask.getLsbD i = (decide (i < 16) && decide (i < f.width)) := by
  rw [mask, BitVec.getLsbD_ofNat, Nat.pow_eq, Nat.testBit_two_pow_sub_one]

theorem getLsbD_get (f : Field) (w : Word) (i : Nat) :
    (f.get w).getLsbD i = (decide (i < f.width) && w.getLsbD (f.lsb + i)) := by
  rw [get, BitVec.getLsbD_and, BitVec.getLsbD_ushiftRight, getLsbD_mask]
  by_cases h : f.lsb + i < 16
  · have hi : i < 16 := by omega
    simp [hi, Bool.and_comm]
  · simp [BitVec.getLsbD_of_ge w _ (Nat.le_of_not_lt h)]

theorem getLsbD_put (f : Field) (v : Word) (i : Nat) :
    (f.put v).getLsbD i =
      (decide (i < 16) && decide (f.lsb ≤ i) && decide (i < f.lsb + f.width)
        && v.getLsbD (i - f.lsb)) := by
  rw [put, BitVec.getLsbD_shiftLeft, BitVec.getLsbD_and, getLsbD_mask]
  by_cases hi : i < 16
  · by_cases hl : f.lsb ≤ i
    · have hw : (i - f.lsb < f.width) ↔ (i < f.lsb + f.width) := by omega
      have h16 : i - f.lsb < 16 := by omega
      simp [hi, hl, hw, h16, Bool.and_comm]
    · simp [hl, Nat.lt_of_not_le hl]
  · simp [hi]

/-! ## Reading what was put -/

@[simp] theorem get_or (f : Field) (v w : Word) : f.get (v ||| w) = f.get v ||| f.get w := by
  refine BitVec.eq_of_getLsbD_eq fun i _ => ?_
  simp only [getLsbD_get, BitVec.getLsbD_or, Bool.and_or_distrib_left]

/-- A field reads back what was put into it, as far as it is wide enough. -/
@[simp] theorem get_put (hf : f.Fits) (v : Word) : f.get (f.put v) = v &&& f.mask := by
  refine BitVec.eq_of_getLsbD_eq fun i hi => ?_
  rw [getLsbD_get, getLsbD_put, BitVec.getLsbD_and, getLsbD_mask]
  by_cases hw : i < f.width
  · have h16 : f.lsb + i < 16 := Nat.lt_of_lt_of_le (Nat.add_lt_add_left hw _) hf
    simp [hw, hi, h16]
  · simp [hw]

/-- A field reads nothing of what was put into a field beside it. -/
@[simp] theorem get_put_of_beside (h : f.Beside g) (v : Word) : f.get (g.put v) = 0#16 := by
  have hbeside : f.lsb + f.width ≤ g.lsb ∨ g.lsb + g.width ≤ f.lsb := h
  refine BitVec.eq_of_getLsbD_eq fun i _ => ?_
  rw [getLsbD_get, getLsbD_put]
  by_cases hw : i < f.width
  · by_cases hg : g.lsb ≤ f.lsb + i
    · have : ¬f.lsb + i < g.lsb + g.width := by omega
      simp [this]
    · simp [hg]
  · simp [hw]

/-- What a word has in a field, put there, is the word without its other bits. -/
theorem put_get (f : Field) (w : Word) : f.put (f.get w) = w &&& f.mask <<< f.lsb := by
  refine BitVec.eq_of_getLsbD_eq fun i hi => ?_
  rw [getLsbD_put, getLsbD_get, BitVec.getLsbD_and, BitVec.getLsbD_shiftLeft, getLsbD_mask]
  by_cases hl : f.lsb ≤ i
  · have hw : (i - f.lsb < f.width) ↔ (i < f.lsb + f.width) := by omega
    have h16 : i - f.lsb < 16 := by omega
    by_cases hf : i < f.lsb + f.width
    · simp [hi, hl, hw, hf, h16, Nat.add_sub_cancel' hl]
    · simp [hw, hf]
  · simp [hl, Nat.lt_of_not_le hl]

/-! ## Numbers in fields -/

theorem toNat_mask (hf : f.Fits) : f.mask.toNat = 2 ^ f.width - 1 := by
  have : 2 ^ f.width ≤ 2 ^ 16 := Nat.pow_le_pow_right (by decide) hf.width_le
  rw [mask, BitVec.toNat_ofNat, Nat.pow_eq, Nat.mod_eq_of_lt (by omega)]

theorem toNat_and_mask (hf : f.Fits) (v : Word) : (v &&& f.mask).toNat = v.toNat % 2 ^ f.width := by
  rw [BitVec.toNat_and, toNat_mask hf, Nat.and_two_pow_sub_one_eq_mod]

theorem toNat_get (hf : f.Fits) (w : Word) :
    (f.get w).toNat = w.toNat / 2 ^ f.lsb % 2 ^ f.width := by
  rw [get, toNat_and_mask hf, BitVec.toNat_ushiftRight, Nat.shiftRight_eq_div_pow]

theorem toNat_get_lt (hf : f.Fits) (w : Word) : (f.get w).toNat < 2 ^ f.width := by
  rw [toNat_get hf]
  exact Nat.mod_lt _ (Nat.two_pow_pos _)

/-- A value that is not too wide for the field is read back as it is. -/
theorem get_put_of_lt (hf : f.Fits) (hv : v.toNat < 2 ^ f.width) : f.get (f.put v) = v := by
  rw [get_put hf]
  exact BitVec.eq_of_toNat_eq (by rw [toNat_and_mask hf, Nat.mod_eq_of_lt hv])

theorem put_zero (f : Field) : f.put 0#16 = 0#16 := by simp [put]

theorem maxUnsigned_eq (hf : f.Fits) : f.maxUnsigned = 2 ^ f.width - 1 := by
  have := Nat.two_pow_pos f.width
  rw [maxUnsigned, toNat_mask hf]
  push_cast [Nat.one_le_two_pow]
  rfl

/-- Moving a number to the top of a word and back with its sign takes it modulo the power of
    two that is left, to the range around zero. -/
theorem bmod_mul_two_pow_div (x : Int) {k s : Nat} (hk : 1 ≤ k) :
    (x * 2 ^ s).bmod (2 ^ (k + s)) / 2 ^ s = x.bmod (2 ^ k) := by
  have hmul : (x * 2 ^ s).bmod (2 ^ (k + s)) = 2 ^ s * x.bmod (2 ^ k) := by
    have h := Int.mod_bmod_mul_of_pos (a := 2 ^ s) x (2 ^ k) (Nat.two_pow_pos s)
      (dvd_pow_self 2 (by omega))
    rw [Nat.pow_add, Nat.mul_comm, Int.mul_comm]
    push_cast at h ⊢
    exact h
  rw [hmul, Int.mul_ediv_cancel_left _ (by positivity)]

/-- Read with sign, a field has its number taken to the range around zero. -/
theorem getSigned_eq (hf : f.Fits) (hw : 1 ≤ f.width) (w : Word) :
    f.getSigned w = ((f.get w).toNat : Int).bmod (2 ^ f.width) := by
  have h16 := hf.width_le
  rw [getSigned, BitVec.toInt_sshiftRight, BitVec.toInt_shiftLeft, Int.shiftRight_eq_div_pow,
    Nat.shiftLeft_eq]
  have h := bmod_mul_two_pow_div (s := 16 - f.width) ((f.get w).toNat : Int) hw
  rw [Nat.add_sub_cancel' h16] at h
  push_cast at h ⊢
  exact h

theorem minSigned_eq (f : Field) : f.minSigned = -2 ^ (f.width - 1) := by
  simp only [minSigned, Nat.pow_eq]
  push_cast
  rfl

theorem maxSigned_eq (f : Field) : f.maxSigned = 2 ^ (f.width - 1) - 1 := by
  simp only [maxSigned, Nat.pow_eq]
  push_cast
  rfl

/-- Twice the half of the range of a field is the whole. -/
theorem two_mul_half (hw : 1 ≤ f.width) : (2 : Int) * 2 ^ (f.width - 1) = 2 ^ f.width := by
  rw [mul_comm, ← pow_succ, Nat.sub_add_cancel hw]

/-- The word of an integer is the integer modulo any power of two that words have. -/
theorem toNat_ofInt_emod (x : Int) {k : Nat} (hk : k ≤ 16) :
    ((BitVec.ofInt 16 x).toNat : Int) % 2 ^ k = x % 2 ^ k := by
  rw [BitVec.toNat_ofInt, Int.toNat_of_nonneg (Int.emod_nonneg _ (by decide))]
  exact Int.emod_emod_of_dvd x (by exact_mod_cast pow_dvd_pow 2 hk)

/-- A number in the signed range of a field is what the field has, read with sign, if it has
    the bits of the number. -/
theorem getSigned_of_get (hf : f.Fits) (hw : 1 ≤ f.width) {x : Int} (hmin : f.minSigned ≤ x)
    (hmax : x ≤ f.maxSigned) (h : f.get w = BitVec.ofInt 16 x &&& f.mask) :
    f.getSigned w = x := by
  have h16 := hf.width_le
  have hhalf := two_mul_half hw
  rw [minSigned_eq] at hmin
  rw [maxSigned_eq] at hmax
  -- Only the residue of the number is in the field, and in the range it tells the number.
  have hb := Int.emod_bmod x (2 ^ f.width)
  rw [getSigned_eq hf hw, h, toNat_and_mask hf]
  push_cast at hb ⊢
  rw [toNat_ofInt_emod x h16, hb]
  exact Int.bmod_eq_of_le_mul_two (by push_cast; omega) (by push_cast; omega)

/-- What a field has, read with sign, is in its signed range. -/
theorem getSigned_mem (hf : f.Fits) (hw : 1 ≤ f.width) (w : Word) :
    f.minSigned ≤ f.getSigned w ∧ f.getSigned w ≤ f.maxSigned := by
  have hhalf := two_mul_half hw
  have hpos : 0 < 2 ^ f.width := Nat.two_pow_pos _
  have hle := Int.le_bmod (x := ((f.get w).toNat : Int)) hpos
  have hlt := Int.bmod_lt (x := ((f.get w).toNat : Int)) hpos
  rw [getSigned_eq hf hw, minSigned_eq, maxSigned_eq]
  push_cast at hle hlt
  omega

/-- Read with sign or without, what a field has is the same modulo the power of two. -/
theorem getSigned_emod (hf : f.Fits) (hw : 1 ≤ f.width) (w : Word) :
    f.getSigned w % 2 ^ f.width = (f.get w).toNat := by
  have hlt := toNat_get_lt hf w
  have hb := Int.bmod_emod (x := ((f.get w).toNat : Int)) (m := 2 ^ f.width)
  push_cast at hb
  rw [getSigned_eq hf hw, hb]
  exact Int.emod_eq_of_lt (Int.natCast_nonneg _) (by exact_mod_cast hlt)

/-- Putting a field's number, read with sign, is putting the field's bits. -/
theorem put_getSigned (hf : f.Fits) (hw : 1 ≤ f.width) (w : Word) :
    f.put (BitVec.ofInt 16 (f.getSigned w)) = f.put (f.get w) := by
  have h16 := hf.width_le
  have hlt := toNat_get_lt hf w
  -- Both have the same residue, and no more than that is put.
  have hmod := getSigned_emod hf hw w
  have hbits : BitVec.ofInt 16 (f.getSigned w) &&& f.mask = f.get w &&& f.mask := by
    refine BitVec.eq_of_toNat_eq ?_
    rw [toNat_and_mask hf, toNat_and_mask hf, Nat.mod_eq_of_lt hlt]
    exact_mod_cast (toNat_ofInt_emod (f.getSigned w) h16).trans hmod
  rw [put, hbits, put]

end Field

/-! ## Opcodes -/

namespace Opcode

variable {o p : Opcode} {f : Field} {w : Word}

/-- The bits of the opcode, as a field. -/
def field (o : Opcode) : Field := ⟨16 - o.length, o.length⟩

/-- The opcode has a length within a word, and bits within its length. -/
def Fits (o : Opcode) : Prop := 1 ≤ o.length ∧ o.length ≤ 16 ∧ o.bits.toNat < 2 ^ o.length

instance : Decidable o.Fits := inferInstanceAs (Decidable (_ ∧ _))

theorem Fits.field (ho : o.Fits) : o.field.Fits := by
  obtain ⟨_, h16, _⟩ := ho
  simp only [Field.Fits, Opcode.field]
  omega

/-- An opcode leads a word if it is what the word has in the field of the opcode. -/
theorem leads_iff (ho : o.Fits) : o.leads w = true ↔ o.field.get w = o.bits := by
  have h : o.field.get w = w >>> (16 - o.length) := by
    refine BitVec.eq_of_getLsbD_eq fun i hi => ?_
    rw [Field.getLsbD_get, BitVec.getLsbD_ushiftRight]
    by_cases hl : i < o.length
    · simp [Opcode.field, hl]
    · have h16 : 16 ≤ 16 - o.length + i := by have := ho.2.1; omega
      simp [Opcode.field, BitVec.getLsbD_of_ge w _ h16]
  rw [leads, beq_iff_eq, h]

theorem word_eq_put (ho : o.Fits) : o.word = o.field.put o.bits := by
  have h : o.bits &&& o.field.mask = o.bits := by
    refine BitVec.eq_of_toNat_eq ?_
    rw [Field.toNat_and_mask ho.field]
    exact Nat.mod_eq_of_lt ho.2.2
  rw [word, Field.put, h]
  rfl

@[simp] theorem get_word (ho : o.Fits) : o.field.get o.word = o.bits := by
  rw [word_eq_put ho, Field.get_put_of_lt ho.field ho.2.2]

@[simp] theorem get_word_of_beside (ho : o.Fits) (h : f.Beside o.field) : f.get o.word = 0#16 := by
  rw [word_eq_put ho, Field.get_put_of_beside h]

/-- A word that an opcode leads has the opcode's word in the field of the opcode. -/
theorem word_of_leads (ho : o.Fits) (h : o.leads w = true) :
    o.word = o.field.put (o.field.get w) := by
  rw [word_eq_put ho, (leads_iff ho).1 h]

/-- No word starts with both opcodes: the longer one does not start with the other. -/
def Apart (o p : Opcode) : Prop :=
  o.length ≤ p.length ∧ p.length ≤ 16 ∧ p.bits >>> (p.length - o.length) ≠ o.bits

instance : Decidable (o.Apart p) := inferInstanceAs (Decidable (_ ∧ _ ∧ _ ≠ _))

theorem Apart.not_leads (h : o.Apart p) (ho : o.leads w = true) : ¬p.leads w = true := by
  obtain ⟨hle, h16, hne⟩ := h
  rw [leads, beq_iff_eq] at ho ⊢
  intro hp
  -- The leading bits of the leading bits are the leading bits.
  refine hne ?_
  rw [← hp, ← BitVec.shiftRight_add, ← ho]
  congr 1
  omega

end Opcode

end WordMachine
