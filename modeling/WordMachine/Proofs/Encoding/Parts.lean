import Mathlib.Data.Int.ModEq
import WordMachine.Encoding.Layout
import WordMachine.Proofs.Encoding.Field

/-!
# The parts of a word

A field is cut out of a word by shifts and a mask. What that comes to is said here in the bits
that belong to the field (`Field.Covers`) and in numbers modulo the power of two that it has room
for.

What a field has in a word is put back as the bits of the word that belong to the field
(`Field.getLsbD_put_get`). Put and read with sign, a word is the one number of the signed range of
the field that agrees with it modulo the power of two (`Field.eq_getSigned_put_iff`). Fields that
share no bit are beside each other (`Field.beside_iff`), and then neither is disturbed by what is
put into the other. The words that start with an opcode are those that have a number below the
opcode behind it (`Opcode.leads_iff_exists`).
-/

namespace WordMachine

namespace Field

variable {f g : Field} {v w : Word}

/-! ## Bits of a field -/

/-- The bit at a position belongs to the field. -/
def Covers (f : Field) (i : Nat) : Prop := f.lsb ≤ i ∧ i < f.lsb + f.width

instance {i : Nat} : Decidable (f.Covers i) := inferInstanceAs (Decidable (_ ∧ _))

/-- Fields that have bits at all are beside each other if they share none. -/
theorem beside_iff (hf : 1 ≤ f.width) (hg : 1 ≤ g.width) :
    f.Beside g ↔ ∀ i, f.Covers i → ¬g.Covers i := by
  simp only [Beside, Covers]
  constructor
  · intro h i hi
    omega
  · intro h
    -- Of two fields that overlap, the one that starts higher starts at a bit of the other.
    have hf' : ¬(g.lsb ≤ f.lsb ∧ f.lsb < g.lsb + g.width) := h f.lsb ⟨Nat.le_refl _, by omega⟩
    have hg' : ¬(f.lsb ≤ g.lsb ∧ g.lsb < f.lsb + f.width) := fun hi =>
      h g.lsb hi ⟨Nat.le_refl _, by omega⟩
    omega

/-- What a word has in a field, put there, has the bits of the word that belong to the field. -/
theorem getLsbD_put_get (f : Field) (w : Word) (i : Nat) :
    (f.put (f.get w)).getLsbD i = (decide (f.Covers i) && w.getLsbD i) := by
  rw [getLsbD_put, getLsbD_get]
  by_cases hi : i < 16
  · by_cases hc : f.Covers i
    · have hl : f.lsb ≤ i := hc.1
      have hu : i < f.lsb + f.width := hc.2
      have hw : i - f.lsb < f.width := by omega
      simp [hc, hi, hl, hu, hw]
    · have hnot : ¬(f.lsb ≤ i ∧ i < f.lsb + f.width) := hc
      simp only [hc, decide_false, Bool.false_and, Bool.and_eq_false_iff, decide_eq_false_iff_not]
      omega
  · simp [hi, BitVec.getLsbD_of_ge w i (Nat.le_of_not_lt hi)]

/-! ## Numbers of a field -/

theorem toNat_get_put (hf : f.Fits) (v : Word) :
    (f.get (f.put v)).toNat = v.toNat % 2 ^ f.width := by
  rw [get_put hf, toNat_and_mask hf]

/-- A field that starts above a number has nothing of it. -/
theorem get_eq_zero_of_lt (hf : f.Fits) (hw : w.toNat < 2 ^ f.lsb) : f.get w = 0#16 := by
  refine BitVec.eq_of_toNat_eq ?_
  rw [toNat_get hf, Nat.div_eq_of_lt hw, Nat.zero_mod]
  rfl

/-- What a field has, read with sign, is the one number of its signed range that agrees with its
    bits modulo the power of two. -/
theorem eq_getSigned_iff (hf : f.Fits) (hw : 1 ≤ f.width) {x : Int} :
    x = f.getSigned w ↔
      f.minSigned ≤ x ∧ x ≤ f.maxSigned ∧ x ≡ (f.get w).toNat [ZMOD 2 ^ f.width] := by
  have hlt : ((f.get w).toNat : Int) < 2 ^ f.width := by exact_mod_cast toNat_get_lt hf w
  have hresidue : ((f.get w).toNat : Int) % 2 ^ f.width = (f.get w).toNat :=
    Int.emod_eq_of_lt (Int.natCast_nonneg _) hlt
  rw [Int.ModEq, hresidue]
  constructor
  · rintro rfl
    obtain ⟨hmin, hmax⟩ := getSigned_mem hf hw w
    exact ⟨hmin, hmax, getSigned_emod hf hw w⟩
  · rintro ⟨hmin, hmax, hx⟩
    -- The bits of the field are those of the number, as both have its residue.
    have hbits : f.get w = BitVec.ofInt 16 x &&& f.mask := by
      refine BitVec.eq_of_toNat_eq ?_
      rw [toNat_and_mask hf]
      exact_mod_cast ((toNat_ofInt_emod x hf.width_le).trans hx).symm
    exact (getSigned_of_get hf hw hmin hmax hbits).symm

/-- Put into a field and read with sign, a word is the one number of the signed range of the field
    that agrees with it modulo the power of two. -/
theorem eq_getSigned_put_iff (hf : f.Fits) (hw : 1 ≤ f.width) {x : Int} :
    x = f.getSigned (f.put v) ↔
      f.minSigned ≤ x ∧ x ≤ f.maxSigned ∧ x ≡ v.toNat [ZMOD 2 ^ f.width] := by
  rw [eq_getSigned_iff hf hw, toNat_get_put hf]
  push_cast
  rw [Int.ModEq, Int.emod_emod, Int.ModEq]

/-- A word is the same number with sign and without, modulo any power of two that words have. -/
theorem toInt_modEq (v : Word) {k : Nat} (hk : k ≤ 16) : v.toInt ≡ v.toNat [ZMOD 2 ^ k] := by
  have h := toNat_ofInt_emod v.toInt hk
  rw [BitVec.ofInt_toInt] at h
  exact h.symm

/-- A number in the signed range of a field is read back as it is. -/
theorem getSigned_put_of_mem (hf : f.Fits) (hw : 1 ≤ f.width) (hmin : f.minSigned ≤ v.toInt)
    (hmax : v.toInt ≤ f.maxSigned) : f.getSigned (f.put v) = v.toInt :=
  ((eq_getSigned_put_iff hf hw).2 ⟨hmin, hmax, toInt_modEq v hf.width_le⟩).symm

/-! ## Fields beside each other -/

/-- A field reads nothing of what is joined to a word in a field beside it. -/
theorem get_or_put_of_beside (h : g.Beside f) (v w : Word) : g.get (w ||| f.put v) = g.get w := by
  rw [get_or, get_put_of_beside h, BitVec.or_zero]

/-- A field reads back what was put into it, also when a field beside it is filled. -/
theorem toNat_get_put_or_put (hf : f.Fits) (h : f.Beside g) (v w : Word) :
    (f.get (g.put w ||| f.put v)).toNat = v.toNat % 2 ^ f.width := by
  rw [get_or, get_put_of_beside h, BitVec.zero_or, toNat_get_put hf]

end Field

/-! ## Words that start with an opcode -/

namespace Opcode

variable {o : Opcode} {w : Word}

/-- The bits of a word that the opcode leaves free, as a field. -/
def below (o : Opcode) : Field := ⟨0, 16 - o.length⟩

theorem below_fits (o : Opcode) : o.below.Fits := by
  simp only [below, Field.Fits]
  omega

theorem leads_word_or (ho : o.Fits) (hw : w.toNat < 2 ^ (16 - o.length)) :
    o.leads (o.word ||| w) = true := by
  have hzero : o.field.get w = 0#16 := Field.get_eq_zero_of_lt ho.field hw
  rw [leads_iff ho, Field.get_or, get_word ho, hzero, BitVec.or_zero]

/-- A word that starts with an opcode is the opcode's word and, joined to it, what is below. -/
theorem word_or_get_below (ho : o.Fits) (h : o.leads w = true) :
    o.word ||| o.below.get w = w := by
  refine BitVec.eq_of_getLsbD_eq fun i hi => ?_
  rw [word_of_leads ho h, BitVec.getLsbD_or, Field.getLsbD_put_get, Field.getLsbD_get, below,
    Nat.zero_add]
  by_cases hb : i < 16 - o.length
  · cases w.getLsbD i <;> simp [hb]
  · have hc : o.field.Covers i := by
      simp only [Field.Covers, Opcode.field]
      omega
    simp [hc, hb]

/-- The words that start with an opcode are those that have a number below it behind it. -/
theorem leads_iff_exists (ho : o.Fits) :
    o.leads w = true ↔ ∃ x : Word, x.toNat < 2 ^ (16 - o.length) ∧ o.word ||| x = w := by
  constructor
  · intro h
    exact ⟨o.below.get w, Field.toNat_get_lt o.below_fits w, word_or_get_below ho h⟩
  · rintro ⟨x, hx, rfl⟩
    exact leads_word_or ho hx

end Opcode

/-- A field reads back what was put into it, as far as it has room: without sign the remainder by
    the power of two, and with sign the one number of its range that leaves this remainder, so that
    a number in the range is read back as it is. What a field has in a word is put back as the bits
    of the word that belong to the field. Where two fields share no bit, neither is disturbed by
    what is put into the other. The words that start with an opcode are the word of the opcode
    joined to the numbers that have room below it. -/
theorem fields_and_opcodes_read_back :
    (∀ f : Field, 1 ≤ f.width → f.Fits → ∀ v w : Word,
      (f.get (f.put v)).toNat = v.toNat % 2 ^ f.width ∧
      (∀ i, (f.put (f.get w)).getLsbD i = (decide (f.Covers i) && w.getLsbD i)) ∧
      (∀ x : Int, x = f.getSigned (f.put v) ↔
        f.minSigned ≤ x ∧ x ≤ f.maxSigned ∧ x ≡ v.toNat [ZMOD 2 ^ f.width]) ∧
      (f.minSigned ≤ v.toInt → v.toInt ≤ f.maxSigned → f.getSigned (f.put v) = v.toInt) ∧
      ∀ g : Field, 1 ≤ g.width → g.Fits → (∀ i, f.Covers i → ¬g.Covers i) →
        g.get (w ||| f.put v) = g.get w ∧
        (f.get (g.put w ||| f.put v)).toNat = v.toNat % 2 ^ f.width) ∧
    ∀ o : Opcode, o.Fits → ∀ w : Word, o.leads w = true ↔
      ∃ x : Word, x.toNat < 2 ^ (16 - o.length) ∧ o.word ||| x = w := by
  refine ⟨fun f hw hf v w => ⟨Field.toNat_get_put hf v, f.getLsbD_put_get w,
    fun x => Field.eq_getSigned_put_iff hf hw, Field.getSigned_put_of_mem hf hw,
    fun g hg _ hapart => ?_⟩, fun o ho w => Opcode.leads_iff_exists ho⟩
  have hbeside : f.Beside g := (Field.beside_iff hw hg).2 hapart
  exact ⟨Field.get_or_put_of_beside hbeside.symm v w, Field.toNat_get_put_or_put hf hbeside v w⟩

/-- A negative number in the four high bits of a word, where the opcode of branches stands, with the
    field of the condition right below. -/
theorem fields_and_opcodes_read_back_high :
    (Layout.Branch.opcode.field.get (Layout.Branch.opcode.field.put 0xFFFD)).toNat = 13 ∧
      Layout.Branch.opcode.field.getSigned (Layout.Branch.opcode.field.put 0xFFFD) = -3 ∧
      Layout.Branch.condition.get (0x0E05 ||| Layout.Branch.opcode.field.put 0xFFFD) = 7 ∧
      (Layout.Branch.opcode.field.get (Layout.Branch.condition.put 0x0E05 |||
        Layout.Branch.opcode.field.put 0xFFFD)).toNat = 13 ∧
      Layout.Branch.opcode.leads (Layout.Branch.opcode.word ||| 0x0DFF) = true := by
  obtain ⟨hfields, hopcodes⟩ := fields_and_opcodes_read_back
  obtain ⟨hput, -, -, hsigned, hbeside⟩ :=
    hfields Layout.Branch.opcode.field (by decide) (by decide) 0xFFFD 0x0E05
  have hapart : ∀ i, Layout.Branch.opcode.field.Covers i → ¬Layout.Branch.condition.Covers i :=
    (Field.beside_iff (by decide) (by decide)).1 (by decide)
  obtain ⟨hcondition, hopcode⟩ :=
    hbeside Layout.Branch.condition (by decide) (by decide) hapart
  exact ⟨hput.trans (by decide), hsigned (by decide) (by decide), hcondition.trans (by decide),
    hopcode.trans (by decide), (hopcodes Layout.Branch.opcode (by decide) _).2 ⟨_, by decide, rfl⟩⟩

end WordMachine
