import WordMachine.Text.Case

/-!
# Letters

Letters are told by their ranges of ASCII (`isAlpha_iff`), and a capital and its small letter are
32 places apart (`toNat_toUpper`, `toNat_toLower`). So what a letter becomes in the other case is a
matter of numbers.
-/

namespace WordMachine.Text

variable {c : Char}

theorem isUpper_iff : c.isUpper = true ↔ 0x41 ≤ c.toNat ∧ c.toNat ≤ 0x5A := by
  have hrange : c.isUpper = true ↔ 'A'.val ≤ c.val ∧ c.val ≤ 'Z'.val := decide_eq_true_iff
  rw [hrange, UInt32.le_iff_toNat_le, UInt32.le_iff_toNat_le]
  rfl

theorem isLower_iff : c.isLower = true ↔ 0x61 ≤ c.toNat ∧ c.toNat ≤ 0x7A := by
  have hrange : c.isLower = true ↔ 'a'.val ≤ c.val ∧ c.val ≤ 'z'.val :=
    Bool.and_eq_true_iff.trans (and_congr decide_eq_true_iff decide_eq_true_iff)
  rw [hrange, UInt32.le_iff_toNat_le, UInt32.le_iff_toNat_le]
  rfl

/-- A letter is a capital or a small one of ASCII. -/
theorem isAlpha_iff : c.isAlpha = true ↔
    0x41 ≤ c.toNat ∧ c.toNat ≤ 0x5A ∨ 0x61 ≤ c.toNat ∧ c.toNat ≤ 0x7A :=
  Bool.or_eq_true_iff.trans (or_congr isUpper_iff isLower_iff)

/-- A small letter has the capital that stands 32 places before it. -/
theorem toNat_toUpper (c : Char) : c.toUpper.toNat =
    if 0x61 ≤ c.toNat ∧ c.toNat ≤ 0x7A then c.toNat - 0x20 else c.toNat := by
  by_cases h : 0x61 ≤ c.toNat ∧ c.toNat ≤ 0x7A
  · have hcapital : c.toUpper = ⟨c.val + ('A'.val - 'a'.val), _⟩ := dif_pos h
    have hback : ('A'.val - 'a'.val).toNat = 2 ^ 32 - 0x20 := by decide
    rw [if_pos h, hcapital, Char.toNat_mk, UInt32.toNat_add, Char.toNat_val, hback]
    omega
  · have hself : c.toUpper = c := dif_neg h
    rw [if_neg h, hself]

theorem toNat_toLower (c : Char) : c.toLower.toNat =
    if 0x41 ≤ c.toNat ∧ c.toNat ≤ 0x5A then c.toNat + 0x20 else c.toNat := by
  by_cases h : 0x41 ≤ c.toNat ∧ c.toNat ≤ 0x5A
  · have hsmall : c.toLower = ⟨c.val + ('a'.val - 'A'.val), _⟩ := dif_pos h
    have hforth : ('a'.val - 'A'.val).toNat = 0x20 := by decide
    rw [if_pos h, hsmall, Char.toNat_mk, UInt32.toNat_add, Char.toNat_val, hforth]
    omega
  · have hself : c.toLower = c := dif_neg h
    rw [if_neg h, hself]

/-- What is no small letter is its own capital. -/
theorem toUpper_eq_self (h : ¬(0x61 ≤ c.toNat ∧ c.toNat ≤ 0x7A)) : c.toUpper = c := by
  rw [← Char.toNat_inj, toNat_toUpper, if_neg h]

theorem toLower_eq_self (h : ¬(0x41 ≤ c.toNat ∧ c.toNat ≤ 0x5A)) : c.toLower = c := by
  rw [← Char.toNat_inj, toNat_toLower, if_neg h]

/-- A character is its capital or the small letter of that. -/
theorem eq_or_eq_of_toUpper_eq {x : Char} (h : c.toUpper = x) : c = x ∨ c = x.toLower := by
  by_cases hsmall : 0x61 ≤ c.toNat ∧ c.toNat ≤ 0x7A
  · refine .inr ?_
    rw [← h, ← Char.toNat_inj, toNat_toLower, toNat_toUpper, if_pos hsmall, if_pos (by omega)]
    omega
  · exact .inl ((toUpper_eq_self hsmall).symm.trans h)

end WordMachine.Text
