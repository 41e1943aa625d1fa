import WordMachine.Proofs.Numeral.Grammar

/-!
# Numbers as written

What is written for a number is that number: in base ten, with a sign where it is negative
(`isNumber_natural`, `isNumber_integer`), and in base sixteen behind a mark, with zeros in front
(`isNumber_hexLiteral`). So every integer has a token. It is read back as a literal as long as it is
below the bound of literals (`literal?_integer`, `literal?_hexLiteral`).
-/

namespace WordMachine.Numeral

variable {b n : Nat} {c : Char} {cs : List Char}

/-! ## Runs of digits -/

namespace IsMagnitude

/-- The digits that are written for a number are its digits. -/
theorem toDigits (hb : 1 < b) (n : Nat) : IsMagnitude b (Nat.toDigits b n) n := by
  induction n using Nat.strongRecOn with
  | ind n ih =>
    rw [Nat.toDigits_eq_if hb]
    split
    · next hn => exact .one (isDigit_digitChar hn)
    · next hn =>
      have hdiv : n / b < n := Nat.div_lt_self (by omega) hb
      have hmod : n % b < b := Nat.mod_lt _ (by omega)
      have hmore := IsMagnitude.more (ih _ hdiv) (isDigit_digitChar hmod)
      rwa [Nat.div_add_mod] at hmore

/-- A zero in front of digits. -/
theorem zero_cons (hb : 0 < b) (h : IsMagnitude b cs n) : IsMagnitude b ('0' :: cs) n := by
  induction h with
  | @one c d hd =>
    have hmore := IsMagnitude.more (.one (isDigit_digitChar hb)) hd
    rwa [Nat.mul_zero, Nat.zero_add] at hmore
  | more _ hd ih => exact ih.more hd

theorem leftpad (hb : 0 < b) (h : IsMagnitude b cs n) (width : Nat) :
    IsMagnitude b (cs.leftpad width '0') n := by
  rw [List.leftpad]
  generalize width - cs.length = k
  induction k with
  | zero => exact h
  | succ k ih => exact zero_cons hb ih

end IsMagnitude

/-- The characters of written digits. -/
theorem exists_digitChar_of_mem_toDigits (hb : 1 < b) (h : c ∈ Nat.toDigits b n) :
    ∃ d < b, c = d.digitChar := by
  induction n using Nat.strongRecOn with
  | ind n ih =>
    rw [Nat.toDigits_eq_if hb] at h
    split at h
    · next hn => exact ⟨n, hn, List.mem_singleton.1 h⟩
    · next hn =>
      rcases List.mem_append.1 h with h | h
      · exact ih _ (Nat.div_lt_self (by omega) hb) h
      · exact ⟨n % b, Nat.mod_lt _ (by omega), List.mem_singleton.1 h⟩

theorem isDigit_of_mem_toDigits {n : Nat} (h : c ∈ Nat.toDigits 10 n) : c.isDigit = true :=
  Nat.isDigit_of_mem_toDigits (by decide) (by decide) h

/-! ## Written numbers -/

theorem isUnsigned_toDigits (n : Nat) : IsUnsigned (Nat.toDigits 10 n) n :=
  .ten (.toDigits (by decide) n)

theorem isNumber_natural (n : Nat) : IsNumber (natural n) n :=
  ⟨_, .bare (isUnsigned_toDigits n), .inl String.toList_ofList⟩

theorem isNumber_integer (i : Int) : IsNumber (integer i) i := by
  rw [integer]
  split
  · next hneg =>
    have htoken : ("-" ++ natural i.natAbs).toList = '-' :: Nat.toDigits 10 i.natAbs := by
      simp [natural]
    have hsigned := IsSigned.minus (isUnsigned_toDigits i.natAbs)
    rw [Int.ofNat_natAbs_of_nonpos (Int.le_of_lt hneg), Int.neg_neg] at hsigned
    exact ⟨_, hsigned, .inl htoken⟩
  · next hpos =>
    have hnatural := isNumber_natural i.natAbs
    rwa [Int.natAbs_of_nonneg (Int.not_lt.1 hpos)] at hnatural

theorem isNumber_hexLiteral (n : Nat) : IsNumber (hexLiteral n) n := by
  have hmark : "0x" ∈ ["0x", "0X", "$"] := by decide
  have hdigits := (IsMagnitude.toDigits (b := 16) (by decide) n).leftpad (by decide) 4
  exact ⟨_, .bare (.sixteen hmark hdigits), .inl (by simp [hexLiteral, hex])⟩

/-! ## Written literals -/

theorem literal?_natural (h : n < magnitudeBound) : literal? (natural n) = some (n : Int) := by
  rw [(isNumber_natural n).literal?_eq, Int.natAbs_natCast, if_pos h]

theorem literal?_integer {i : Int} (h : i.natAbs < magnitudeBound) :
    literal? (integer i) = some i := by
  rw [(isNumber_integer i).literal?_eq, if_pos h]

theorem literal?_hexLiteral (h : n < magnitudeBound) :
    literal? (hexLiteral n) = some (n : Int) := by
  rw [(isNumber_hexLiteral n).literal?_eq, Int.natAbs_natCast, if_pos h]

end WordMachine.Numeral
