import Mathlib.Tactic.Common
import WordMachine.Memory

/-!
# Reading what was written

A memory is known by what is read at every address (`Memory.ext_read`). Words written one after
another are read at the addresses from the first one on, and nothing else changes
(`Memory.read_writeFrom`); a slice of them is these words (`Memory.slice_writeFrom`).
-/

namespace WordMachine.Memory

variable (m : Memory) (a b w : Word) (start : Nat) (ws : List Word)

/-! ## Reading -/

theorem read_eq_getElem (h : a.toNat < 0x10000) : m.read a = m.cells[a.toNat] := rfl

@[simp] theorem read_filled : (filled w).read a = w := by
  rw [read_eq_getElem _ a a.isLt]
  simp [filled]

/-- A word is read where it was written, and everywhere else what was there before. -/
theorem read_write : (m.write a w).read b = if b = a then w else m.read b := by
  rw [read_eq_getElem _ b b.isLt, read_eq_getElem _ b b.isLt]
  simp only [write, Vector.getElem_set]
  by_cases h : b = a
  · rw [if_pos h, if_pos (congrArg BitVec.toNat h.symm)]
  · have hne : a.toNat ≠ b.toNat := fun heq => h (BitVec.toNat_inj.1 heq.symm)
    rw [if_neg h, if_neg hne]

theorem toNat_ofNat_of_lt {n : Nat} (h : n < 0x10000) : (BitVec.ofNat 16 n).toNat = n := by
  rw [BitVec.toNat_ofNat]
  exact Nat.mod_eq_of_lt h

variable {a} in
theorem toNat_add_ofNat_of_lt {n : Nat} (h : a.toNat + n < 0x10000) :
    (a + BitVec.ofNat 16 n).toNat = a.toNat + n := by
  rw [BitVec.toNat_add, BitVec.toNat_ofNat]
  omega

variable {m} in
/-- Memories in which the same is read everywhere are the same. -/
theorem ext_read {m' : Memory} (h : ∀ a, m.read a = m'.read a) : m = m' := by
  obtain ⟨cells⟩ := m
  obtain ⟨cells'⟩ := m'
  congr
  refine Vector.ext fun i hi => ?_
  have hread := h (BitVec.ofNat 16 i)
  rw [read_eq_getElem _ _ (BitVec.isLt _), read_eq_getElem _ _ (BitVec.isLt _)] at hread
  simpa [toNat_ofNat_of_lt hi] using hread

/-! ## Writing one after another -/

/-- Words are written one at a time. -/
theorem writeFrom_cons (h : start < 0x10000) :
    m.writeFrom start (w :: ws) = (m.write (BitVec.ofNat 16 start) w).writeFrom (start + 1) ws := by
  simp only [writeFrom, dif_pos h, write, toNat_ofNat_of_lt h]

/-- Words written one after another are read from the first one's address on. -/
theorem read_writeFrom :
    (m.writeFrom start ws).read a =
      if start ≤ a.toNat then (ws[a.toNat - start]?).getD (m.read a) else m.read a := by
  induction ws generalizing m start with
  | nil => simp [writeFrom]
  | cons w ws ih =>
    have ha : a.toNat < 0x10000 := a.isLt
    by_cases hstart : start < 0x10000
    · have hsame : a = BitVec.ofNat 16 start ↔ a.toNat = start := by
        rw [← BitVec.toNat_inj, toNat_ofNat_of_lt hstart]
      rw [writeFrom_cons m w start ws hstart, ih, read_write]
      simp only [hsame]
      -- Below the first word nothing is written, and above it the other words are.
      rcases Nat.lt_trichotomy a.toNat start with hlt | heq | hgt
      · rw [if_neg (by omega), if_neg (by omega), if_neg (by omega)]
      · rw [if_neg (by omega), if_pos heq, if_pos (by omega), heq, Nat.sub_self]
        rfl
      · have hindex : a.toNat - start = a.toNat - (start + 1) + 1 := by omega
        rw [if_pos (by omega), if_neg (by omega), if_pos (by omega), hindex,
          List.getElem?_cons_succ]
    · rw [writeFrom, dif_neg hstart, if_neg (by omega)]

/-! ## Slices -/

/-- A slice is what is read at its addresses. -/
theorem getElem?_slice (length k : Nat) :
    (m.slice a length)[k]? =
      if k < length ∧ a.toNat + k < 0x10000 then some (m.read (a + BitVec.ofNat 16 k))
      else none := by
  rw [slice, Array.toList_extract, List.extract_eq_take_drop, List.getElem?_take,
    List.getElem?_drop, Nat.add_sub_cancel_left]
  by_cases hk : k < length
  · rw [if_pos hk]
    by_cases hroom : a.toNat + k < 0x10000
    · rw [if_pos ⟨hk, hroom⟩, read_eq_getElem _ _ (BitVec.isLt _)]
      simp [toNat_add_ofNat_of_lt hroom, hroom]
    · rw [if_neg fun hle => hroom hle.2]
      simpa using hroom
  · rw [if_neg hk, if_neg fun hle => hk hle.1]

/-- There is an address for every word of a slice. -/
theorem length_slice_le (length : Nat) : a.toNat + (m.slice a length).length ≤ 0x10000 := by
  have ha : a.toNat < 0x10000 := a.isLt
  have hsize : m.cells.toArray.size = 0x10000 := m.cells.size_toArray
  rw [slice, Array.length_toList, Array.size_extract, hsize]
  omega

/-- A slice of the words written is these words. -/
theorem slice_writeFrom (h : a.toNat + ws.length ≤ 0x10000) :
    (m.writeFrom a.toNat ws).slice a ws.length = ws := by
  refine List.ext_getElem? fun k => ?_
  rw [getElem?_slice]
  by_cases hk : k < ws.length
  · have hroom : a.toNat + k < 0x10000 := by omega
    rw [if_pos ⟨hk, hroom⟩, read_writeFrom, toNat_add_ofNat_of_lt hroom, if_pos (by omega),
      Nat.add_sub_cancel_left, List.getElem?_eq_getElem hk]
    rfl
  · rw [if_neg fun hle => hk hle.1, List.getElem?_eq_none (by omega)]

end WordMachine.Memory
