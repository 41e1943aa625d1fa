import WordMachine.Proofs.Memory
import WordMachine.Proofs.Numeral.Bounded
import WordMachine.Tool.Address

/-!
# Addresses as they are read

An address is read in one of two ways. The first stops at a digit that goes past the last address
(`map_toNat_readAddress_eq_ok_iff`). The second stops far later, and only then asks whether the
number is past the end of memory (`readEnd_eq_ok_iff`). Both take the same texts, for the same
numbers, as far as both have these, and where a piece of memory is asked for, the two addresses on
either side of the first colon are read in the first way (`readPiece_eq_ok_iff`).
-/

namespace WordMachine.Tool

open Numeral (IsMarked)

variable {text : String} {n : Nat}

theorem map_toNat_readAddress_eq_ok_iff :
    (readAddress text).map BitVec.toNat = .ok n ↔
      IsMarked (Text.trim text.toList) n ∧ n ≤ 0xFFFF := by
  have hmarked : Numeral.readMarked Numeral.max16 text = .ok n ↔ _ := Numeral.readMarked_eq_ok_iff
  rw [readAddress]
  refine Iff.trans ?_ hmarked
  split
  · next m hm =>
    have hle : m ≤ 0xFFFF := (Numeral.readMarked_eq_ok_iff.1 hm).2
    rw [hm, Except.ok.injEq, Except.map, Except.ok.injEq, Memory.toNat_ofNat_of_lt (by omega)]
  · next fault hfault =>
    rw [hfault]
    exact iff_of_false nofun nofun

theorem readEnd_eq_ok_iff :
    readEnd text = .ok n ↔ IsMarked (Text.trim text.toList) n ∧ n ≤ 0x10000 := by
  rw [readEnd]
  constructor
  · intro h
    split at h
    · next m hm =>
      obtain ⟨hle, rfl⟩ := Except.ite_eq_ok_iff.1 h
      exact ⟨(Numeral.readMarked_eq_ok_iff.1 hm).1, hle⟩
    · cases h
  · rintro ⟨hn, hle⟩
    -- The bound of the reader is above that of memory, so that it is the check that decides.
    have hbound : n ≤ Numeral.max32 := Nat.le_trans hle (by decide)
    rw [Numeral.readMarked_eq_ok_iff.2 ⟨hn, hbound⟩]
    exact if_pos hle

/-- A piece of memory is two addresses on either side of the first colon. -/
theorem readPiece_eq_ok_iff {start : Word} {length : Nat} :
    readPiece text = .ok (start, length) ↔ ∃ before behind : List Char,
      text.toList = before ++ ':' :: behind ∧ ':' ∉ before ∧
        readAddress (String.ofList before) = .ok start ∧
        (readAddress (String.ofList behind)).map BitVec.toNat = .ok length := by
  simp only [readPiece]
  constructor
  · intro h
    split at h
    · cases h
    · next c behind hdrop =>
      obtain rfl : c = ':' := by
        have hhead := List.head?_dropWhile_not (· != ':') text.toList
        rw [hdrop] at hhead
        simpa using hhead
      simp only [Except.bind_eq_ok_iff, Except.ok.injEq, Prod.mk.injEq] at h
      obtain ⟨_, hstart, w, hlength, rfl, rfl⟩ := h
      refine ⟨_, behind, ?_, fun hmem => ?_, hstart, by rw [hlength]; rfl⟩
      · rw [← hdrop, List.takeWhile_append_dropWhile]
      · simpa using List.mem_takeWhile_imp hmem
  · rintro ⟨before, behind, htext, hcolon, hstart, hlength⟩
    have hbefore : ∀ c ∈ before, (c != ':') = true := by
      intro c hc
      rw [bne_iff_ne]
      rintro rfl
      exact hcolon hc
    obtain ⟨w, hw, rfl⟩ := Except.map_eq_ok_iff.1 hlength
    rw [htext, List.takeWhile_append_of_pos hbefore, List.dropWhile_append_of_pos hbefore]
    simp [hstart, hw]

/-- Both readers of addresses take a text for the number that it is, space around it aside: the one
    up to the last address and the other up to the end of memory. So the first takes exactly the
    texts that the second takes for a number below the end, and for the same number. A piece of
    memory is read where both of its parts are addresses for the first. -/
theorem read_addresses_iff_isMarked (text : String) :
    (∀ n, readEnd text = .ok n ↔ IsMarked (Text.trim text.toList) n ∧ n ≤ 0x10000) ∧
    (∀ n, (readAddress text).map BitVec.toNat = .ok n ↔
      IsMarked (Text.trim text.toList) n ∧ n ≤ 0xFFFF) ∧
    (∀ n, (readAddress text).map BitVec.toNat = .ok n ↔ readEnd text = .ok n ∧ n < 0x10000) ∧
    (∀ (start : Word) (length : Nat), readPiece text = .ok (start, length) ↔
      ∃ before behind : List Char, text.toList = before ++ ':' :: behind ∧ ':' ∉ before ∧
        readAddress (String.ofList before) = .ok start ∧
        (readAddress (String.ofList behind)).map BitVec.toNat = .ok length) := by
  refine ⟨fun n => readEnd_eq_ok_iff, fun n => map_toNat_readAddress_eq_ok_iff, fun n => ?_,
    fun start length => readPiece_eq_ok_iff⟩
  rw [map_toNat_readAddress_eq_ok_iff, readEnd_eq_ok_iff, and_assoc]
  refine and_congr_right fun _ => ?_
  omega

end WordMachine.Tool
