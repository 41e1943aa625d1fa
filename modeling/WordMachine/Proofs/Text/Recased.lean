import WordMachine.Proofs.Text.Blank
import WordMachine.Proofs.Text.Case
import WordMachine.Text.Line

/-!
# Texts in one letter case

A text is written in capitals or in small letters, character by character (`Case.char`). Only
letters change, to letters with the same capital (`Case.toUpper_char`). So what tells characters
apart without regard to letters tells the same of the text that is written so
(`Case.comp_char_eq_self`): where space is, where lines end, and where tokens do.
-/

namespace WordMachine.Text

/-- One case for the letters of a text. -/
inductive Case where
  | upper
  | lower

namespace Case

/-- A character in the case, if it is a letter. -/
def char : Case → Char → Char
  | upper => Char.toUpper
  | lower => Char.toLower

variable (k : Case) {c x : Char} {cs : List Char} {p : Char → Bool}

/-! ## Characters -/

theorem toUpper_char (c : Char) : (k.char c).toUpper = c.toUpper := by
  cases k with
  | upper =>
    refine toUpper_eq_self ?_
    rw [char, toNat_toUpper]
    split <;> omega
  | lower =>
    rw [char]
    by_cases hcapital : 0x41 ≤ c.toNat ∧ c.toNat ≤ 0x5A
    · -- The small letter of a capital is taken back to it.
      rw [← Char.toNat_inj, toNat_toUpper, toNat_toUpper, toNat_toLower, if_pos hcapital,
        if_pos (by omega), if_neg (by omega)]
      omega
    · rw [toLower_eq_self hcapital]

theorem isAlpha_char (c : Char) : (k.char c).isAlpha = c.isAlpha := by
  rw [Bool.eq_iff_iff, isAlpha_iff, isAlpha_iff]
  cases k with
  | upper =>
    rw [char, toNat_toUpper]
    split <;> omega
  | lower =>
    rw [char, toNat_toLower]
    split <;> omega

/-- What is no letter has no case. -/
theorem char_eq_self (h : c.isAlpha = false) : k.char c = c := by
  rw [← Bool.not_eq_true, isAlpha_iff, not_or] at h
  cases k with
  | upper => exact toUpper_eq_self h.2
  | lower => exact toLower_eq_self h.1

theorem char_eq_iff (hx : x.isAlpha = false) : k.char c = x ↔ c = x := by
  constructor
  · rintro rfl
    exact (k.char_eq_self ((k.isAlpha_char c).symm.trans hx)).symm
  · rintro rfl
    exact k.char_eq_self hx

/-- What is told of no letter is told of a character in either case. -/
theorem comp_char_eq_self (h : ∀ c, c.isAlpha = true → p c = false) : p ∘ k.char = p := by
  funext c
  rw [Function.comp_apply]
  cases hc : c.isAlpha with
  | true => rw [h c hc, h _ ((k.isAlpha_char c).trans hc)]
  | false => rw [k.char_eq_self hc]

theorem isBlank_comp_char : isBlank ∘ k.char = isBlank := by
  refine k.comp_char_eq_self fun c hc => ?_
  have hrange := isAlpha_iff.1 hc
  exact isBlank_of_visible (by omega) (by omega)

theorem beq_comp_char (hx : x.isAlpha = false) : (· == x) ∘ k.char = (· == x) := by
  funext c
  rw [Function.comp_apply, Bool.eq_iff_iff, beq_iff_eq, beq_iff_eq, k.char_eq_iff hx]

theorem not_comp_char (h : p ∘ k.char = p) : (fun c => !p c) ∘ k.char = fun c => !p c :=
  congrArg (fun p c => !p c) h

/-! ## Texts -/

theorem upper_map_char (cs : List Char) : Text.upper (cs.map k.char) = Text.upper cs := by
  rw [Text.upper, Text.upper, List.map_map]
  exact List.map_congr_left fun c _ => k.toUpper_char c

theorem takeWhile_map_char (h : p ∘ k.char = p) :
    (cs.map k.char).takeWhile p = (cs.takeWhile p).map k.char := by
  rw [List.takeWhile_map, h]

theorem dropWhile_map_char (h : p ∘ k.char = p) :
    (cs.map k.char).dropWhile p = (cs.dropWhile p).map k.char := by
  rw [List.dropWhile_map, h]

theorem trim_map_char (cs : List Char) : trim (cs.map k.char) = (trim cs).map k.char := by
  have hstart : ∀ cs, trimStart (cs.map k.char) = (trimStart cs).map k.char := fun _ =>
    k.dropWhile_map_char k.isBlank_comp_char
  rw [trim, trim, hstart, trimEnd, trimEnd, ← List.map_reverse, hstart, List.map_reverse]

theorem splitOnP_map_char (h : p ∘ k.char = p) :
    (cs.map k.char).splitOnP p = (cs.splitOnP p).map (List.map k.char) := by
  induction cs with
  | nil => simp
  | cons c cs ih =>
    have hc : p (k.char c) = p c := congrFun h c
    rw [List.map_cons, List.splitOnP_cons_eq_if_modifyHead, List.splitOnP_cons_eq_if_modifyHead,
      hc, ih]
    split
    · rfl
    · cases cs.splitOnP p <;> rfl

theorem head?_map_char_iff (hx : x.isAlpha = false) :
    (cs.map k.char).head? = some x ↔ cs.head? = some x := by
  rw [List.head?_map, Option.map_eq_some_iff]
  simp only [k.char_eq_iff hx, exists_eq_right]

theorem getLast?_map_char_iff (hx : x.isAlpha = false) :
    (cs.map k.char).getLast? = some x ↔ cs.getLast? = some x := by
  rw [List.getLast?_map, Option.map_eq_some_iff]
  simp only [k.char_eq_iff hx, exists_eq_right]

/-- The lines of a text in one case are its lines in that case. -/
theorem lines_map_char (cs : List Char) :
    lines (cs.map k.char) = (lines cs).map (List.map k.char) := by
  have hreturn : ∀ line : List Char, dropReturn (line.map k.char) =
      (dropReturn line).map k.char := by
    intro line
    simp only [dropReturn, k.getLast?_map_char_iff (show '\r'.isAlpha = false by decide)]
    split
    · exact List.map_dropLast.symm
    · rfl
  have hrest : ∀ last : Option (List Char),
      (last.map (List.map k.char)).filter (fun line => !line.isEmpty) =
        (last.filter fun line => !line.isEmpty).map (List.map k.char) := by
    intro last
    cases last with
    | none => rfl
    | some line => cases line <;> rfl
  have hpieces : (cs.map k.char).splitOnP (· == '\n') =
      (cs.splitOnP (· == '\n')).map (List.map k.char) :=
    k.splitOnP_map_char (k.beq_comp_char (by decide))
  simp only [lines, hpieces, List.getLast?_map, hrest, ← List.map_dropLast, List.map_map,
    List.map_append, Option.toList_map]
  congr 1
  exact List.map_congr_left fun line _ => hreturn line

end Case

end WordMachine.Text
