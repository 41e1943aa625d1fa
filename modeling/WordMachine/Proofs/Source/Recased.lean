import WordMachine.Instruction.Mnemonic
import WordMachine.Proofs.Numeral.Written
import WordMachine.Proofs.Text.Recased
import WordMachine.Register
import WordMachine.Source.Statement

/-!
# Tokens in one letter case

A token that is written in one letter case is the same number (`Numeral.literal?_map_char`),
register (`Register.ofName?_map_char`) and mnemonic (`Mnemonic.find?_map_char`) as before, and can
be the name of a label if it could before (`Statement.isName_map_char`). The letters in front of
some numbers and registers are read in either case, one by one; what is read of them is therefore
first told in terms of capitals alone (`Numeral.unsignedLiteral?_eq`, `Register.looksNumbered_eq`).
-/

namespace WordMachine

/-! ## Numbers -/

namespace Numeral

variable {b : Nat} {cs : List Char}

theorem isDigit_of_isAlpha {c : Char} (h : c.isAlpha = true) : c.isDigit = false := by
  have hrange := Text.isAlpha_iff.1 h
  rw [← Bool.not_eq_true, Char.isDigit_iff_toNat]
  simp only [Char.reduceToNat]
  omega

theorem digit?_toUpper (b : Nat) (c : Char) : digit? b c.toUpper = digit? b c := by
  by_cases h : 0x61 ≤ c.toNat ∧ c.toNat ≤ 0x7A
  · have hcapital : c.toUpper.toNat = c.toNat - 0x20 := (Text.toNat_toUpper c).trans (if_pos h)
    have hdigit := isDigit_of_isAlpha (Text.isAlpha_iff.2 (.inr h))
    have hdigit' : c.toUpper.isDigit = false :=
      isDigit_of_isAlpha (Text.isAlpha_iff.2 (.inl (by omega)))
    simp only [digit?, hdigit, hdigit', Char.le_def, UInt32.le_iff_toNat_le, Char.toNat_val,
      hcapital, Char.reduceToNat, Bool.and_eq_true, decide_eq_true_eq, Bool.false_eq_true, if_false]
    congr 1
    by_cases hhex : c.toNat ≤ 0x66
    · rw [if_neg (by omega), if_pos (by omega), if_pos (by omega)]
      exact congrArg some (by omega)
    · rw [if_neg (by omega), if_neg (by omega), if_neg (by omega), if_neg (by omega)]
  · rw [Text.toUpper_eq_self h]

/-- What stands in front of the digits of a literal, letter case aside. -/
theorem unsignedLiteral?_eq (cs : List Char) :
    unsignedLiteral? cs =
      if Text.upper (cs.take 2) = ['0', 'X'] then magnitude? 16 (cs.drop 2)
      else if cs.head? = some '$' then magnitude? 16 cs.tail
      else magnitude? 10 cs := by
  rw [unsignedLiteral?.eq_def]
  split
  · rfl
  · rfl
  · rw [if_neg]
    · rfl
    · exact fun hmark => absurd (List.head_eq_of_cons_eq hmark) (by decide)
  · next hsmall hcapital hdollar =>
    rw [if_neg, if_neg]
    · intro hhead
      obtain ⟨rest, rfl⟩ := List.head?_eq_some_iff.1 hhead
      exact hdollar rest rfl
    · intro hmark
      rcases cs with _ | ⟨c, _ | ⟨d, rest⟩⟩
      · cases hmark
      · exact absurd (congrArg List.length hmark) (by simp [Text.upper])
      · obtain ⟨hc, hd⟩ : c.toUpper = '0' ∧ d.toUpper = 'X' := by simpa [Text.upper] using hmark
        obtain rfl : c = '0' := (Text.eq_or_eq_of_toUpper_eq hc).elim id id
        rcases Text.eq_or_eq_of_toUpper_eq hd with rfl | rfl
        · exact hcapital rest rfl
        · exact hsmall rest rfl

section Case

variable (k : Text.Case) (cs : List Char)

theorem isDigit_comp_char : Char.isDigit ∘ k.char = Char.isDigit :=
  k.comp_char_eq_self fun _ => isDigit_of_isAlpha

theorem digit?_char (c : Char) : digit? b (k.char c) = digit? b c := by
  rw [← digit?_toUpper, k.toUpper_char, digit?_toUpper]

theorem magnitude?_map_char : magnitude? b (cs.map k.char) = magnitude? b cs := by
  have hdigits : digit? b ∘ k.char = digit? b := funext (digit?_char k)
  rw [magnitude?, magnitude?, List.mapM_map, hdigits, List.isEmpty_map]

theorem unsignedLiteral?_map_char : unsignedLiteral? (cs.map k.char) = unsignedLiteral? cs := by
  have hdollar : (cs.map k.char).head? = some '$' ↔ cs.head? = some '$' :=
    k.head?_map_char_iff (by decide)
  rw [unsignedLiteral?_eq, unsignedLiteral?_eq, ← List.map_take, k.upper_map_char, ← List.map_drop,
    ← List.map_tail]
  simp only [hdollar, magnitude?_map_char]

theorem signedLiteral?_map_char : signedLiteral? (cs.map k.char) = signedLiteral? cs := by
  have hsign : ∀ x, x.isAlpha = false → ∀ rest,
      (x :: rest).map k.char = x :: rest.map k.char := fun x hx rest => by
    rw [List.map_cons, k.char_eq_self hx]
  by_cases hminus : cs.head? = some '-'
  · obtain ⟨rest, rfl⟩ := List.head?_eq_some_iff.1 hminus
    rw [hsign '-' (by decide), signedLiteral?_minus, signedLiteral?_minus,
      unsignedLiteral?_map_char]
  by_cases hplus : cs.head? = some '+'
  · obtain ⟨rest, rfl⟩ := List.head?_eq_some_iff.1 hplus
    rw [hsign '+' (by decide)]
    simp only [signedLiteral?, unsignedLiteral?_map_char]
  rw [signedLiteral?_of_head hminus hplus, signedLiteral?_of_head, unsignedLiteral?_map_char]
  · rwa [Ne, k.head?_map_char_iff (by decide)]
  · rwa [Ne, k.head?_map_char_iff (by decide)]

theorem literal?_map_char (token : String) : literal? (token.map k.char) = literal? token := by
  have htrim : Text.trim (token.map k.char).toList = (Text.trim token.toList).map k.char := by
    rw [String.toList_map, k.trim_map_char]
  by_cases hhash : (Text.trim token.toList).head? = some '#'
  · obtain ⟨rest, hrest⟩ := List.head?_eq_some_iff.1 hhash
    rw [hrest, List.map_cons, k.char_eq_self (by decide)] at htrim
    rw [literal?, literal?, htrim, hrest]
    exact signedLiteral?_map_char k rest
  · rw [literal?_of_head rfl hhash, literal?_of_head htrim, signedLiteral?_map_char]
    rwa [Ne, k.head?_map_char_iff (by decide)]

/-- A written number has no letters. -/
theorem integer_map_char (i : Int) : (integer i).map k.char = integer i := by
  have hnatural : ∀ n, (natural n).toList.map k.char = (natural n).toList := by
    intro n
    rw [natural, String.toList_ofList]
    refine (List.map_congr_left fun c hc => k.char_eq_self ?_).trans (List.map_id _)
    have hdigit := isDigit_of_mem_toDigits hc
    cases halpha : c.isAlpha with
    | false => rfl
    | true => rw [isDigit_of_isAlpha halpha] at hdigit; cases hdigit
  rw [← String.toList_inj, String.toList_map, integer]
  split
  · have hsign : "-".toList.map k.char = "-".toList :=
      congrArg (fun c => [c]) (k.char_eq_self (show '-'.isAlpha = false by decide))
    rw [String.toList_append, List.map_append, hnatural, hsign]
  · exact hnatural _

end Case

end Numeral

/-! ## Registers, mnemonics and names -/

section Tokens

variable (k : Text.Case) (token : String)

theorem Register.ofName?_map_char : ofName? (token.map k.char) = ofName? token := by
  rw [ofName?, ofName?, String.toList_map, k.trim_map_char, k.upper_map_char]

theorem Mnemonic.find?_map_char : find? (token.map k.char) = find? token := by
  rw [find?, find?, String.toList_map, k.upper_map_char]

theorem Statement.isName_map_char (cs : List Char) : isName (cs.map k.char) = isName cs := by
  have hmark : ∀ x, x.isAlpha = false → ∀ c, (k.char c == x) = (c == x) := fun x hx c =>
    congrFun (k.beq_comp_char hx) c
  have hdigit : ∀ c, (k.char c).isDigit = c.isDigit := congrFun (Numeral.isDigit_comp_char k)
  have hstarts : ∀ c, startsName (k.char c) = startsName c := fun c => by
    rw [startsName, startsName, k.isAlpha_char, hmark '_' (by decide), hmark '.' (by decide)]
  have hcontinues : continuesName ∘ k.char = continuesName := funext fun c => by
    rw [Function.comp_apply, continuesName, continuesName, Char.isAlphanum, Char.isAlphanum,
      k.isAlpha_char, hdigit, hmark '_' (by decide), hmark '.' (by decide)]
  cases cs with
  | nil => rfl
  | cons c rest => rw [List.map_cons, isName, isName, hstarts, List.all_map, hcontinues]

/-- A token that is meant as a register starts with the letter of one, in either case. -/
theorem Register.looksNumbered_eq :
    looksNumbered token =
      match Text.trim token.toList with
      | c :: digits => c.toUpper == 'R' && (!digits.isEmpty && digits.all Char.isDigit)
      | [] => false := by
  rw [looksNumbered]
  split
  · next htrim => rw [htrim]; rfl
  · next htrim => rw [htrim]; rfl
  · next hcapital hsmall =>
    cases htrim : Text.trim token.toList with
    | nil => rfl
    | cons c digits =>
      have hc : c.toUpper ≠ 'R' := by
        intro h
        rcases Text.eq_or_eq_of_toUpper_eq h with rfl | rfl
        · exact hcapital digits htrim
        · exact hsmall digits htrim
      simp [hc]

theorem Register.looksNumbered_map_char :
    looksNumbered (token.map k.char) = looksNumbered token := by
  have hdigit : Char.isDigit ∘ k.char = Char.isDigit := Numeral.isDigit_comp_char k
  rw [looksNumbered_eq, looksNumbered_eq, String.toList_map, k.trim_map_char]
  cases Text.trim token.toList with
  | nil => rfl
  | cons c digits =>
    simp only [List.map_cons, k.toUpper_char, List.isEmpty_map, List.all_map, hdigit]

end Tokens

end WordMachine
