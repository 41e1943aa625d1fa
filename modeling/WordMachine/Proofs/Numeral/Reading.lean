import Mathlib.Data.List.Induction
import Mathlib.Tactic.Common
import WordMachine.Proofs.Numeral.Grammar

/-!
# What is read as a number

Nothing is read as a number that is none. A character that is read as a digit is that digit
(`digit?_eq_some_iff`), and digits are read as the number that they write, one digit after the other
(`magnitude?_eq_some_iff`). So a token is read as a number exactly if it is one of the grammar,
space around it aside, and below the bound of literals (`literal?_eq_some_iff`).
-/

namespace WordMachine.Numeral

variable {b d n : Nat} {i : Int} {c : Char} {cs : List Char} {token : String}

/-! ## Digits -/

/-- A character counted from the first one of its range. -/
theorem eq_ofNat_add {first : Nat} (h : first ≤ c.toNat) :
    c = Char.ofNat (first + (c.toNat - first)) := by
  rw [Nat.add_sub_cancel' h, Char.ofNat_toNat]

theorem IsDigit.of_digit? (h : digit? b c = some d) : IsDigit b d c := by
  have hten : ∀ k < 10, Char.ofNat (0x30 + k) = k.digitChar := by decide
  have hsmall : ∀ k < 6, Char.ofNat (0x61 + k) = (k + 10).digitChar := by decide
  have hcapital : ∀ k < 6, Char.ofNat (0x41 + k) = (k + 10).digitChar.toUpper := by decide
  rw [digit?, Option.filter_eq_some_iff, decide_eq_true_eq] at h
  obtain ⟨hvalue, hd⟩ := h
  refine ⟨hd, ?_⟩
  simp only [Bool.and_eq_true, decide_eq_true_eq] at hvalue
  split at hvalue
  · next hdigit =>
    have hlow : 0x30 ≤ c.toNat := (Char.isDigit_iff_toNat.1 hdigit).1
    have hhigh : c.toNat ≤ 0x39 := (Char.isDigit_iff_toNat.1 hdigit).2
    obtain rfl := Option.some.inj hvalue
    exact .inl ((eq_ofNat_add hlow).trans (hten (c.toNat - 0x30) (by omega)))
  · split at hvalue
    · next hrange =>
      have hlow : 0x61 ≤ c.toNat := UInt32.le_iff_toNat_le.1 hrange.1
      have hhigh : c.toNat ≤ 0x66 := UInt32.le_iff_toNat_le.1 hrange.2
      obtain rfl := Option.some.inj hvalue
      exact .inl ((eq_ofNat_add hlow).trans (hsmall (c.toNat - 0x61) (by omega)))
    · split at hvalue
      · next hrange =>
        have hlow : 0x41 ≤ c.toNat := UInt32.le_iff_toNat_le.1 hrange.1
        have hhigh : c.toNat ≤ 0x46 := UInt32.le_iff_toNat_le.1 hrange.2
        obtain rfl := Option.some.inj hvalue
        exact .inr ((eq_ofNat_add hlow).trans (hcapital (c.toNat - 0x41) (by omega)))
      · cases hvalue

/-- A character is read as a digit exactly if it is that digit. -/
theorem digit?_eq_some_iff (hb : b ≤ 16) : digit? b c = some d ↔ IsDigit b d c :=
  ⟨.of_digit?, fun h => h.digit?_eq hb⟩

/-! ## Runs of digits -/

theorem IsMagnitude.ne_nil (h : IsMagnitude b cs n) : cs ≠ [] := by
  cases h <;> simp

/-- The last digit of a run, and what the digits in front of it are. -/
theorem isMagnitude_append_singleton_iff :
    IsMagnitude b (cs ++ [c]) n ↔ ∃ d, IsDigit b d c ∧
      (cs = [] ∧ n = d ∨ ∃ m, IsMagnitude b cs m ∧ n = b * m + d) := by
  constructor
  · generalize htext : cs ++ [c] = text
    rintro (hd | ⟨hcs, hd⟩)
    · obtain ⟨rfl, hc⟩ := List.append_inj' (htext.trans (List.nil_append _).symm) rfl
      obtain rfl := List.singleton_inj.1 hc
      exact ⟨_, hd, .inl ⟨rfl, rfl⟩⟩
    · obtain ⟨rfl, hc⟩ := List.append_inj' htext rfl
      obtain rfl := List.singleton_inj.1 hc
      exact ⟨_, hd, .inr ⟨_, hcs, rfl⟩⟩
  · rintro ⟨d, hd, ⟨rfl, rfl⟩ | ⟨m, hm, rfl⟩⟩
    · exact .one hd
    · exact .more hm hd

theorem magnitude?_append_singleton_eq_some_iff :
    magnitude? b (cs ++ [c]) = some n ↔ ∃ d, digit? b c = some d ∧
      (cs = [] ∧ n = d ∨ ∃ m, magnitude? b cs = some m ∧ n = b * m + d) := by
  constructor
  · intro h
    rw [magnitude?, if_neg (by simp), Option.map_eq_some_iff] at h
    obtain ⟨all, hall, rfl⟩ := h
    simp only [List.mapM_append, List.mapM_cons, List.mapM_nil, Option.bind_eq_bind,
      Option.bind_eq_some_iff, Option.pure_def, Option.some.injEq, exists_eq_left'] at hall
    obtain ⟨ds, hds, _, ⟨d, hd, rfl⟩, rfl⟩ := hall
    refine ⟨d, hd, ?_⟩
    rw [List.foldl_append]
    by_cases hcs : cs = []
    · subst hcs
      obtain rfl := Option.some.inj hds
      exact .inl ⟨rfl, by simp⟩
    · exact .inr ⟨_, by rw [magnitude?, if_neg (by simpa using hcs), hds]; rfl, rfl⟩
  · rintro ⟨d, hd, ⟨rfl, rfl⟩ | ⟨m, hm, rfl⟩⟩
    · exact magnitude?_singleton hd
    · exact magnitude?_append_digit hm hd

/-- Characters are read as a number exactly if they are its digits. -/
theorem magnitude?_eq_some_iff (hb : b ≤ 16) : magnitude? b cs = some n ↔ IsMagnitude b cs n := by
  induction cs using List.reverseRecOn generalizing n with
  | nil => exact ⟨nofun, fun h => absurd rfl h.ne_nil⟩
  | append_singleton cs c ih =>
    simp only [magnitude?_append_singleton_eq_some_iff, isMagnitude_append_singleton_iff,
      digit?_eq_some_iff hb, ih]

/-- Digits write one number. -/
theorem IsMagnitude.unique {m : Nat} (hb : b ≤ 16) (h : IsMagnitude b cs m)
    (h' : IsMagnitude b cs n) : m = n :=
  Option.some.inj ((h.magnitude?_eq hb).symm.trans (h'.magnitude?_eq hb))

/-! ## Literals -/

theorem IsUnsigned.of_unsignedLiteral? (h : unsignedLiteral? cs = some n) : IsUnsigned cs n := by
  have hmarked : ∀ mark ∈ ["0x", "0X", "$"], ∀ digits, magnitude? 16 digits = some n →
      IsUnsigned (mark.toList ++ digits) n := fun mark hmark digits h =>
    .sixteen hmark ((magnitude?_eq_some_iff (by decide)).1 h)
  rw [unsignedLiteral?.eq_def] at h
  split at h
  · exact hmarked "0x" (by decide) _ h
  · exact hmarked "0X" (by decide) _ h
  · exact hmarked "$" (by decide) _ h
  · exact .ten ((magnitude?_eq_some_iff (by decide)).1 h)

/-- What is read is below the bound of literals. -/
theorem IsSigned.of_signedLiteral? (h : signedLiteral? cs = some i) :
    IsSigned cs i ∧ i.natAbs < magnitudeBound := by
  have hunsigned {cs : List Char} {f : Nat → Int}
      (h : ((unsignedLiteral? cs).filter (· < magnitudeBound)).map f = some i) :
      ∃ n, IsUnsigned cs n ∧ n < magnitudeBound ∧ f n = i := by
    simp only [Option.map_eq_some_iff, Option.filter_eq_some_iff, decide_eq_true_eq] at h
    obtain ⟨n, ⟨hn, hbound⟩, hi⟩ := h
    exact ⟨n, .of_unsignedLiteral? hn, hbound, hi⟩
  rw [signedLiteral?.eq_def] at h
  split at h
  · obtain ⟨n, hn, hbound, rfl⟩ := hunsigned ((signedLiteral?_minus _).symm.trans h)
    exact ⟨.minus hn, by rwa [Int.natAbs_neg]⟩
  · obtain ⟨n, hn, hbound, rfl⟩ := hunsigned h
    exact ⟨.plus hn, hbound⟩
  · obtain ⟨n, hn, hbound, rfl⟩ := hunsigned h
    exact ⟨.bare hn, hbound⟩

/-- Space around a literal makes no difference. -/
theorem literal?_trim (token : String) :
    literal? (String.ofList (Text.trim token.toList)) = literal? token := by
  rw [literal?, literal?, String.toList_ofList, Text.trim_trim]

/-- A token is read as a number exactly if it is that number, space around it aside, and the
    number is below the bound of literals. -/
theorem literal?_eq_some_iff :
    literal? token = some i ↔
      IsNumber (String.ofList (Text.trim token.toList)) i ∧ i.natAbs < magnitudeBound := by
  constructor
  · intro h
    rw [literal?] at h
    split at h
    · next rest htrim =>
      obtain ⟨hsigned, hbound⟩ := IsSigned.of_signedLiteral? h
      exact ⟨⟨rest, hsigned, .inr (String.toList_ofList.trans htrim)⟩, hbound⟩
    · obtain ⟨hsigned, hbound⟩ := IsSigned.of_signedLiteral? h
      exact ⟨⟨_, hsigned, .inl String.toList_ofList⟩, hbound⟩
  · rintro ⟨hnumber, hbound⟩
    rw [← literal?_trim, hnumber.literal?_eq, if_pos hbound]

end WordMachine.Numeral
