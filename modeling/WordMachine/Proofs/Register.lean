import WordMachine.Proofs.Numeral.Reading
import WordMachine.Proofs.Numeral.Written
import WordMachine.Proofs.Text.Case
import WordMachine.Register

/-!
# The names of registers

A register is found by the name that it is written with (`ofName?_name`). All the names that it is
found by are its role, if it has one, and its number with any zeros in front (`IsNamed`,
`ofName?_eq_some_iff`). No token names a register, or is meant to, and is a number as well
(`literal?_of_ofName?`, `literal?_of_looksNumbered`).
-/

namespace WordMachine.Register

open Numeral (IsMagnitude)

variable {token : String} {text digits : List Char} {r s : Register} {c : Char}

/-- A register is found by its name. -/
theorem ofName?_name (r : Register) : ofName? r.name = some r := by
  have hall : ∀ i : Fin 16, ofName? (name ⟨i⟩) = some ⟨i⟩ := by decide
  exact hall r.index

/-! ## The grammar of names -/

/-- The roles that registers are called by, each with the number of the register. -/
def roles : List (String × Nat) := [("FP", 12), ("SP", 13), ("LR", 14), ("PC", 15)]

/-- The text, in capitals, is a name of the register: its role, or `R` and its number in base ten,
    with zeros in front or not. -/
def IsNamed (text : List Char) (r : Register) : Prop :=
  (∃ role, (role, r.index.val) ∈ roles ∧ text = role.toList) ∨
    ∃ digits, text = 'R' :: digits ∧ IsMagnitude 10 digits r.index

theorem isNamed_name (r : Register) : IsNamed r.name.toList r := by
  have hnumber : ∀ i : Fin 16, i.val < 12 → (name ⟨i⟩).toList = 'R' :: Nat.toDigits 10 i := by
    decide
  have hrole : ∀ i : Fin 16, ¬i.val < 12 → (name ⟨i⟩, i.val) ∈ roles := by decide
  by_cases h : r.index.val < 12
  · exact .inr ⟨_, hnumber r.index h, .toDigits (by decide) _⟩
  · exact .inl ⟨_, hrole r.index h, rfl⟩

theorem isNamed_of_ofNumber? (h : ofNumber? text = some r) : IsNamed text r := by
  rw [ofNumber?.eq_def] at h
  split at h
  · next digits =>
    obtain ⟨n, hn, hindex⟩ := Option.bind_eq_some_iff.1 h
    rw [ofIndex?] at hindex
    split at hindex
    · obtain rfl := Option.some.inj hindex
      exact .inr ⟨digits, rfl, (Numeral.magnitude?_eq_some_iff (by decide)).1 hn⟩
    · cases hindex
  · cases h

theorem ofNumber?_of_isMagnitude (h : IsMagnitude 10 digits r.index) :
    ofNumber? ('R' :: digits) = some r := by
  rw [ofNumber?, h.magnitude?_eq (by decide), Option.bind_some, ofIndex?, dif_pos r.index_lt]

theorem mem_all (r : Register) : r ∈ all := List.mem_map_of_mem (List.mem_finRange r.index)

/-- A text is a name of no more than one register. -/
theorem IsNamed.unique (h : IsNamed text r) (h' : IsNamed text s) : r = s := by
  have hroles : ∀ p ∈ roles, ∀ q ∈ roles, p.1.toList = q.1.toList → p.2 = q.2 := by decide
  have hhead : ∀ p ∈ roles, p.1.toList.head? ≠ some 'R' := by decide
  have hindex : r.index.val = s.index.val := by
    rcases h with ⟨role, hrole, rfl⟩ | ⟨digits, rfl, hn⟩
    · rcases h' with ⟨role', hrole', heq⟩ | ⟨digits, heq, -⟩
      · exact hroles _ hrole _ hrole' heq
      · exact absurd (by rw [heq]; rfl) (hhead _ hrole)
    · rcases h' with ⟨role, hrole, heq⟩ | ⟨digits', heq, hn'⟩
      · exact absurd (by rw [← heq]; rfl) (hhead _ hrole)
      · obtain rfl := (List.cons.inj heq).2
        exact hn.unique (by decide) hn'
  cases r
  cases s
  exact congrArg Register.mk (Fin.ext hindex)

theorem isNamed_of_ofName? (h : ofName? token = some r) :
    IsNamed (Text.upper (Text.trim token.toList)) r := by
  rw [ofName?, Option.or_eq_some_iff] at h
  rcases h with h | ⟨-, h⟩
  · have htext : r.name.toList = Text.upper (Text.trim token.toList) := by
      simpa using List.find?_some h
    exact htext ▸ isNamed_name r
  · exact isNamed_of_ofNumber? h

theorem exists_ofName?_of_isNamed (h : IsNamed (Text.upper (Text.trim token.toList)) r) :
    ∃ s, ofName? token = some s := by
  have hname : ∀ i : Fin 16, ∀ p ∈ roles, p.2 = i.val → name ⟨i⟩ = p.1 := by decide
  refine Option.isSome_iff_exists.1 ?_
  rw [ofName?, Option.isSome_or, Bool.or_eq_true, List.find?_isSome]
  rcases h with ⟨role, hrole, htext⟩ | ⟨digits, htext, hn⟩
  · have hrole : r.name = role := hname r.index _ hrole rfl
    exact .inl ⟨r, mem_all r, by rw [htext, hrole, beq_self_eq_true]⟩
  · exact .inr (by rw [htext, ofNumber?_of_isMagnitude hn]; rfl)

/-- A token is read as a register exactly if it is a name of it, space around it and letter case
    aside. -/
theorem ofName?_eq_some_iff :
    ofName? token = some r ↔ IsNamed (Text.upper (Text.trim token.toList)) r := by
  refine ⟨isNamed_of_ofName?, fun h => ?_⟩
  -- Whatever register is found for a name is the one that it is a name of.
  obtain ⟨s, hs⟩ := exists_ofName?_of_isNamed h
  rw [hs, (isNamed_of_ofName? hs).unique h]

/-! ## Registers are no numbers -/

theorem startsLiteral_of_head?_upper {cs : List Char} {d : Char}
    (h : (Text.upper cs).head? = some d) (hd : Numeral.startsLiteral d = false) :
    ∀ c ∈ cs.head?, Numeral.startsLiteral c = false := by
  intro c hc
  obtain ⟨rest, rfl⟩ := List.head?_eq_some_iff.1 hc
  by_contra hstarts
  have hlow := Numeral.toNat_of_startsLiteral (Bool.not_eq_false _ ▸ hstarts)
  have hup : c.toUpper = c := Text.toUpper_eq_self (by omega)
  obtain rfl : c.toUpper = d := by simpa [Text.upper] using h
  rw [hup] at hd
  exact hstarts hd

/-- A token that names a register is no number. -/
theorem literal?_of_ofName? (h : ofName? token = some r) : Numeral.literal? token = none := by
  have hnames : ∀ i : Fin 16, (name ⟨i⟩).toList.head?.any (!Numeral.startsLiteral ·) = true := by
    decide
  refine Numeral.literal?_eq_none ?_
  rw [ofName?, Option.or_eq_some_iff] at h
  rcases h with h | ⟨-, h⟩
  · have htext : r.name.toList = Text.upper (Text.trim token.toList) := by
      simpa using List.find?_some h
    obtain ⟨d, hhead, hd⟩ := (Option.any_eq_true _ _).1 (hnames r.index)
    exact startsLiteral_of_head?_upper (by rwa [← htext]) (Bool.not_eq_true' _ ▸ hd)
  · rw [ofNumber?.eq_def] at h
    split at h
    · next htext => exact startsLiteral_of_head?_upper (d := 'R') (by rw [htext]; rfl) (by decide)
    · cases h

/-- An `R` of either case and decimal digits are meant as a register, however many digits they
    are. -/
theorem looksNumbered_of_digits (htoken : token.toList = c :: digits) (hc : c ∈ ['R', 'r'])
    (hdigits : digits ≠ []) (hall : ∀ d ∈ digits, d.isDigit = true) :
    looksNumbered token = true := by
  have hblank : ∀ d ∈ token.toList, Text.isBlank d = false := by
    intro d hd
    rcases List.mem_cons.1 (htoken ▸ hd) with rfl | hd
    · simp only [List.mem_cons, List.not_mem_nil, or_false] at hc
      rcases hc with rfl | rfl <;> rfl
    · have hlow : 0x30 ≤ d.toNat := (Char.isDigit_iff_toNat.1 (hall d hd)).1
      have hhigh : d.toNat ≤ 0x39 := (Char.isDigit_iff_toNat.1 (hall d hd)).2
      exact Text.isBlank_of_visible (by omega) (by omega)
  have hrest : (!digits.isEmpty && digits.all Char.isDigit) = true := by
    simpa [hdigits] using hall
  rw [looksNumbered, Text.trim_of_forall_not_blank hblank, htoken]
  simp only [List.mem_cons, List.not_mem_nil, or_false] at hc
  rcases hc with rfl | rfl
  · exact hrest
  · exact hrest

/-- A token that is meant as a register is no number. -/
theorem literal?_of_looksNumbered (h : looksNumbered token = true) :
    Numeral.literal? token = none := by
  refine Numeral.literal?_eq_none ?_
  rw [looksNumbered] at h
  split at h
  · next hrest =>
    rw [hrest]
    rintro _ ⟨⟩
    decide
  · next hrest =>
    rw [hrest]
    rintro _ ⟨⟩
    decide
  · cases h

end WordMachine.Register
