import Mathlib.Tactic.IntervalCases
import WordMachine.Numeral.Literal
import WordMachine.Proofs.Text.Blank

/-!
# The grammar of numbers

What a number in a source text looks like, said without a reader of numbers: an optional `#`, an
optional sign, and digits of base ten, or those of base sixteen behind a mark (`IsNumber`). There
is no bound on the digits, but the literals have one. A number is read as its value if that is
below the bound, and not at all otherwise (`IsNumber.literal?_eq`). What a literal starts with tells
it from the names of registers and labels (`exists_head_of_literal?`).
-/

namespace WordMachine.Numeral

variable {b d n : Nat} {i : Int} {c : Char} {cs : List Char} {token : String}

/-! ## Tokens -/

/-- The character is the digit `d` of base `b`. The digits above nine are letters, in either
    case. -/
def IsDigit (b d : Nat) (c : Char) : Prop := d < b ∧ (c = d.digitChar ∨ c = d.digitChar.toUpper)

/-- The characters are digits of base `b`, one or more, of which each has `b` times the weight of
    the next. -/
inductive IsMagnitude (b : Nat) : List Char → Nat → Prop
  | one {c : Char} {d : Nat} : IsDigit b d c → IsMagnitude b [c] d
  | more {cs : List Char} {n : Nat} {c : Char} {d : Nat} :
    IsMagnitude b cs n → IsDigit b d c → IsMagnitude b (cs ++ [c]) (b * n + d)

/-- The characters are a number without sign. -/
inductive IsUnsigned : List Char → Nat → Prop
  | ten {cs : List Char} {n : Nat} : IsMagnitude 10 cs n → IsUnsigned cs n
  | sixteen {mark : String} {cs : List Char} {n : Nat} :
    mark ∈ ["0x", "0X", "$"] → IsMagnitude 16 cs n → IsUnsigned (mark.toList ++ cs) n

/-- The characters are a number, with a sign or without. -/
inductive IsSigned : List Char → Int → Prop
  | bare {cs : List Char} {n : Nat} : IsUnsigned cs n → IsSigned cs n
  | plus {cs : List Char} {n : Nat} : IsUnsigned cs n → IsSigned ('+' :: cs) n
  | minus {cs : List Char} {n : Nat} : IsUnsigned cs n → IsSigned ('-' :: cs) (-n)

/-- The token is a number, behind a `#` or not. -/
def IsNumber (token : String) (i : Int) : Prop :=
  ∃ cs, IsSigned cs i ∧ (token.toList = cs ∨ token.toList = '#' :: cs)

/-! ## Digits -/

theorem magnitude?_singleton (h : digit? b c = some d) : magnitude? b [c] = some d := by
  simp [magnitude?, h]

/-- One more digit behind a run of digits. -/
theorem magnitude?_append_digit (h : magnitude? b cs = some n) (hc : digit? b c = some d) :
    magnitude? b (cs ++ [c]) = some (b * n + d) := by
  rw [magnitude?] at h ⊢
  split at h
  · cases h
  · obtain ⟨ds, hds, rfl⟩ := Option.map_eq_some_iff.1 h
    simp [List.mapM_append, hds, hc]

theorem isDigit_digitChar (hd : d < b) : IsDigit b d d.digitChar := ⟨hd, .inl rfl⟩

theorem IsDigit.digit?_eq (h : IsDigit b d c) (hb : b ≤ 16) : digit? b c = some d := by
  obtain ⟨hd, hc⟩ := h
  have h16 : d < 16 := Nat.lt_of_lt_of_le hd hb
  have hvalue : digit? 16 c = some d := by
    rcases hc with rfl | rfl <;> interval_cases d <;> rfl
  rw [digit?, Option.filter_eq_some_iff] at hvalue ⊢
  exact ⟨hvalue.1, by simpa using hd⟩

theorem IsDigit.visible (h : IsDigit b d c) (hb : b ≤ 16) : 0x21 ≤ c.toNat ∧ c.toNat ≤ 0x7E := by
  obtain ⟨hd, hc⟩ := h
  have h16 : d < 16 := Nat.lt_of_lt_of_le hd hb
  rcases hc with rfl | rfl <;> interval_cases d <;> decide

namespace IsMagnitude

theorem magnitude?_eq (h : IsMagnitude b cs n) (hb : b ≤ 16) : magnitude? b cs = some n := by
  induction h with
  | one hc => exact magnitude?_singleton (hc.digit?_eq hb)
  | more _ hc ih => exact magnitude?_append_digit ih (hc.digit?_eq hb)

theorem exists_isDigit (h : IsMagnitude b cs n) (hc : c ∈ cs) : ∃ d, IsDigit b d c := by
  induction h with
  | one hd =>
    obtain rfl := List.mem_singleton.1 hc
    exact ⟨_, hd⟩
  | more _ hd ih =>
    rcases List.mem_append.1 hc with hc | hc
    · exact ih hc
    · obtain rfl := List.mem_singleton.1 hc
      exact ⟨_, hd⟩

end IsMagnitude

/-! ## The parts of a literal

What a literal is, by the character it starts with. -/

theorem literal?_of_head (htrim : Text.trim token.toList = cs)
    (hhash : cs.head? ≠ some '#') : literal? token = signedLiteral? cs := by
  rw [literal?, htrim]
  split
  · exact absurd rfl hhash
  · rfl

theorem signedLiteral?_minus (cs : List Char) :
    signedLiteral? ('-' :: cs)
      = ((unsignedLiteral? cs).filter (· < magnitudeBound)).map fun n : Nat => -(n : Int) := by
  simp only [signedLiteral?]
  cases (unsignedLiteral? cs).filter (· < magnitudeBound) <;> rfl

theorem signedLiteral?_plus (cs : List Char) :
    signedLiteral? ('+' :: cs) =
      ((unsignedLiteral? cs).filter (· < magnitudeBound)).map Int.ofNat := by
  simp only [signedLiteral?]

theorem signedLiteral?_of_head (hminus : cs.head? ≠ some '-') (hplus : cs.head? ≠ some '+') :
    signedLiteral? cs = ((unsignedLiteral? cs).filter (· < magnitudeBound)).map Int.ofNat := by
  rw [signedLiteral?.eq_def]
  split
  · exact absurd rfl hminus
  · exact absurd rfl hplus
  · rfl

theorem unsignedLiteral?_of_decimal (h : ∀ c ∈ cs, c.isDigit = true) :
    unsignedLiteral? cs = magnitude? 10 cs := by
  rw [unsignedLiteral?.eq_def]
  split
  · exact absurd (h 'x' (by simp)) (by decide)
  · exact absurd (h 'X' (by simp)) (by decide)
  · exact absurd (h '$' (by simp)) (by decide)
  · rfl

/-! ## What a literal starts with -/

/-- A digit, or a character that can stand in front of the digits of a literal. -/
def startsLiteral (c : Char) : Bool := c.isDigit || ['#', '$', '+', '-'].contains c

theorem toNat_of_startsLiteral (h : startsLiteral c = true) : c.toNat ≤ 0x39 := by
  simp only [startsLiteral, Bool.or_eq_true, List.contains_eq_mem, decide_eq_true_eq,
    List.mem_cons, List.not_mem_nil, or_false] at h
  rcases h with h | rfl | rfl | rfl | rfl
  · exact (Char.isDigit_iff_toNat.1 h).2
  · decide
  · decide
  · decide
  · decide

theorem isDigit_of_digit? (h : digit? 10 c = some d) : c.isDigit = true := by
  rw [digit?, Option.filter_eq_some_iff] at h
  obtain ⟨hvalue, hd⟩ := h
  by_contra hc
  -- The letters are digits from ten on.
  have hlow : 10 ≤ d := by
    rw [if_neg hc] at hvalue
    split at hvalue
    · cases hvalue
      exact Nat.le_add_left 10 _
    · split at hvalue
      · cases hvalue
        exact Nat.le_add_left 10 _
      · cases hvalue
  exact absurd (of_decide_eq_true hd) (Nat.not_lt.2 hlow)

theorem exists_head_of_magnitude? (h : magnitude? 10 cs = some n) :
    ∃ c rest, cs = c :: rest ∧ c.isDigit = true := by
  cases cs with
  | nil => cases h
  | cons c rest =>
    rw [magnitude?, if_neg (by simp), Option.map_eq_some_iff] at h
    obtain ⟨ds, hds, -⟩ := h
    rw [List.mapM_cons, Option.bind_eq_bind, Option.bind_eq_some_iff] at hds
    obtain ⟨d, hd, -⟩ := hds
    exact ⟨c, rest, rfl, isDigit_of_digit? hd⟩

theorem exists_head_of_unsignedLiteral? (h : unsignedLiteral? cs = some n) :
    ∃ c rest, cs = c :: rest ∧ startsLiteral c = true := by
  rw [unsignedLiteral?.eq_def] at h
  split at h
  · exact ⟨_, _, rfl, rfl⟩
  · exact ⟨_, _, rfl, rfl⟩
  · exact ⟨_, _, rfl, rfl⟩
  · obtain ⟨c, rest, rfl, hc⟩ := exists_head_of_magnitude? h
    exact ⟨c, rest, rfl, by rw [startsLiteral, hc, Bool.true_or]⟩

/-- A literal starts with a digit or with one of the marks in front of digits. -/
theorem exists_head_of_literal? {i : Int} (h : literal? token = some i) :
    ∃ c rest, Text.trim token.toList = c :: rest ∧ startsLiteral c = true := by
  have hsigned : ∀ cs, signedLiteral? cs = some i →
      ∃ c rest, cs = c :: rest ∧ startsLiteral c = true := by
    intro cs hcs
    rw [signedLiteral?.eq_def] at hcs
    split at hcs
    · exact ⟨_, _, rfl, rfl⟩
    · exact ⟨_, _, rfl, rfl⟩
    · obtain ⟨n, hn, -⟩ := Option.map_eq_some_iff.1 hcs
      exact exists_head_of_unsignedLiteral? (Option.filter_eq_some_iff.1 hn).1
  rw [literal?] at h
  split at h
  · next rest hrest => exact ⟨_, _, hrest, rfl⟩
  · exact hsigned _ h

theorem literal?_eq_none (h : ∀ c ∈ (Text.trim token.toList).head?, startsLiteral c = false) :
    literal? token = none := by
  cases hvalue : literal? token with
  | none => rfl
  | some i =>
    obtain ⟨c, rest, hrest, hc⟩ := exists_head_of_literal? hvalue
    rw [h c (by rw [hrest]; rfl)] at hc
    cases hc

/-! ## Readings -/

namespace IsUnsigned

variable (h : IsUnsigned cs n)

include h

theorem unsignedLiteral?_eq : unsignedLiteral? cs = some n := by
  cases h with
  | ten h =>
    have hdigit : ∀ c ∈ cs, c.isDigit = true := fun c hc => by
      obtain ⟨d, hd⟩ := h.exists_isDigit hc
      exact isDigit_of_digit? (hd.digit?_eq (by decide))
    rw [unsignedLiteral?_of_decimal hdigit, h.magnitude?_eq (by decide)]
  | sixteen hmark h =>
    simp only [List.mem_cons, List.not_mem_nil, or_false] at hmark
    rcases hmark with rfl | rfl | rfl <;> exact h.magnitude?_eq (by decide)

theorem visible (hc : c ∈ cs) : 0x21 ≤ c.toNat ∧ c.toNat ≤ 0x7E := by
  cases h with
  | ten h =>
    obtain ⟨d, hd⟩ := h.exists_isDigit hc
    exact hd.visible (by decide)
  | sixteen hmark h =>
    rcases List.mem_append.1 hc with hc | hc
    · have hmarks : ∀ mark ∈ ["0x", "0X", "$"], ∀ c ∈ mark.toList,
          0x21 ≤ c.toNat ∧ c.toNat ≤ 0x7E := by simp
      exact hmarks _ hmark c hc
    · obtain ⟨d, hd⟩ := h.exists_isDigit hc
      exact hd.visible (by decide)

/-- A number without sign starts with a digit or the mark `$`. -/
theorem exists_head : ∃ c rest, cs = c :: rest ∧ (c.isDigit = true ∨ c = '$') := by
  cases h with
  | ten h =>
    obtain ⟨c, rest, rfl, hc⟩ := exists_head_of_magnitude? (h.magnitude?_eq (by decide))
    exact ⟨c, rest, rfl, .inl hc⟩
  | sixteen hmark h =>
    simp only [List.mem_cons, List.not_mem_nil, or_false] at hmark
    rcases hmark with rfl | rfl | rfl
    · exact ⟨'0', _, rfl, .inl rfl⟩
    · exact ⟨'0', _, rfl, .inl rfl⟩
    · exact ⟨'$', _, rfl, .inr rfl⟩

theorem head?_ne (hc : c.isDigit = false) (hmark : c ≠ '$') : cs.head? ≠ some c := by
  obtain ⟨c', rest, rfl, hc'⟩ := h.exists_head
  rintro heq
  obtain rfl : c' = c := Option.some.inj heq
  rcases hc' with hc' | hc'
  · rw [hc'] at hc
    cases hc
  · exact hmark hc'

end IsUnsigned

namespace IsSigned

variable (h : IsSigned cs i)

include h

/-- The reader of numbers takes those below the bound. -/
theorem signedLiteral?_eq :
    signedLiteral? cs = if i.natAbs < magnitudeBound then some i else none := by
  have hfilter : ∀ (n : Nat) (f : Nat → Int),
      ((some n).filter (· < magnitudeBound)).map f =
        if n < magnitudeBound then some (f n) else none := by
    intro n f
    rw [Option.filter_some]
    by_cases hn : n < magnitudeBound <;> simp [hn]
  cases h with
  | bare h =>
    rw [signedLiteral?_of_head (h.head?_ne (by decide) (by decide))
      (h.head?_ne (by decide) (by decide)), h.unsignedLiteral?_eq, hfilter]
    rfl
  | plus h =>
    rw [signedLiteral?_plus, h.unsignedLiteral?_eq, hfilter]
    rfl
  | minus h =>
    rw [signedLiteral?_minus, h.unsignedLiteral?_eq, hfilter, Int.natAbs_neg, Int.natAbs_natCast]

theorem visible (hc : c ∈ cs) : 0x21 ≤ c.toNat ∧ c.toNat ≤ 0x7E := by
  cases h with
  | bare h => exact h.visible hc
  | plus h =>
    rcases List.mem_cons.1 hc with rfl | hc
    · decide
    · exact h.visible hc
  | minus h =>
    rcases List.mem_cons.1 hc with rfl | hc
    · decide
    · exact h.visible hc

theorem exists_head : ∃ c rest, cs = c :: rest ∧ c ≠ '#' ∧ startsLiteral c = true := by
  cases h with
  | bare h =>
    obtain ⟨c, rest, rfl, hc⟩ := h.exists_head
    refine ⟨c, rest, rfl, ?_⟩
    rcases hc with hc | rfl
    · refine ⟨?_, by rw [startsLiteral, hc, Bool.true_or]⟩
      rintro rfl
      exact absurd hc (by decide)
    · decide
  | plus h => exact ⟨'+', _, rfl, by decide⟩
  | minus h => exact ⟨'-', _, rfl, by decide⟩

end IsSigned

namespace IsNumber

variable (h : IsNumber token i)

include h

/-- A number is read as its value if its magnitude is below the bound, and else not at all. -/
theorem literal?_eq : literal? token = if i.natAbs < magnitudeBound then some i else none := by
  obtain ⟨cs, hsigned, htoken⟩ := h
  have hblank : ∀ c ∈ token.toList, Text.isBlank c = false := by
    intro c hc
    have hvisible : 0x21 ≤ c.toNat ∧ c.toNat ≤ 0x7E := by
      rcases htoken with htoken | htoken
      · exact hsigned.visible (htoken ▸ hc)
      · rcases List.mem_cons.1 (htoken ▸ hc) with rfl | hc
        · decide
        · exact hsigned.visible hc
    exact Text.isBlank_of_visible hvisible.1 hvisible.2
  rw [← hsigned.signedLiteral?_eq, literal?, Text.trim_of_forall_not_blank hblank]
  rcases htoken with htoken | htoken
  · obtain ⟨c, rest, rfl, hc, -⟩ := hsigned.exists_head
    rw [htoken]
    split
    · next heq => exact absurd (List.cons.inj heq).1 hc
    · rfl
  · rw [htoken]
    rfl

theorem exists_head : ∃ c rest, token.toList = c :: rest ∧ startsLiteral c = true := by
  obtain ⟨cs, hsigned, htoken | htoken⟩ := h
  · obtain ⟨c, rest, rfl, -, hc⟩ := hsigned.exists_head
    exact ⟨c, rest, htoken, hc⟩
  · exact ⟨'#', cs, htoken, rfl⟩

end IsNumber

end WordMachine.Numeral
