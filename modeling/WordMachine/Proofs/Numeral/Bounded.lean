import WordMachine.Numeral.Bounded
import WordMachine.Proofs.Except
import WordMachine.Proofs.Numeral.Reading

/-!
# Numbers up to a bound

What a number on a command line looks like, said without a reader of numbers: digits behind an
optional `+`, and in front of it the mark of base sixteen where they are of that base (`IsMarked`).
The reader has a bound that it never goes past on its way. The part of a number that it has read is
no greater than the number, so that it takes exactly the numbers up to the bound, with any zeros in
front (`readDigits_eq_ok_iff`, `readMarked_eq_ok_iff`).
-/

namespace WordMachine.Numeral

variable {b bound k d n : Nat} {c : Char} {cs ds : List Char} {text : String}

/-- The characters are digits of base `b`, behind a plus sign or not. -/
inductive IsPositive (b : Nat) : List Char → Nat → Prop
  | bare {cs : List Char} {n : Nat} : IsMagnitude b cs n → IsPositive b cs n
  | plus {cs : List Char} {n : Nat} : IsMagnitude b cs n → IsPositive b ('+' :: cs) n

/-- The characters are a number of base ten, or of base sixteen behind a mark. -/
inductive IsMarked : List Char → Nat → Prop
  | ten {cs : List Char} {n : Nat} : IsPositive 10 cs n → IsMarked cs n
  | sixteen {mark : String} {cs : List Char} {n : Nat} :
    mark ∈ ["0x", "0X"] → IsPositive 16 cs n → IsMarked (mark.toList ++ cs) n

/-! ## Digits one after another -/

theorem readDigits_append :
    readDigits b bound k (cs ++ ds) =
      readDigits b bound k cs >>= fun n => readDigits b bound n ds := by
  induction cs generalizing k with
  | nil => rfl
  | cons c cs ih =>
    rw [List.cons_append, readDigits, readDigits]
    split
    · rfl
    · split
      · exact ih
      · rfl

theorem readDigits_singleton_eq_ok_iff :
    readDigits b bound k [c] = .ok n ↔
      ∃ d, digit? b c = some d ∧ b * k + d ≤ bound ∧ n = b * k + d := by
  rw [readDigits]
  split
  · next hd => simp [hd]
  · next d hd =>
    simp only [hd, Option.some.injEq, exists_eq_left', readDigits, Except.ite_eq_ok_iff]
    rw [eq_comm (a := n)]

/-- Digits are read as the number that they write if that is not past the bound. -/
theorem readDigits_eq_ok_iff (hb : b ≤ 16) (hcs : cs ≠ []) :
    readDigits b bound 0 cs = .ok n ↔ IsMagnitude b cs n ∧ n ≤ bound := by
  induction cs using List.reverseRecOn generalizing n with
  | nil => exact absurd rfl hcs
  | append_singleton cs c ih =>
    simp only [readDigits_append, Except.bind_eq_ok_iff, readDigits_singleton_eq_ok_iff,
      isMagnitude_append_singleton_iff, digit?_eq_some_iff hb]
    constructor
    · rintro ⟨m, hm, d, hd, hle, rfl⟩
      refine ⟨⟨d, hd, ?_⟩, hle⟩
      by_cases hnil : cs = []
      · subst hnil
        obtain rfl := Except.ok.inj hm
        exact .inl ⟨rfl, by rw [Nat.mul_zero, Nat.zero_add]⟩
      · exact .inr ⟨m, ((ih hnil).1 hm).1, rfl⟩
    · rintro ⟨⟨d, hd, ⟨rfl, rfl⟩ | ⟨m, hm, rfl⟩⟩, hle⟩
      · have hfirst : b * 0 + n = n := by rw [Nat.mul_zero, Nat.zero_add]
        exact ⟨0, rfl, n, hd, hfirst.symm ▸ hle, hfirst.symm⟩
      · -- Without the last digit the number is no greater.
        have hbase : 0 < b := Nat.zero_lt_of_lt hd.1
        have hm_le : m ≤ bound :=
          (Nat.le_mul_of_pos_left m hbase).trans ((Nat.le_add_right _ d).trans hle)
        exact ⟨m, (ih hm.ne_nil).2 ⟨hm, hm_le⟩, d, hd, hle, rfl⟩

/-! ## Numbers behind a sign or a mark -/

theorem IsMagnitude.not_mem (h : IsMagnitude b cs n) (hb : b ≤ 16) (hc : digit? b c = none) :
    c ∉ cs := by
  intro hmem
  obtain ⟨d, hd⟩ := h.exists_isDigit hmem
  rw [hd.digit?_eq hb] at hc
  cases hc

theorem readBounded_plus (hcs : cs ≠ []) :
    readBounded b bound ('+' :: cs) = readDigits b bound 0 cs := by
  cases cs with
  | nil => exact absurd rfl hcs
  | cons c cs => rfl

theorem readBounded_of_not_mem (hcs : cs ≠ []) (hplus : '+' ∉ cs) :
    readBounded b bound cs = readDigits b bound 0 cs := by
  rw [readBounded.eq_def]
  split
  · exact absurd rfl hcs
  · exact absurd List.mem_cons_self hplus
  · exact absurd List.mem_cons_self hplus
  · rfl

theorem readBounded_eq_ok_iff (hb : b ≤ 16) :
    readBounded b bound cs = .ok n ↔ IsPositive b cs n ∧ n ≤ bound := by
  constructor
  · intro h
    rw [readBounded.eq_def] at h
    split at h
    · cases h
    · cases h
    · next hdigits =>
      obtain ⟨hn, hle⟩ := (readDigits_eq_ok_iff hb (by rintro rfl; exact hdigits rfl)).1 h
      exact ⟨.plus hn, hle⟩
    · next hnil _ _ =>
      obtain ⟨hn, hle⟩ := (readDigits_eq_ok_iff hb hnil).1 h
      exact ⟨.bare hn, hle⟩
  · rintro ⟨hn | hn, hle⟩
    · rw [readBounded_of_not_mem hn.ne_nil (hn.not_mem hb rfl)]
      exact (readDigits_eq_ok_iff hb hn.ne_nil).2 ⟨hn, hle⟩
    · rw [readBounded_plus hn.ne_nil]
      exact (readDigits_eq_ok_iff hb hn.ne_nil).2 ⟨hn, hle⟩

theorem IsPositive.not_mem (h : IsPositive b cs n) (hb : b ≤ 16) (hc : digit? b c = none)
    (hplus : c ≠ '+') : c ∉ cs := by
  rcases h with h | h
  · exact h.not_mem hb hc
  · exact List.not_mem_cons_of_ne_of_not_mem hplus (h.not_mem hb hc)

/-- A text is read as a number up to a bound exactly if it is that number, space around it aside,
    and that is not past the bound. -/
theorem readMarked_eq_ok_iff :
    readMarked bound text = .ok n ↔ IsMarked (Text.trim text.toList) n ∧ n ≤ bound := by
  have hten : 10 ≤ 16 := by decide
  rw [readMarked]
  generalize Text.trim text.toList = cs
  constructor
  · intro h
    split at h
    · obtain ⟨hn, hle⟩ := (readBounded_eq_ok_iff (Nat.le_refl 16)).1 h
      have hmark : "0x" ∈ ["0x", "0X"] := by decide
      exact ⟨.sixteen hmark hn, hle⟩
    · obtain ⟨hn, hle⟩ := (readBounded_eq_ok_iff (Nat.le_refl 16)).1 h
      have hmark : "0X" ∈ ["0x", "0X"] := by decide
      exact ⟨.sixteen hmark hn, hle⟩
    · obtain ⟨hn, hle⟩ := (readBounded_eq_ok_iff hten).1 h
      exact ⟨.ten hn, hle⟩
  · rintro ⟨hn | ⟨hmark, hn⟩, hle⟩
    · have hread := (readBounded_eq_ok_iff hten).2 ⟨hn, hle⟩
      split
      · exact absurd (by simp) (hn.not_mem hten (c := 'x') rfl (by decide))
      · exact absurd (by simp) (hn.not_mem hten (c := 'X') rfl (by decide))
      · exact hread
    · have hread := (readBounded_eq_ok_iff (Nat.le_refl 16)).2 ⟨hn, hle⟩
      simp only [List.mem_cons, List.not_mem_nil, or_false] at hmark
      rcases hmark with rfl | rfl
      · exact hread
      · exact hread

end WordMachine.Numeral
