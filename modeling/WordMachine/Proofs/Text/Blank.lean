import Mathlib.Data.List.TakeWhile
import Mathlib.Tactic.Common
import WordMachine.Text.Blank

/-!
# Space around a text

A text that neither starts nor ends with space is not changed by trimming it. Of any other text
space is trimmed at either end (`exists_eq_append_trim`) up to the first and the last character that
is none (`head?_trim`, `getLast?_trim`), so that it makes no difference how much of it there is
(`trim_append_blank`, `trim_blank_append`). The visible characters of ASCII, of which names and
numbers are made, are no space.
-/

namespace WordMachine.Text

variable {c : Char} {cs ds ws : List Char}

theorem trimStart_eq_self (h : ∀ c ∈ cs.head?, isBlank c = false) : trimStart cs = cs := by
  cases cs with
  | nil => rfl
  | cons c cs => exact List.dropWhile_cons_of_neg (by simpa using h c rfl)

theorem trimEnd_eq_self (h : ∀ c ∈ cs.getLast?, isBlank c = false) : trimEnd cs = cs := by
  rw [trimEnd, trimStart_eq_self (by rwa [List.head?_reverse]), List.reverse_reverse]

theorem trim_eq_self (hhead : ∀ c ∈ cs.head?, isBlank c = false)
    (hlast : ∀ c ∈ cs.getLast?, isBlank c = false) : trim cs = cs := by
  rw [trim, trimStart_eq_self hhead, trimEnd_eq_self hlast]

theorem trim_of_forall_not_blank (h : ∀ c ∈ cs, isBlank c = false) : trim cs = cs :=
  trim_eq_self (fun c hc => h c (List.mem_of_mem_head? hc))
    (fun c hc => h c (List.mem_of_mem_getLast? hc))

/-! ## Space that is trimmed -/

theorem trimStart_eq_nil_iff : trimStart cs = [] ↔ ∀ c ∈ cs, isBlank c = true :=
  List.dropWhile_eq_nil_iff

theorem trimEnd_eq_nil_iff : trimEnd cs = [] ↔ ∀ c ∈ cs, isBlank c = true := by
  rw [trimEnd, List.reverse_eq_nil_iff, trimStart_eq_nil_iff]
  simp only [List.mem_reverse]

theorem trimStart_append :
    trimStart (cs ++ ds) = if trimStart cs = [] then trimStart ds else trimStart cs ++ ds := by
  rw [trimStart, List.dropWhile_append]
  exact if_congr List.isEmpty_iff rfl rfl

theorem trimEnd_append :
    trimEnd (cs ++ ds) = if trimEnd ds = [] then trimEnd cs else cs ++ trimEnd ds := by
  simp only [trimEnd, List.reverse_append, trimStart_append, List.reverse_eq_nil_iff]
  split
  · rfl
  · rw [List.reverse_append, List.reverse_reverse]

/-- At its end a text is trimmed up to a character that is no space. -/
theorem trimEnd_cons (hc : isBlank c = false) (cs : List Char) :
    trimEnd (c :: cs) = c :: trimEnd cs := by
  rw [← List.singleton_append, trimEnd_append]
  split
  · next hcs =>
    rw [hcs]
    exact trimEnd_eq_self (by simpa using hc)
  · rfl

/-- Space behind a text is trimmed. -/
theorem trim_append_blank (h : ∀ c ∈ ws, isBlank c = true) (cs : List Char) :
    trim (cs ++ ws) = trim cs := by
  rw [trim, trim, trimStart_append]
  split
  · next hcs => rw [trimStart_eq_nil_iff.2 h, hcs]
  · rw [trimEnd_append, if_pos (trimEnd_eq_nil_iff.2 h)]

theorem trim_blank_append (h : ∀ c ∈ ws, isBlank c = true) (cs : List Char) :
    trim (ws ++ cs) = trim cs := by
  rw [trim, trim, trimStart_append, if_pos (trimStart_eq_nil_iff.2 h)]

theorem trim_eq_nil_of_forall_blank (h : ∀ c ∈ ws, isBlank c = true) : trim ws = [] := by
  rw [trim, trimStart_eq_nil_iff.2 h]
  rfl

/-- A text is what is trimmed of it, with space at either end. -/
theorem exists_eq_append_trim (cs : List Char) :
    ∃ before behind, (∀ c ∈ before, isBlank c = true) ∧ (∀ c ∈ behind, isBlank c = true) ∧
      cs = before ++ trim cs ++ behind := by
  refine ⟨cs.takeWhile isBlank, ((trimStart cs).reverse.takeWhile isBlank).reverse,
    fun c hc => List.mem_takeWhile_imp hc,
    fun c hc => List.mem_takeWhile_imp (List.mem_reverse.1 hc), ?_⟩
  rw [trim, trimEnd, List.append_assoc, ← List.reverse_append, trimStart, trimStart,
    List.takeWhile_append_dropWhile, List.reverse_reverse, List.takeWhile_append_dropWhile]

theorem head?_trimStart (cs : List Char) :
    (trimStart cs).head? = cs.find? fun c => !isBlank c := by
  induction cs with
  | nil => rfl
  | cons c cs ih =>
    rw [trimStart, List.dropWhile_cons, List.find?_cons]
    cases isBlank c with
    | true => exact ih
    | false => rfl

/-- The first character of a trimmed text is the first one that is no space. -/
theorem head?_trim (cs : List Char) : (trim cs).head? = cs.find? fun c => !isBlank c := by
  rw [← head?_trimStart, trim]
  cases hstart : trimStart cs with
  | nil => rfl
  | cons c rest =>
    -- Space is trimmed at the end up to a character that is none, such as the first is.
    have hc : isBlank c = false := by
      have hfind := (head?_trimStart cs).symm
      rw [hstart] at hfind
      simpa using List.find?_some hfind
    rw [trimEnd_cons hc]
    rfl

/-- The last character of a trimmed text is the last one that is no space. -/
theorem getLast?_trim (cs : List Char) :
    (trim cs).getLast? = cs.reverse.find? fun c => !isBlank c := by
  have hstart : (cs.takeWhile isBlank).reverse.find? (fun c => !isBlank c) = none := by
    refine List.find?_eq_none.2 fun c hc => ?_
    simp [List.mem_takeWhile_imp (List.mem_reverse.1 hc)]
  conv_rhs => rw [← List.takeWhile_append_dropWhile (p := isBlank) (l := cs), List.reverse_append,
    List.find?_append, hstart, Option.or_none]
  rw [trim, trimEnd, List.getLast?_reverse, head?_trimStart]
  rfl

/-- A trimmed text has no space at its ends any more. -/
theorem trim_trim (cs : List Char) : trim (trim cs) = trim cs := by
  refine trim_eq_self (fun c hc => ?_) fun c hc => ?_
  · rw [head?_trim] at hc
    simpa using List.find?_some hc
  · rw [getLast?_trim] at hc
    simpa using List.find?_some hc

/-! ## Visible characters -/

/-- A visible character of ASCII is no space. -/
theorem isBlank_of_visible (hlow : 0x21 ≤ c.toNat) (hhigh : c.toNat ≤ 0x7E) :
    isBlank c = false := by
  simp only [isBlank, inRanges, blankRanges, List.any_cons, List.any_nil, Bool.or_false,
    Bool.or_eq_false_iff, Bool.and_eq_false_iff, decide_eq_false_iff_not]
  omega

end WordMachine.Text
