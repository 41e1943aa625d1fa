import Mathlib.Data.List.Basic
import Mathlib.Data.List.TakeWhile
import WordMachine.Proofs.Except
import WordMachine.Proofs.Register
import WordMachine.Source.Statement

/-!
# Statements from tokens

What a line says comes from its *tokens*, the pieces between separators. The tokens of two
texts with a separator between them are those of the one and then those of the other
(`tokens_append_separator`), so that the tokens that are written with commas between them
are read again (`tokens_intercalate`).

The names and numbers that an instruction is written with are *plain*: letters, digits and
the minus sign. None of these separates tokens, starts a comment or a directive or ends
a label, so that a line of plain tokens is an instruction (`ofLine_written`), and a directive
with a plain operand has that operand (`ofLine_datum`, `ofLine_origin`).
-/

namespace WordMachine.Statement

variable {c : Char} {t text : List Char} {ts : List (List Char)}

/-! ## Tokens -/

/-- The pieces of a text between separators. -/
def tokens (text : List Char) : List (List Char) :=
  (text.splitOnP isSeparator).filter fun token => !token.isEmpty

/-- The text is a single token. -/
def IsToken (t : List Char) : Prop := t ≠ [] ∧ ∀ c ∈ t, isSeparator c = false

instance : DecidablePred IsToken := fun t =>
  have := List.decidableBAll (fun c => isSeparator c = false) t
  inferInstanceAs (Decidable (_ ∧ _))

theorem tokens_nil : tokens [] = [] := by simp [tokens]

theorem tokens_of_isToken (h : IsToken t) : tokens t = [t] := by
  rw [tokens, List.splitOnP_eq_singleton h.2]
  simp [h.1]

/-- Tokens are found on each side of a separator. -/
theorem tokens_append_separator (hc : isSeparator c = true) (x y : List Char) :
    tokens (x ++ c :: y) = tokens x ++ tokens y := by
  rw [tokens, List.splitOnP_append_cons x y hc, List.filter_append]
  rfl

theorem tokens_cons_separator (hc : isSeparator c = true) (y : List Char) :
    tokens (c :: y) = tokens y := by
  simpa [tokens_nil] using tokens_append_separator hc [] y

/-- Tokens with commas between them are read again. -/
theorem tokens_intercalate (h : ∀ t ∈ ts, IsToken t) :
    tokens (", ".toList.intercalate ts) = ts := by
  induction ts with
  | nil => exact tokens_nil
  | cons t ts ih =>
    obtain ⟨ht, hts⟩ := List.forall_mem_cons.1 h
    -- A comma is written only if there is a token behind it.
    cases ts with
    | nil => rw [List.intercalate_singleton, tokens_of_isToken ht]
    | cons u us =>
      have htext : ", ".toList.intercalate (t :: u :: us)
          = t ++ ',' :: ' ' :: ", ".toList.intercalate (u :: us) := by
        rw [List.intercalate_cons_cons, List.append_assoc]
        rfl
      rw [htext, tokens_append_separator (by decide), tokens_cons_separator (by decide), ih hts,
        tokens_of_isToken ht, List.singleton_append]

/-! ## Plain tokens -/

/-- A letter, a digit or the minus sign. -/
def isPlain (c : Char) : Bool := c.isAlphanum || c == '-'

/-- The text is not empty, and only of letters, digits and minus signs. -/
def IsPlain (t : List Char) : Prop := t ≠ [] ∧ ∀ c ∈ t, isPlain c = true

instance : Decidable (IsPlain t) :=
  decidable_of_iff (t ≠ [] ∧ t.all isPlain = true) (and_congr_right' List.all_eq_true)

theorem visible_of_isPlain (h : isPlain c = true) : 0x21 ≤ c.toNat ∧ c.toNat ≤ 0x7E := by
  simp only [isPlain, Char.isAlphanum, Bool.or_eq_true, beq_iff_eq] at h
  rcases h with (h | h) | rfl
  · have hletter := Text.isAlpha_iff.1 h
    omega
  · have hdigit : 0x30 ≤ c.toNat ∧ c.toNat ≤ 0x39 := Char.isDigit_iff_toNat.1 h
    omega
  · decide

theorem isBlank_of_isPlain (h : isPlain c = true) : Text.isBlank c = false :=
  Text.isBlank_of_visible (visible_of_isPlain h).1 (visible_of_isPlain h).2

theorem ne_of_isPlain {d : Char} (h : isPlain c = true) (hd : isPlain d = false) : c ≠ d := by
  rintro rfl
  rw [h] at hd
  cases hd

theorem IsPlain.isToken (h : IsPlain t) : IsToken t := by
  refine ⟨h.1, fun c hc => ?_⟩
  rw [isSeparator, isBlank_of_isPlain (h.2 c hc), Bool.or_false, beq_eq_false_iff_ne]
  exact ne_of_isPlain (h.2 c hc) (by decide)

/-! ## Names -/

theorem visible_of_continuesName (h : continuesName c = true) :
    0x21 ≤ c.toNat ∧ c.toNat ≤ 0x7E := by
  simp only [continuesName, Bool.or_eq_true, beq_iff_eq] at h
  rcases h with (h | rfl) | rfl
  · exact visible_of_isPlain (by rw [isPlain, h, Bool.true_or])
  · decide
  · decide

theorem startsLiteral_of_startsName (h : startsName c = true) :
    Numeral.startsLiteral c = false := by
  simp only [startsName, Bool.or_eq_true, beq_iff_eq] at h
  rcases h with (h | rfl) | rfl
  · -- The letters are behind the digits and the marks of numbers.
    have hletter := Text.isAlpha_iff.1 h
    by_contra hstarts
    have hlow := Numeral.toNat_of_startsLiteral (Bool.not_eq_false _ ▸ hstarts)
    omega
  · decide
  · decide

/-- What can start a name can also stand in it. -/
theorem continuesName_of_isName (h : isName t = true) : ∀ c ∈ t, continuesName c = true := by
  cases t with
  | nil => exact nofun
  | cons d ds =>
    rw [isName, Bool.and_eq_true, List.all_eq_true] at h
    refine List.forall_mem_cons.2 ⟨?_, h.2⟩
    have hstart := h.1
    simp only [startsName, continuesName, Char.isAlphanum, Bool.or_eq_true] at hstart ⊢
    tauto

theorem isBlank_of_isName (h : isName t = true) : ∀ c ∈ t, Text.isBlank c = false := by
  intro c hc
  obtain ⟨hlow, hhigh⟩ := visible_of_continuesName (continuesName_of_isName h c hc)
  exact Text.isBlank_of_visible hlow hhigh

theorem trim_of_isName (h : isName t = true) : Text.trim t = t :=
  Text.trim_of_forall_not_blank (isBlank_of_isName h)

theorem not_mem_of_isName {d : Char} (h : isName t = true) (hd : continuesName d = false) :
    d ∉ t := by
  intro hmem
  rw [continuesName_of_isName h d hmem] at hd
  cases hd

theorem isToken_of_isName (h : isName t = true) : IsToken t := by
  refine ⟨?_, fun c hc => ?_⟩
  · rintro rfl
    cases h
  · rw [isSeparator, isBlank_of_isName h c hc, Bool.or_false, beq_eq_false_iff_ne]
    rintro rfl
    exact not_mem_of_isName h (by decide) hc

/-- A name is no number. -/
theorem literal?_of_isName {token : String} (h : isName token.toList = true) :
    Numeral.literal? token = none := by
  refine Numeral.literal?_eq_none ?_
  rw [trim_of_isName h]
  intro c hc
  obtain ⟨rest, hrest⟩ := List.head?_eq_some_iff.1 hc
  rw [hrest, isName, Bool.and_eq_true] at h
  exact startsLiteral_of_startsName h.1

/-! ## Lines -/

/-- A line without a comment and without space at its ends is read as it stands. -/
theorem ofLine_eq_ofText (hcomment : ∀ c ∈ text, c ≠ ';')
    (hhead : ∀ c ∈ text.head?, Text.isBlank c = false)
    (hlast : ∀ c ∈ text.getLast?, Text.isBlank c = false) : ofLine text = ofText text := by
  have hall : text.takeWhile (· != ';') = text := by
    rw [List.takeWhile_eq_self_iff]
    simpa using hcomment
  rw [ofLine, hall, Text.trim_eq_self hhead hlast]

theorem ofText_eq_ofInstruction (hne : text ≠ []) (hlast : text.getLast? ≠ some ':')
    (hhead : text.head? ≠ some '.') : ofText text = ofInstruction text := by
  rw [ofText, if_neg (by simpa using hne), if_neg hlast, if_neg hhead]

theorem ofInstruction_of_tokens {mnemonic : List Char} (h : tokens text = mnemonic :: ts)
    (hlast : mnemonic.getLast? ≠ some ':') :
    ofInstruction text = .ok (.instruction (String.ofList mnemonic) (ts.map String.ofList)) := by
  rw [tokens] at h
  rw [ofInstruction, h]
  exact if_neg hlast

/-- A name alone is a mnemonic without operands, unless it starts as a directive does. -/
theorem ofText_of_isName (h : isName t = true) (hpoint : t.head? ≠ some '.') :
    ofText t = .ok (.instruction (String.ofList t) []) := by
  have htoken := isToken_of_isName h
  have hlast : t.getLast? ≠ some ':' :=
    fun hcolon => not_mem_of_isName h (by decide) (List.mem_of_getLast? hcolon)
  rw [ofText_eq_ofInstruction htoken.1 hlast hpoint,
    ofInstruction_of_tokens (tokens_of_isToken htoken) hlast]
  rfl

/-- A mnemonic and its operands as an instruction is written: space behind the mnemonic,
    if there is an operand, and commas between the operands. -/
def written (mnemonic : List Char) : List (List Char) → List Char
  | [] => mnemonic
  | t :: ts => mnemonic ++ ' ' :: ", ".toList.intercalate (t :: ts)

section Written

variable {mnemonic : List Char}

theorem tokens_written (hm : IsToken mnemonic) (h : ∀ t ∈ ts, IsToken t) :
    tokens (written mnemonic ts) = mnemonic :: ts := by
  cases ts with
  | nil => exact tokens_of_isToken hm
  | cons t ts =>
    rw [written, tokens_append_separator (by decide), tokens_of_isToken hm, tokens_intercalate h,
      List.singleton_append]

theorem mem_intercalate (h : ∀ t ∈ ts, IsPlain t) (hc : c ∈ ", ".toList.intercalate ts) :
    isPlain c = true ∨ c = ',' ∨ c = ' ' := by
  induction ts with
  | nil => simp at hc
  | cons t ts ih =>
    obtain ⟨ht, hts⟩ := List.forall_mem_cons.1 h
    cases ts with
    | nil => exact .inl (ht.2 c (by simpa using hc))
    | cons u us =>
      rw [List.intercalate_cons_cons, List.append_assoc, List.mem_append, List.mem_append] at hc
      rcases hc with hc | hc | hc
      · exact .inl (ht.2 c hc)
      · exact .inr (by simpa using hc)
      · exact ih hts hc

/-- What is written of plain tokens is of their characters, of commas and of space. -/
theorem mem_written (hm : IsPlain mnemonic) (h : ∀ t ∈ ts, IsPlain t)
    (hc : c ∈ written mnemonic ts) : isPlain c = true ∨ c = ',' ∨ c = ' ' := by
  cases ts with
  | nil => exact .inl (hm.2 c hc)
  | cons t ts =>
    rw [written, List.mem_append, List.mem_cons] at hc
    rcases hc with hc | hc | hc
    · exact .inl (hm.2 c hc)
    · exact .inr (.inr hc)
    · exact mem_intercalate h hc

theorem written_ne_nil (hm : mnemonic ≠ []) : written mnemonic ts ≠ [] := by
  cases ts <;> simp [written, hm]

theorem head?_written (hm : IsPlain mnemonic) (ts : List (List Char)) :
    ∀ c ∈ (written mnemonic ts).head?, isPlain c = true := by
  obtain ⟨c, cs, rfl⟩ := List.exists_cons_of_ne_nil hm.1
  have hhead : (written (c :: cs) ts).head? = some c := by cases ts <;> rfl
  rw [hhead]
  rintro _ ⟨⟩
  exact hm.2 c List.mem_cons_self

theorem exists_intercalate_eq_append (h : ∀ t ∈ ts, IsPlain t) (hts : ts ≠ []) :
    ∃ x t, IsPlain t ∧ ", ".toList.intercalate ts = x ++ t := by
  induction ts with
  | nil => exact absurd rfl hts
  | cons t ts ih =>
    obtain ⟨ht, hrest⟩ := List.forall_mem_cons.1 h
    cases ts with
    | nil => exact ⟨[], t, ht, by simp⟩
    | cons u us =>
      obtain ⟨x, v, hv, heq⟩ := ih hrest (List.cons_ne_nil u us)
      exact ⟨t ++ ", ".toList ++ x, v, hv, by rw [List.intercalate_cons_cons, heq]; simp⟩

/-- What is written of plain tokens ends in one of them. -/
theorem exists_written_eq_append (hm : IsPlain mnemonic) (h : ∀ t ∈ ts, IsPlain t) :
    ∃ x t, IsPlain t ∧ written mnemonic ts = x ++ t := by
  cases ts with
  | nil => exact ⟨[], mnemonic, hm, rfl⟩
  | cons t ts =>
    obtain ⟨x, u, hu, heq⟩ := exists_intercalate_eq_append h (List.cons_ne_nil t ts)
    exact ⟨mnemonic ++ ' ' :: x, u, hu, by rw [written, heq]; simp⟩

theorem getLast?_written (hm : IsPlain mnemonic) (h : ∀ t ∈ ts, IsPlain t) :
    ∀ c ∈ (written mnemonic ts).getLast?, isPlain c = true := by
  obtain ⟨x, t, ht, heq⟩ := exists_written_eq_append hm h
  rw [heq, List.getLast?_append_of_ne_nil x ht.1]
  exact fun c hc => ht.2 c (List.mem_of_mem_getLast? hc)

/-- A line of plain tokens is an instruction. -/
theorem ofLine_written (hm : IsPlain mnemonic) (h : ∀ t ∈ ts, IsPlain t) :
    ofLine (written mnemonic ts)
      = .ok (.instruction (String.ofList mnemonic) (ts.map String.ofList)) := by
  have hhead := head?_written hm ts
  have hlast := getLast?_written hm h
  have hcomment : ∀ c ∈ written mnemonic ts, c ≠ ';' := by
    intro c hc
    rcases mem_written hm h hc with hc | rfl | rfl
    · exact ne_of_isPlain hc (by decide)
    · decide
    · decide
  have hcolon : (written mnemonic ts).getLast? ≠ some ':' :=
    fun heq => ne_of_isPlain (hlast ':' heq) (by decide) rfl
  have hpoint : (written mnemonic ts).head? ≠ some '.' :=
    fun heq => ne_of_isPlain (hhead '.' heq) (by decide) rfl
  rw [ofLine_eq_ofText hcomment (fun c hc => isBlank_of_isPlain (hhead c hc))
      (fun c hc => isBlank_of_isPlain (hlast c hc)),
    ofText_eq_ofInstruction (written_ne_nil hm.1) hcolon hpoint]
  refine ofInstruction_of_tokens (tokens_written hm.isToken fun t ht => (h t ht).isToken) ?_
  exact fun heq => ne_of_isPlain (hm.2 ':' (List.mem_of_mem_getLast? heq)) (by decide) rfl

end Written

/-! ## Numbers and registers -/

theorem isPlain_of_mem_toDigits {b n : Nat} (hb : 1 < b) (h16 : b ≤ 16) (h : c ∈ Nat.toDigits b n) :
    isPlain c = true := by
  obtain ⟨d, hd, rfl⟩ := Numeral.exists_digitChar_of_mem_toDigits hb h
  have hd16 : d < 16 := Nat.lt_of_lt_of_le hd h16
  interval_cases d <;> rfl

theorem isPlain_natural (n : Nat) : IsPlain (Numeral.natural n).toList := by
  rw [Numeral.natural, String.toList_ofList]
  exact ⟨Nat.toDigits_ne_nil, fun c => isPlain_of_mem_toDigits (by decide) (by decide)⟩

theorem isPlain_integer (i : Int) : IsPlain (Numeral.integer i).toList := by
  rw [Numeral.integer]
  split
  · rw [String.toList_append]
    exact ⟨by simp, List.forall_mem_cons.2 ⟨by decide, (isPlain_natural _).2⟩⟩
  · exact isPlain_natural _

theorem isPlain_hexLiteral (n : Nat) : IsPlain (Numeral.hexLiteral n).toList := by
  have htext : (Numeral.hexLiteral n).toList = '0' :: 'x' :: (Nat.toDigits 16 n).leftpad 4 '0' := by
    simp [Numeral.hexLiteral, Numeral.hex]
  rw [htext]
  refine ⟨by simp, List.forall_mem_cons.2 ⟨by decide, List.forall_mem_cons.2 ⟨by decide, ?_⟩⟩⟩
  intro c hc
  rw [List.leftpad, List.mem_append] at hc
  rcases hc with hc | hc
  · rw [List.eq_of_mem_replicate hc]
    decide
  · exact isPlain_of_mem_toDigits (by decide) (by decide) hc

theorem isPlain_register (r : Register) : IsPlain r.name.toList := by
  have hall : ∀ i : Fin 16, IsPlain (Register.name ⟨i⟩).toList := by decide
  exact hall r.index

/-! ## Directives -/

/-- A directive is taken apart into its name and what is behind it, space around that aside. -/
theorem ofDirective_append_blank {name ws : List Char} (hname : ∀ c ∈ name, Text.isBlank c = false)
    (hws : ∀ c ∈ ws, Text.isBlank c = true) (hne : ws ≠ []) (rest : List Char) :
    ofDirective (name ++ ws ++ rest) =
      if Text.upper name = ".ORG".toList then ofOrigin (String.ofList (Text.trim rest))
      else if Text.upper name = ".WORD".toList then ofData (Text.trim rest)
      else .error (.unknownDirective (String.ofList name)) := by
  -- The name is what stands before the first space.
  have hvisible : ∀ c ∈ name, (!Text.isBlank c) = true := by simpa using hname
  obtain ⟨c, ws, rfl⟩ := List.exists_cons_of_ne_nil hne
  have hc : ¬(!Text.isBlank c) = true := by simp [hws c List.mem_cons_self]
  have htake : (name ++ c :: ws ++ rest).takeWhile (fun c => !Text.isBlank c) = name := by
    rw [List.append_assoc, List.takeWhile_append_of_pos hvisible, List.cons_append,
      List.takeWhile_cons_of_neg (p := fun c => !Text.isBlank c) hc, List.append_nil]
  have hdrop : Text.trim ((name ++ c :: ws ++ rest).dropWhile (fun c => !Text.isBlank c)) =
      Text.trim rest := by
    rw [List.append_assoc, List.dropWhile_append_of_pos hvisible, List.cons_append,
      List.dropWhile_cons_of_neg (p := fun c => !Text.isBlank c) hc, ← List.cons_append,
      Text.trim_blank_append hws]
  simp only [ofDirective, htake, hdrop]

/-- No directive is right without an operand, so that a name alone that starts as one does is
    wrong. -/
theorem exists_ofText_eq_error_of_isName (h : isName t = true) (hpoint : t.head? = some '.') :
    ∃ fault, ofText t = .error fault := by
  have hvisible : ∀ c ∈ t, (!Text.isBlank c) = true := by simpa using isBlank_of_isName h
  have htake : t.takeWhile (fun c => !Text.isBlank c) = t := List.takeWhile_eq_self_iff.2 hvisible
  have hdrop : t.dropWhile (fun c => !Text.isBlank c) = [] := List.dropWhile_eq_nil_iff.2 hvisible
  have hlast : t.getLast? ≠ some ':' :=
    fun hcolon => not_mem_of_isName h (by decide) (List.mem_of_getLast? hcolon)
  have hne : ¬t.isEmpty = true := by simpa using (isToken_of_isName h).1
  rw [ofText, if_neg hne, if_neg hlast, if_pos hpoint]
  simp only [ofDirective, htake, hdrop]
  split_ifs
  · exact ⟨_, rfl⟩
  · exact ⟨_, rfl⟩
  · exact ⟨_, rfl⟩

/-- A directive with a plain operand has that operand. -/
theorem ofDirective_append {name : List Char} (hname : IsPlain name) (ht : IsPlain t) :
    ofDirective ('.' :: name ++ ' ' :: t) =
      if Text.upper ('.' :: name) = ".ORG".toList then ofOrigin (String.ofList t)
      else if Text.upper ('.' :: name) = ".WORD".toList then ofData t
      else .error (.unknownDirective (String.ofList ('.' :: name))) := by
  have hvisible : ∀ c ∈ '.' :: name, Text.isBlank c = false :=
    List.forall_mem_cons.2 ⟨by decide, fun c hc => isBlank_of_isPlain (hname.2 c hc)⟩
  have htrim : Text.trim t = t :=
    Text.trim_of_forall_not_blank fun c hc => isBlank_of_isPlain (ht.2 c hc)
  have hblank : ∀ c ∈ [' '], Text.isBlank c = true := List.forall_mem_singleton.2 (by decide)
  have happend := ofDirective_append_blank hvisible hblank (List.cons_ne_nil _ _) t
  rwa [htrim, List.append_assoc, List.singleton_append] at happend

/-- A line that starts with a point and ends in a plain token is a directive. -/
theorem ofLine_directive {name : List Char} (hname : IsPlain name) (ht : IsPlain t) :
    ofLine ('.' :: name ++ ' ' :: t) = ofDirective ('.' :: name ++ ' ' :: t) := by
  have hhead : ('.' :: name ++ ' ' :: t).head? = some '.' := rfl
  have hlast : ('.' :: name ++ ' ' :: t).getLast? = t.getLast? := by
    rw [List.append_cons, List.getLast?_append_of_ne_nil _ ht.1]
  have hplain : ∀ c ∈ t.getLast?, isPlain c = true :=
    fun c hc => ht.2 c (List.mem_of_mem_getLast? hc)
  have hcomment : ∀ c ∈ '.' :: name ++ ' ' :: t, c ≠ ';' := by
    intro c hc
    simp only [List.cons_append, List.mem_cons, List.mem_append] at hc
    rcases hc with rfl | hc | rfl | hc
    · decide
    · exact ne_of_isPlain (hname.2 c hc) (by decide)
    · decide
    · exact ne_of_isPlain (ht.2 c hc) (by decide)
  have hcolon : t.getLast? ≠ some ':' := fun heq => ne_of_isPlain (hplain ':' heq) (by decide) rfl
  rw [ofLine_eq_ofText hcomment (by rw [hhead]; rintro _ ⟨⟩; decide)
      (by rw [hlast]; exact fun c hc => isBlank_of_isPlain (hplain c hc)),
    ofText, if_neg (by simp), hlast, if_neg hcolon, if_pos hhead]

/-- A plain token behind `.word` is a datum. -/
theorem ofLine_datum (ht : IsPlain t) :
    ofLine (".word ".toList ++ t) = .ok (.data [String.ofList t]) := by
  have hsplit : t.splitOnP (· == ',') = [t] :=
    List.splitOnP_eq_singleton fun c hc => beq_eq_false_iff_ne.2
      (ne_of_isPlain (ht.2 c hc) (by decide))
  have htrim : Text.trim t = t :=
    Text.trim_of_forall_not_blank fun c hc => isBlank_of_isPlain (ht.2 c hc)
  have hline : ".word ".toList ++ t = '.' :: "word".toList ++ ' ' :: t := rfl
  have hword : IsPlain "word".toList := by decide
  rw [hline, ofLine_directive hword ht, ofDirective_append hword ht, if_neg (by decide),
    if_pos (by decide), ofData, hsplit]
  simp [htrim, ht.1]

/-- An address in base ten behind `.org` is an origin. -/
theorem ofLine_origin (a : Word) :
    ofLine (".org ".toList ++ (Numeral.natural a.toNat).toList) = .ok (.origin a) := by
  have hlt : a.toNat < 0x10000 := a.isLt
  have hvalue : Numeral.literal? (Numeral.natural a.toNat) = some (a.toNat : Int) :=
    Numeral.literal?_natural (Nat.lt_trans hlt (by decide))
  have hline : ".org ".toList ++ (Numeral.natural a.toNat).toList
      = '.' :: "org".toList ++ ' ' :: (Numeral.natural a.toNat).toList := rfl
  have horg : IsPlain "org".toList := by decide
  rw [hline, ofLine_directive horg (isPlain_natural _), ofDirective_append horg (isPlain_natural _),
    if_pos (by decide), String.ofList_toList, ofOrigin, hvalue]
  simp only [if_pos (show 0 ≤ (a.toNat : Int) ∧ (a.toNat : Int) < 0x10000 by omega),
    BitVec.ofInt_natCast, BitVec.ofNat_toNat, BitVec.setWidth_eq]

/-! ## What a line can say -/

/-- The fault is one that a line has for its text, whatever other lines say. -/
def IsFault : Fault → Prop
  | .invalidImmediate _ _ => True
  | .operandCount _ _ _ => True
  | .unknownDirective _ => True
  | .invalidLabel _ => True
  | .labelNotAlone _ => True
  | _ => False

theorem ofDirective_ne_label {name : String} : ofDirective text ≠ .ok (.label name) := by
  intro h
  simp only [ofDirective, ofOrigin, ofData] at h
  split at h
  · split at h
    · split at h <;> cases h
    · cases h
  · split at h
    · split at h <;> cases h
    · cases h

theorem ofInstruction_ne_label {name : String} : ofInstruction text ≠ .ok (.label name) := by
  intro h
  rw [ofInstruction] at h
  split at h
  · cases h
  · split at h <;> cases h

/-- A label that a line declares has a name that a label can have. -/
theorem isName_of_ofLine {line : List Char} {name : String} (h : ofLine line = .ok (.label name)) :
    isName name.toList = true := by
  rw [ofLine, ofText] at h
  split at h
  · cases h
  · split at h
    · -- The only case in which a line declares a label.
      simp only [ofLabel] at h
      split at h
      · next hname =>
        cases h
        rwa [String.toList_ofList]
      · cases h
    · split at h
      · exact absurd h ofDirective_ne_label
      · exact absurd h ofInstruction_ne_label

/-- What is wrong with a line as such is wrong with its text. -/
theorem ofLine_failsIn (line : List Char) : (ofLine line).FailsIn IsFault := by
  intro fault h
  simp only [ofLine, ofText, ofLabel, ofDirective, ofOrigin, ofData, ofInstruction] at h
  repeat' split at h
  all_goals cases h
  all_goals exact trivial

theorem ofLine_ne_flagsOnly {line : List Char} {op : AluOp} :
    ofLine line ≠ .error (.flagsOnly op) := fun h => ofLine_failsIn line _ h

end WordMachine.Statement
