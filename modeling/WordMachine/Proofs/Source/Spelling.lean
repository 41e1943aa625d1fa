import Mathlib.Data.List.Flatten
import WordMachine.Proofs.Source.Statement
import WordMachine.Proofs.Source.Unseen
import WordMachine.Proofs.Text.Recased

/-!
# Ways to write a statement

The same statement can be written in many ways. Tokens of an instruction have any mix of commas and
space between them and around them (`Spells`), and are found again whichever it is
(`Spells.tokens_eq`). Values of data have single commas between them, with any space around each
(`SpellsValues`); they are found again as well (`SpellsValues.map_trim_splitOnP`). What decides
which of the two a line is, are the first and the last character that are seen, and those do not
depend on the space around them. So a line says the same in whichever way it is written
(`ofLine_spelled`).
-/

namespace WordMachine.Statement

variable {t gap before text comment mnemonic : List Char} {ts operands values : List (List Char)}

/-! ## Instructions -/

/-- The text is only commas and space. -/
def IsGap (gap : List Char) : Prop := ∀ c ∈ gap, c = ',' ∨ Text.isBlank c = true

instance : DecidablePred IsGap := fun gap =>
  List.decidableBAll (fun c => c = ',' ∨ Text.isBlank c = true) gap

/-- The text is the tokens with commas and space behind each of them, of which there are some
    wherever another token follows. -/
inductive Spells : List (List Char) → List Char → Prop
  | last {t gap : List Char} : IsToken t → IsGap gap → Spells [t] (t ++ gap)
  | more {t gap : List Char} {ts : List (List Char)} {text : List Char} :
    IsToken t → IsGap gap → gap ≠ [] → Spells ts text → Spells (t :: ts) (t ++ gap ++ text)

theorem IsSpace.isGap (h : IsSpace gap) : IsGap gap := fun c hc => .inr (h c hc)

theorem isSeparator_of_isGap (h : IsGap gap) : ∀ c ∈ gap, isSeparator c = true := by
  intro c hc
  rw [isSeparator, Bool.or_eq_true, beq_iff_eq]
  exact h c hc

theorem tokens_gap_append (h : IsGap gap) (text : List Char) :
    tokens (gap ++ text) = tokens text := by
  induction gap with
  | nil => rfl
  | cons c gap ih =>
    obtain ⟨hc, hgap⟩ := List.forall_mem_cons.1 (isSeparator_of_isGap h)
    rw [List.cons_append, tokens_cons_separator hc, ih fun d hd => h d (List.mem_cons_of_mem c hd)]

/-- Tokens are found on each side of a gap. -/
theorem tokens_append_gap (h : IsGap gap) (hne : gap ≠ []) (text rest : List Char) :
    tokens (text ++ gap ++ rest) = tokens text ++ tokens rest := by
  obtain ⟨c, gap, rfl⟩ := List.exists_cons_of_ne_nil hne
  have hc := isSeparator_of_isGap h c List.mem_cons_self
  rw [List.append_assoc, List.cons_append, tokens_append_separator hc,
    tokens_gap_append fun d hd => h d (List.mem_cons_of_mem c hd)]

theorem tokens_append_gap_end (h : IsGap gap) (text : List Char) :
    tokens (text ++ gap) = tokens text := by
  by_cases hne : gap = []
  · rw [hne, List.append_nil]
  · have hend := tokens_append_gap h hne text []
    rwa [List.append_nil, tokens_nil, List.append_nil] at hend

/-- Tokens are found again whatever is between them. -/
theorem Spells.tokens_eq (h : Spells ts text) : tokens text = ts := by
  induction h with
  | last ht hgap => rw [tokens_append_gap_end hgap, tokens_of_isToken ht]
  | more ht hgap hne _ ih =>
    rw [tokens_append_gap hgap hne, tokens_of_isToken ht, ih, List.singleton_append]

/-- Space at the ends of a text is none of its tokens. -/
theorem tokens_trim (text : List Char) : tokens (Text.trim text) = tokens text := by
  obtain ⟨before, behind, hbefore, hbehind, htext⟩ := Text.exists_eq_append_trim text
  have hspace : IsSpace before := hbefore
  have hspace' : IsSpace behind := hbehind
  conv_rhs => rw [htext, tokens_append_gap_end hspace'.isGap, tokens_gap_append hspace.isGap]

/-! ## The characters at the ends of a line -/

/-- Behind a gap the first character that is seen is a comma or that of the text. -/
theorem find?_gap_append (h : IsGap gap) (hne : t ≠ [])
    (ht : ∀ c ∈ t.head?, Text.isBlank c = false) (rest : List Char) :
    (gap ++ t ++ rest).find? (fun c => !Text.isBlank c) = some ',' ∨
      (gap ++ t ++ rest).find? (fun c => !Text.isBlank c) = t.head? := by
  obtain ⟨c, t, rfl⟩ := List.exists_cons_of_ne_nil hne
  have hc : Text.isBlank c = false := ht c rfl
  cases hfound : gap.find? (fun c => !Text.isBlank c) with
  | none => simp [hfound, hc]
  | some d =>
    have hcomma : d = ',' :=
      (h d (List.mem_of_find?_eq_some hfound)).resolve_right (by simpa using List.find?_some hfound)
    simp [hfound, hcomma]

/-- What a line starts with is a comma or what its first token starts with. -/
theorem head?_trim_gap_append (h : IsGap gap) (hne : t ≠ [])
    (ht : ∀ c ∈ t.head?, Text.isBlank c = false) (rest : List Char) :
    (Text.trim (gap ++ t ++ rest)).head? = some ',' ∨
      (Text.trim (gap ++ t ++ rest)).head? = t.head? := by
  rw [Text.head?_trim]
  exact find?_gap_append h hne ht rest

/-- What a line ends in is a comma or what its last token ends in. -/
theorem getLast?_trim_append_gap (h : IsGap gap) (hne : t ≠ [])
    (ht : ∀ c ∈ t.getLast?, Text.isBlank c = false) (before : List Char) :
    (Text.trim (before ++ t ++ gap)).getLast? = some ',' ∨
      (Text.trim (before ++ t ++ gap)).getLast? = t.getLast? := by
  rw [Text.getLast?_trim, List.reverse_append, List.reverse_append, ← List.head?_reverse,
    ← List.append_assoc]
  exact find?_gap_append (fun c hc => h c (List.mem_reverse.1 hc)) (by simpa using hne)
    (by simpa using ht) _

theorem IsToken.not_blank (h : IsToken t) : ∀ c ∈ t, Text.isBlank c = false :=
  fun c hc => (Bool.or_eq_false_iff.1 (h.2 c hc)).2

theorem Spells.exists_eq_append (h : Spells ts text) :
    (∃ t rest, ts.head? = some t ∧ IsToken t ∧ text = t ++ rest) ∧
    ∃ before t gap, ts.getLast? = some t ∧ IsToken t ∧ IsGap gap ∧ text = before ++ t ++ gap := by
  induction h with
  | @last t gap ht hgap => exact ⟨⟨t, gap, rfl, ht, rfl⟩, [], t, gap, rfl, ht, hgap, rfl⟩
  | @more t gap ts text ht hgap _ hrest ih =>
    obtain ⟨-, before, u, gap', hlast, hu, hgap', rfl⟩ := ih
    refine ⟨⟨t, _, rfl, ht, List.append_assoc ..⟩, t ++ gap ++ before, u, gap', ?_, hu, hgap',
      by simp only [List.append_assoc]⟩
    rw [List.getLast?_cons, hlast]
    rfl

theorem ne_semicolon_of_isGap (h : IsGap gap) : ∀ c ∈ gap, c ≠ ';' := by
  intro c hc
  rcases h c hc with rfl | hblank
  · decide
  · exact ne_semicolon_of_isBlank hblank

theorem Spells.ne_semicolon (h : Spells ts text) (hts : ∀ t ∈ ts, ';' ∉ t) :
    ∀ c ∈ text, c ≠ ';' := by
  induction h with
  | @last t gap _ hgap =>
    have ht := hts t List.mem_cons_self
    exact List.forall_mem_append.2
      ⟨fun c hc => ne_of_mem_of_not_mem hc ht, ne_semicolon_of_isGap hgap⟩
  | @more t gap ts text _ hgap _ _ ih =>
    obtain ⟨ht, hts⟩ := List.forall_mem_cons.1 hts
    exact List.forall_mem_append.2 ⟨List.forall_mem_append.2
      ⟨fun c hc => ne_of_mem_of_not_mem hc ht, ne_semicolon_of_isGap hgap⟩, ih hts⟩

/-- Tokens with commas and space around them and a comment behind them are an instruction. -/
theorem ofLine_of_spells (h : Spells (mnemonic :: operands) text) (hbefore : IsGap before)
    (hcomment : IsComment comment) (hsemicolon : ∀ t ∈ mnemonic :: operands, ';' ∉ t)
    (hdot : mnemonic.head? ≠ some '.') (hcolon : mnemonic.getLast? ≠ some ':')
    (hlast : ∀ t ∈ (mnemonic :: operands).getLast?, t.getLast? ≠ some ':') :
    ofLine (before ++ text ++ comment) =
      .ok (.instruction (String.ofList mnemonic) (operands.map String.ofList)) := by
  have htokens : tokens (Text.trim (before ++ text)) = mnemonic :: operands := by
    rw [tokens_trim, tokens_gap_append hbefore, h.tokens_eq]
  have hnil : Text.trim (before ++ text) ≠ [] := by
    intro hnil
    rw [hnil, tokens_nil] at htokens
    cases htokens
  obtain ⟨⟨t, rest, hfirst, ht, htext⟩, start, u, gap, hend, hu, hgap, htext'⟩ := h.exists_eq_append
  obtain rfl := Option.some.inj hfirst
  -- A comma in front is seen first; else it is the mnemonic, which has no point there.
  have hhead : (Text.trim (before ++ text)).head? ≠ some '.' := by
    have hseen := head?_trim_gap_append hbefore ht.1
      (fun c hc => ht.not_blank c (List.mem_of_mem_head? hc)) rest
    rw [List.append_assoc, ← htext] at hseen
    rcases hseen with hcomma | hseen
    · rw [hcomma]
      decide
    · rwa [hseen]
  have hcolon' : (Text.trim (before ++ text)).getLast? ≠ some ':' := by
    have hseen := getLast?_trim_append_gap hgap hu.1
      (fun c hc => hu.not_blank c (List.mem_of_mem_getLast? hc)) (before ++ start)
    rw [List.append_assoc, List.append_assoc, ← List.append_assoc start, ← htext'] at hseen
    rcases hseen with hcomma | hseen
    · rw [hcomma]
      decide
    · rw [hseen]
      exact hlast u hend
  have hvisible : ∀ c ∈ before ++ text, c ≠ ';' :=
    List.forall_mem_append.2 ⟨ne_semicolon_of_isGap hbefore, h.ne_semicolon hsemicolon⟩
  rw [ofLine, takeWhile_append_comment hvisible hcomment,
    ofText_eq_ofInstruction hnil hcolon' hhead, ofInstruction_of_tokens htokens hcolon]

/-! ## Data -/

/-- The text can stand between commas as a value. -/
structure IsValue (v : List Char) : Prop where
  ne_nil : v ≠ []
  not_mem_comma : ',' ∉ v
  not_mem_semicolon : ';' ∉ v
  head : ∀ c ∈ v.head?, Text.isBlank c = false
  last : ∀ c ∈ v.getLast?, Text.isBlank c = false

/-- The text is the values with single commas between them and any space around each. -/
inductive SpellsValues : List (List Char) → List Char → Prop
  | last {before v behind : List Char} :
    IsSpace before → IsValue v → IsSpace behind → SpellsValues [v] (before ++ v ++ behind)
  | more {before v behind : List Char} {vs : List (List Char)} {text : List Char} :
    IsSpace before → IsValue v → IsSpace behind → SpellsValues vs text →
    SpellsValues (v :: vs) (before ++ v ++ behind ++ ',' :: text)

variable {v behind : List Char}

theorem IsValue.trim_eq (hv : IsValue v) (hbefore : IsSpace before) (hbehind : IsSpace behind) :
    Text.trim (before ++ v ++ behind) = v := by
  rw [Text.trim_append_blank hbehind, Text.trim_blank_append hbefore,
    Text.trim_eq_self hv.head hv.last]

theorem IsValue.ne_comma (hv : IsValue v) (hbefore : IsSpace before) (hbehind : IsSpace behind) :
    ∀ c ∈ before ++ v ++ behind, (c == ',') = false := by
  have hspace : ∀ c, Text.isBlank c = true → (c == ',') = false := by
    intro c hc
    rw [beq_eq_false_iff_ne]
    rintro rfl
    revert hc
    decide
  refine List.forall_mem_append.2 ⟨List.forall_mem_append.2 ⟨?_, fun c hc => ?_⟩, ?_⟩
  · exact fun c hc => hspace c (hbefore c hc)
  · rw [beq_eq_false_iff_ne]
    exact ne_of_mem_of_not_mem hc hv.not_mem_comma
  · exact fun c hc => hspace c (hbehind c hc)

/-- Values are found again whatever space is around them. -/
theorem SpellsValues.map_trim_splitOnP (h : SpellsValues values text) :
    (text.splitOnP (· == ',')).map Text.trim = values := by
  induction h with
  | last hbefore hv hbehind =>
    rw [List.splitOnP_eq_singleton (hv.ne_comma hbefore hbehind), List.map_singleton,
      hv.trim_eq hbefore hbehind]
  | more hbefore hv hbehind _ ih =>
    rw [List.splitOnP_append_cons (p := (· == ',')) _ _ rfl,
      List.splitOnP_eq_singleton (hv.ne_comma hbefore hbehind), List.singleton_append,
      List.map_cons, hv.trim_eq hbefore hbehind, ih]

/-- Without the space at its start a text spells the same values. -/
theorem SpellsValues.trimStart (h : SpellsValues values text) :
    SpellsValues values (Text.trimStart text) := by
  have hvalue : ∀ {before v : List Char} (rest : List Char), IsSpace before → IsValue v →
      Text.trimStart (before ++ v ++ rest) = [] ++ v ++ rest := by
    intro before v rest hbefore hv
    obtain ⟨c, v, rfl⟩ := List.exists_cons_of_ne_nil hv.ne_nil
    rw [List.append_assoc, Text.trimStart_append, if_pos (Text.trimStart_eq_nil_iff.2 hbefore)]
    exact Text.trimStart_eq_self hv.head
  cases h with
  | last hbefore hv hbehind =>
    rw [hvalue _ hbefore hv]
    exact .last (List.forall_mem_nil _) hv hbehind
  | more hbefore hv hbehind hrest =>
    rw [List.append_assoc, hvalue _ hbefore hv, ← List.append_assoc]
    exact .more (List.forall_mem_nil _) hv hbehind hrest

/-- Without the space at its end a text spells the same values. -/
theorem SpellsValues.trimEnd (h : SpellsValues values text) :
    SpellsValues values (Text.trimEnd text) := by
  induction h with
  | @last before v behind hbefore hv hbehind =>
    have hend : Text.trimEnd (before ++ v ++ behind) = before ++ v ++ [] := by
      rw [Text.trimEnd_append, if_pos (Text.trimEnd_eq_nil_iff.2 hbehind), List.append_nil]
      refine Text.trimEnd_eq_self ?_
      rw [List.getLast?_append_of_ne_nil _ hv.ne_nil]
      exact hv.last
    rw [hend]
    exact .last hbefore hv (List.forall_mem_nil _)
  | more hbefore hv hbehind _ ih =>
    -- Trimming stops at the last comma at the latest.
    rw [Text.trimEnd_append, Text.trimEnd_cons (by decide), if_neg (List.cons_ne_nil _ _)]
    exact .more hbefore hv hbehind ih

theorem SpellsValues.trim (h : SpellsValues values text) : SpellsValues values (Text.trim text) :=
  h.trimStart.trimEnd

theorem SpellsValues.ne_nil (h : SpellsValues values text) : text ≠ [] := by
  cases h with
  | last _ hv _ => simp [hv.ne_nil]
  | more _ hv _ _ => simp

theorem SpellsValues.isValue (h : SpellsValues values text) : ∀ v ∈ values, IsValue v := by
  induction h with
  | last _ hv _ => simpa using hv
  | more _ hv _ _ ih => exact List.forall_mem_cons.2 ⟨hv, ih⟩

theorem SpellsValues.ne_semicolon (h : SpellsValues values text) : ∀ c ∈ text, c ≠ ';' := by
  have hvalue : ∀ {before v behind : List Char}, IsSpace before → IsValue v → IsSpace behind →
      ∀ c ∈ before ++ v ++ behind, c ≠ ';' := by
    intro before v behind hbefore hv hbehind
    have hv : ∀ c ∈ v, c ≠ ';' := fun c hc => ne_of_mem_of_not_mem hc hv.not_mem_semicolon
    exact List.forall_mem_append.2
      ⟨List.forall_mem_append.2 ⟨hbefore.ne_semicolon, hv⟩, hbehind.ne_semicolon⟩
  induction h with
  | last hbefore hv hbehind => exact hvalue hbefore hv hbehind
  | more hbefore hv hbehind _ ih =>
    exact List.forall_mem_append.2 ⟨hvalue hbefore hv hbehind,
      List.forall_mem_cons.2 ⟨by decide, ih⟩⟩

theorem SpellsValues.exists_eq_append (h : SpellsValues values text) :
    ∃ before v behind, values.getLast? = some v ∧ IsValue v ∧ IsSpace behind ∧
      text = before ++ v ++ behind := by
  induction h with
  | @last before v behind _ hv hbehind => exact ⟨before, v, behind, rfl, hv, hbehind, rfl⟩
  | @more before v behind vs text _ _ _ _ ih =>
    obtain ⟨start, u, gap, hlast, hu, hgap, rfl⟩ := ih
    refine ⟨before ++ v ++ behind ++ ',' :: start, u, gap, ?_, hu, hgap, by simp⟩
    rw [List.getLast?_cons, hlast]
    rfl

theorem ofData_of_spellsValues (h : SpellsValues values text) :
    ofData text = .ok (.data (values.map String.ofList)) := by
  have hne : ¬values.any List.isEmpty = true := by
    rw [List.any_eq_true]
    rintro ⟨v, hv, hempty⟩
    exact (h.isValue v hv).ne_nil (List.isEmpty_iff.1 hempty)
  rw [ofData, h.map_trim_splitOnP]
  exact if_neg hne

/-- A name that is `.word` in some letter case starts with the point, and all of it is seen. -/
theorem visible_of_upper_eq_word {name : List Char} (h : Text.upper name = ".WORD".toList) :
    name.head? = some '.' ∧ ∀ c ∈ name, Text.isBlank c = false ∧ c ≠ ';' := by
  constructor
  · have hhead : name.head?.map Char.toUpper = some '.' :=
      List.head?_map.symm.trans (congrArg List.head? h)
    obtain ⟨c, hc, hpoint⟩ := Option.map_eq_some_iff.1 hhead
    rw [hc]
    exact (Text.eq_or_eq_of_toUpper_eq hpoint).elim (congrArg some) (congrArg some)
  · intro c hc
    have hletters : ∀ x ∈ ".WORD".toList, (Text.isBlank x = false ∧ x ≠ ';') ∧
        Text.isBlank x.toLower = false ∧ x.toLower ≠ ';' := by
      intro x hx
      obtain rfl | rfl | rfl | rfl | rfl : x = '.' ∨ x = 'W' ∨ x = 'O' ∨ x = 'R' ∨ x = 'D' := by
        simpa using hx
      all_goals decide
    obtain ⟨hcapital, hsmall⟩ := hletters c.toUpper (h ▸ List.mem_map_of_mem hc)
    rcases Text.eq_or_eq_of_toUpper_eq (c := c) rfl with heq | heq
    · rwa [heq]
    · rwa [heq]

/-- Values with commas between them, any space around each and a comment behind them are data, with
    `.word` in front of them in any letter case. -/
theorem ofLine_of_spellsValues {name : List Char} (hname : Text.upper name = ".WORD".toList)
    (hbefore : IsSpace before) (hgap : IsSpace gap) (hne : gap ≠ [])
    (h : SpellsValues values text) (hcomment : IsComment comment)
    (hlast : ∀ v ∈ values.getLast?, v.getLast? ≠ some ':') :
    ofLine (before ++ (name ++ gap ++ text) ++ comment) =
      .ok (.data (values.map String.ofList)) := by
  obtain ⟨hpoint, hvisible⟩ := visible_of_upper_eq_word hname
  have hsemicolon : ∀ c ∈ before ++ (name ++ gap ++ text), c ≠ ';' := by
    have hname : ∀ c ∈ name, c ≠ ';' := fun c hc => (hvisible c hc).2
    exact List.forall_mem_append.2 ⟨hbefore.ne_semicolon, List.forall_mem_append.2
      ⟨List.forall_mem_append.2 ⟨hname, hgap.ne_semicolon⟩, h.ne_semicolon⟩⟩
  have hhead : ∀ rest, (name ++ gap ++ rest).head? = some '.' := by
    intro rest
    rw [List.append_assoc, List.head?_append, hpoint]
    rfl
  have htrim : Text.trim (before ++ (name ++ gap ++ text)) = name ++ gap ++ Text.trimEnd text := by
    have hstart : Text.trimStart (name ++ gap ++ text) = name ++ gap ++ text := by
      refine Text.trimStart_eq_self ?_
      rw [hhead]
      rintro _ ⟨⟩
      decide
    rw [Text.trim_blank_append hbefore, Text.trim, hstart, Text.trimEnd_append,
      if_neg h.trimEnd.ne_nil]
  -- The line ends as its last value does, so that it declares no label.
  have hcolon : (Text.trim (before ++ (name ++ gap ++ text))).getLast? ≠ some ':' := by
    obtain ⟨start, v, behind, hv, hvalue, hbehind, htext⟩ := h.exists_eq_append
    have hseen := getLast?_trim_append_gap hbehind.isGap hvalue.ne_nil
      hvalue.last (before ++ (name ++ gap) ++ start)
    have hsplit : before ++ (name ++ gap) ++ start ++ v ++ behind =
        before ++ (name ++ gap ++ text) := by simp [htext]
    rw [hsplit] at hseen
    rcases hseen with hcomma | hseen
    · rw [hcomma]
      decide
    · rw [hseen]
      exact hlast v hv
  have hnil : ¬(name ++ gap ++ Text.trimEnd text).isEmpty = true := by simp [hne]
  rw [htrim] at hcolon
  rw [ofLine, takeWhile_append_comment hsemicolon hcomment, htrim, ofText, if_neg hnil,
    if_neg hcolon, if_pos (hhead _),
    ofDirective_append_blank (fun c hc => (hvisible c hc).1) hgap hne, hname, if_neg (by decide),
    if_pos rfl, ofData_of_spellsValues h.trimEnd.trim]

/-! ## Every way of writing -/

/-- Every way of writing a statement is read as that statement: an instruction with any commas and
    space around its tokens, and data with any space around its values, each with any comment
    behind it. -/
theorem ofLine_spelled (hcomment : IsComment comment) :
    (∀ before mnemonic operands text, IsGap before → Spells (mnemonic :: operands) text →
      (∀ t ∈ mnemonic :: operands, ';' ∉ t) →
      mnemonic.head? ≠ some '.' → mnemonic.getLast? ≠ some ':' →
      (∀ t ∈ (mnemonic :: operands).getLast?, t.getLast? ≠ some ':') →
      ofLine (before ++ text ++ comment) =
        .ok (.instruction (String.ofList mnemonic) (operands.map String.ofList))) ∧
    ∀ before name gap values text, IsSpace before → Text.upper name = ".WORD".toList →
      IsSpace gap → gap ≠ [] → SpellsValues values text →
      (∀ v ∈ values.getLast?, v.getLast? ≠ some ':') →
      ofLine (before ++ (name ++ gap ++ text) ++ comment) =
        .ok (.data (values.map String.ofList)) := by
  constructor
  · intro before mnemonic operands text hbefore htext hsemicolon hdot hcolon hlast
    exact ofLine_of_spells htext hbefore hcomment hsemicolon hdot hcolon hlast
  · intro before name gap values text hbefore hname hgap hne htext hlast
    exact ofLine_of_spellsValues hname hbefore hgap hne htext hcomment hlast

/-- Commas in front of an instruction, behind it and in a row, a colon in it, wide space, and what
    looks like a declaration in the comment. -/
theorem ofLine_spelled_wide :
    ofLine ", \u3000mov,, r1:a\u00a0,.b ,;x:".toList = .ok (.instruction "mov" ["r1:a", ".b"]) ∧
    ofLine "\t.wOrd\u00a0 -1 ,\u2003a:\tb\u3000,x;x:".toList =
      .ok (.data ["-1", "a:\tb", "x"]) := by
  have hcomment : IsComment ";x:".toList := .inr rfl
  obtain ⟨hinstruction, hdata⟩ := ofLine_spelled hcomment
  constructor
  · have htext : Spells ["mov".toList, "r1:a".toList, ".b".toList]
        ("mov".toList ++ ",, ".toList ++ ("r1:a".toList ++ "\u00a0,".toList ++
          (".b".toList ++ " ,".toList))) :=
      .more (by decide) (by decide) (by decide)
        (.more (by decide) (by decide) (by decide) (.last (by decide) (by decide)))
    have hline := hinstruction ", \u3000".toList _ _ _ (by decide) htext (by decide) (by decide)
      (by decide) (by decide)
    simpa using hline
  · have hnumber : IsValue "-1".toList :=
      ⟨by decide, by decide, by decide, by rintro _ ⟨⟩; decide, by rintro _ ⟨⟩; decide⟩
    have hwide : IsValue "a:\tb".toList :=
      ⟨by decide, by decide, by decide, by rintro _ ⟨⟩; decide, by rintro _ ⟨⟩; decide⟩
    have hname : IsValue "x".toList :=
      ⟨by decide, by decide, by decide, by rintro _ ⟨⟩; decide, by rintro _ ⟨⟩; decide⟩
    have htext : SpellsValues ["-1".toList, "a:\tb".toList, "x".toList]
        ([] ++ "-1".toList ++ " ".toList ++ ',' :: ("\u2003".toList ++ "a:\tb".toList ++
          "\u3000".toList ++ ',' :: ([] ++ "x".toList ++ []))) :=
      .more (by decide) hnumber (by decide)
        (.more (by decide) hwide (by decide) (.last (by decide) hname (by decide)))
    have hline := hdata "\t".toList ".wOrd".toList "\u00a0 ".toList _ _ (by decide) (by decide)
      (by decide) (by decide) htext (by decide)
    simpa using hline

end WordMachine.Statement
