import Mathlib.Algebra.Order.BigOperators.Group.List
import Mathlib.Algebra.Order.Ring.Nat
import Mathlib.Data.String.Basic
import WordMachine.Source.Line

/-!
# How much a source can say

The lines of a source have no more characters together than the source (`sum_length_ofSource_le`),
and a line has at least as many characters as it gives values (`length_of_ofLine`): each of them
but the first has a comma before it, and the first one the name of the directive. So how many words
a source can ask for is bounded by its length, whatever it says.
-/

namespace WordMachine

namespace Text

variable {text : List Char}

/-- Pieces and the characters that separate them make up the text. -/
theorem sum_length_splitOnP (p : Char → Bool) (text : List Char) :
    ((text.splitOnP p).map (·.length + 1)).sum = text.length + 1 := by
  induction text with
  | nil => simp
  | cons c text ih =>
    rw [List.splitOnP_cons_eq_if_modifyHead]
    split
    · rw [List.map_cons, List.sum_cons, ih, List.length_cons, List.length_nil]
      omega
    · obtain ⟨piece, pieces, hpieces⟩ := List.exists_cons_of_ne_nil (List.splitOnP_ne_nil p text)
      rw [hpieces, List.map_cons, List.sum_cons] at ih
      rw [hpieces, List.modifyHead_cons, List.map_cons, List.sum_cons, List.length_cons,
        List.length_cons]
      omega

theorem length_splitOnP_le (p : Char → Bool) (text : List Char) :
    (text.splitOnP p).length ≤ text.length + 1 := by
  have hpos : ∀ n ∈ (text.splitOnP p).map (·.length + 1), 1 ≤ n := by simp
  have hlength := List.length_le_sum_of_one_le _ hpos
  rwa [List.length_map, sum_length_splitOnP] at hlength

theorem length_trimStart_le (text : List Char) : (trimStart text).length ≤ text.length :=
  (List.dropWhile_sublist isBlank).length_le

theorem length_trim_le (text : List Char) : (trim text).length ≤ text.length := by
  have hend := length_trimStart_le (trimStart text).reverse
  have hstart := length_trimStart_le text
  rw [trim, trimEnd, List.length_reverse]
  rw [List.length_reverse] at hend
  omega

theorem length_dropReturn_le (line : List Char) : (dropReturn line).length ≤ line.length := by
  rw [dropReturn]
  split
  · rw [List.length_dropLast]
    omega
  · exact Nat.le_refl _

/-- The lines of a text have no more characters than the text. -/
theorem sum_length_lines_le (text : List Char) :
    ((lines text).map List.length).sum ≤ text.length := by
  have hsum := sum_length_splitOnP (· == '\n') text
  obtain ⟨init, last, hpieces⟩ : ∃ init last, text.splitOnP (· == '\n') = init ++ [last] :=
    ⟨_, _, (List.dropLast_concat_getLast (List.splitOnP_ne_nil _ text)).symm⟩
  have hinit : ((init.map dropReturn).map List.length).sum ≤ (init.map (·.length + 1)).sum := by
    rw [List.map_map]
    exact List.sum_le_sum fun line _ => Nat.le_succ_of_le (length_dropReturn_le line)
  have hlast : (((some last).filter fun line => !line.isEmpty).toList.map List.length).sum
      ≤ last.length := by
    rw [Option.filter_some]
    split <;> simp
  -- A piece is counted with the separator behind it, which the last piece does not have.
  simp only [hpieces, List.map_append, List.map_cons, List.map_nil, List.sum_append_nat,
    List.sum_cons, List.sum_nil] at hsum
  simp only [lines, hpieces, List.dropLast_concat, List.getLast?_concat, List.map_append,
    List.sum_append_nat]
  omega

end Text

namespace Statement

variable {text : List Char} {values : List String}

/-- Values have commas between them, and there is at least one. -/
theorem length_of_ofData (h : ofData text = .ok (.data values)) :
    0 < values.length ∧ values.length ≤ text.length + 1 := by
  simp only [ofData] at h
  split at h
  · cases h
  · obtain rfl := Statement.data.inj (Except.ok.inj h)
    rw [List.length_map, List.length_map]
    exact ⟨List.length_pos_iff.2 (List.splitOnP_ne_nil _ text), Text.length_splitOnP_le _ text⟩

/-- The name of the directive has more than one character. -/
theorem length_of_ofDirective (h : ofDirective text = .ok (.data values)) :
    0 < values.length ∧ values.length ≤ text.length := by
  simp only [ofDirective] at h
  split at h
  · simp only [ofOrigin] at h
    split at h
    · split at h <;> cases h
    · cases h
  · split at h
    · next hname =>
      -- Without the name of the directive, there would be one value more than commas.
      have hlength := congrArg List.length hname
      rw [Text.upper, List.length_map] at hlength
      obtain ⟨hpos, hvalues⟩ := length_of_ofData h
      have htrim := Text.length_trim_le (text.dropWhile fun c => !Text.isBlank c)
      have htext := congrArg List.length
        (List.takeWhile_append_dropWhile (p := fun c => !Text.isBlank c) (l := text))
      rw [List.length_append, hlength] at htext
      have hword : ".WORD".toList.length = 5 := rfl
      omega
    · cases h

theorem ofInstruction_ne_data : ofInstruction text ≠ .ok (.data values) := by
  intro h
  rw [ofInstruction] at h
  split at h
  · cases h
  · split at h <;> cases h

theorem length_of_ofText (h : ofText text = .ok (.data values)) :
    0 < values.length ∧ values.length ≤ text.length := by
  rw [ofText] at h
  split at h
  · cases h
  · split at h
    · simp only [ofLabel] at h
      split at h <;> cases h
    · split at h
      · exact length_of_ofDirective h
      · exact absurd h ofInstruction_ne_data

theorem length_comment_le (line : List Char) :
    (Text.trim (line.takeWhile (· != ';'))).length ≤ line.length :=
  (Text.length_trim_le _).trans (List.takeWhile_sublist _).length_le

/-- A line of data gives a value, and no more of them than it has characters. -/
theorem length_of_ofLine {line : List Char} (h : ofLine line = .ok (.data values)) :
    0 < values.length ∧ values.length ≤ line.length :=
  (length_of_ofText h).imp_right (·.trans (length_comment_le line))

/-- A line that is an instruction has a character. -/
theorem length_pos_of_ofLine {line : List Char} {mnemonic : String} {operands : List String}
    (h : ofLine line = .ok (.instruction mnemonic operands)) : 0 < line.length := by
  rw [ofLine, ofText] at h
  split at h
  · cases h
  · next hempty =>
    have hpos : 0 < (Text.trim (line.takeWhile (· != ';'))).length :=
      List.length_pos_iff.2 fun hnil => hempty (by rw [hnil]; rfl)
    exact Nat.lt_of_lt_of_le hpos (length_comment_le line)

end Statement

/-- A character has at least one byte. -/
theorem length_le_utf8ByteSize (text : String) : text.length ≤ text.utf8ByteSize := by
  obtain ⟨cs, rfl⟩ : ∃ cs, text = String.ofList cs := ⟨_, String.ofList_toList.symm⟩
  rw [String.length_ofList, String.utf8ByteSize_ofList]
  induction cs with
  | nil => exact Nat.le_refl 0
  | cons c cs ih =>
    have hpos := c.utf8Size_pos
    rw [String.utf8Len_cons, List.length_cons]
    omega

namespace SourceLine

/-- The lines of a source have no more characters than the source has bytes. -/
theorem sum_length_ofSource_le (source : String) :
    ((ofSource source).map (·.text.length)).sum ≤ source.utf8ByteSize := by
  have htexts : (ofSource source).map (·.text.length) =
      (Text.lines source.toList).map List.length := by
    rw [ofSource, List.map_map]
    conv_rhs => rw [← List.zipIdx_map_fst 1 (Text.lines source.toList), List.map_map]
    exact List.map_congr_left fun p _ => String.length_ofList
  have hlines := Text.sum_length_lines_le source.toList
  rw [String.length_toList] at hlines
  rw [htexts]
  exact hlines.trans (length_le_utf8ByteSize source)

end SourceLine

end WordMachine
