import Mathlib.Data.List.Infix
import WordMachine.Source.Line

/-!
# Lines that are joined

Texts that are not empty and have no line's end in them, with line feeds between them, are the
lines of the source that they make (`ofSource_intercalate`). Where there is a line feed behind each
of them, they may be empty as well (`ofSource_join`).

The lines of a source are its texts with numbers from one on. Texts with numbers from any other on
are lines as well (`SourceLine.ofTexts`), such as those that stand behind others in a source
(`SourceLine.ofTexts_append`) or in a source behind another one (`SourceLine.ofSource_append`).
-/

namespace WordMachine

namespace Text

variable {line : List Char} {ls : List (List Char)}

/-- The text can stand as one line of a source, up to the line's end. -/
def IsLine (line : List Char) : Prop := line ≠ [] ∧ '\n' ∉ line ∧ line.getLast? ≠ some '\r'

/-- No character below the space ends a line. -/
theorem isLine_of_forall_le (hne : line ≠ []) (h : ∀ c ∈ line, 0x20 ≤ c.toNat) : IsLine line := by
  refine ⟨hne, fun hfeed => absurd (h '\n' hfeed) (by decide), fun hreturn => ?_⟩
  exact absurd (h '\r' (List.mem_of_mem_getLast? hreturn)) (by decide)

theorem dropReturn_of_isLine (h : IsLine line) : dropReturn line = line := by
  rw [dropReturn, if_neg h.2.2]

/-- Lines with line feeds between them are found again. -/
theorem lines_intercalate (h : ∀ line ∈ ls, IsLine line) : lines (['\n'].intercalate ls) = ls := by
  by_cases hls : ls = []
  · subst hls
    simp [lines]
  · have hpieces : (['\n'].intercalate ls).splitOnP (· == '\n') = ls := by
      rw [← List.splitOn_eq_splitOnP,
        List.splitOn_intercalate '\n' (fun line hline => (h line hline).2.1) hls]
    have hinit : ls.dropLast.map dropReturn = ls.dropLast := by
      refine (List.map_congr_left fun line hline => ?_).trans (List.map_id _)
      exact dropReturn_of_isLine (h line (List.mem_of_mem_dropLast hline))
    have hlast : ls.getLast?.filter (fun line => !line.isEmpty) = some (ls.getLast hls) := by
      rw [List.getLast?_eq_some_getLast hls, Option.filter_some, if_pos]
      simpa using (h _ (List.getLast_mem hls)).1
    simp only [lines, hpieces, hinit, hlast, Option.toList_some,
      List.dropLast_concat_getLast]

/-- A text up to a line feed and what comes behind it have their lines apart. -/
theorem lines_append_feed (cs rest : List Char) :
    lines (cs ++ '\n' :: rest) =
      (cs.splitOnP (· == '\n')).map dropReturn ++ lines rest := by
  have hne := List.splitOnP_ne_nil (· == '\n') rest
  have hpieces : (cs ++ '\n' :: rest).splitOnP (· == '\n') =
      cs.splitOnP (· == '\n') ++ rest.splitOnP (· == '\n') :=
    List.splitOnP_append_cons cs rest (beq_self_eq_true '\n')
  simp only [lines, hpieces, List.getLast?_append_of_ne_nil _ hne,
    List.dropLast_append_of_ne_nil hne, List.map_append, List.append_assoc]

/-- Lines with a line feed behind each of them are found again. -/
theorem lines_flatMap_feed (h : ∀ line ∈ ls, '\n' ∉ line ∧ line.getLast? ≠ some '\r') :
    lines (ls.flatMap (· ++ ['\n'])) = ls := by
  induction ls with
  | nil => simp [lines]
  | cons line ls ih =>
    obtain ⟨⟨hfeed, hreturn⟩, hls⟩ := List.forall_mem_cons.1 h
    have hpieces : line.splitOnP (· == '\n') = [line] :=
      List.splitOnP_eq_singleton fun c hc => by simpa using ne_of_mem_of_not_mem hc hfeed
    rw [List.flatMap_cons, List.append_assoc, List.singleton_append, lines_append_feed, hpieces,
      ih hls, List.map_singleton, dropReturn, if_neg hreturn, List.singleton_append]

/-- A text that is empty or ends in a line feed shares no line with what comes behind it. -/
theorem lines_append {cs : List Char} (h : cs = [] ∨ cs.getLast? = some '\n') (rest : List Char) :
    lines (cs ++ rest) = lines cs ++ lines rest := by
  rcases h with rfl | h
  · simp [lines]
  · obtain ⟨init, rfl⟩ := List.getLast?_eq_some_iff.1 h
    rw [List.append_assoc, List.singleton_append, lines_append_feed, lines_append_feed]
    simp [lines]

end Text

namespace SourceLine

/-- Texts as lines, the first of which has the number `first`. -/
def ofTexts (first : Nat) (texts : List (List Char)) : List SourceLine :=
  (texts.zipIdx first).map fun (text, number) =>
    ⟨number, String.ofList text, Statement.ofLine text⟩

theorem ofSource_eq_ofTexts (source : String) :
    ofSource source = ofTexts 1 (Text.lines source.toList) := rfl

theorem length_ofTexts (first : Nat) (texts : List (List Char)) :
    (ofTexts first texts).length = texts.length := by
  rw [ofTexts, List.length_map, List.length_zipIdx]

theorem ofTexts_cons (first : Nat) (text : List Char) (texts : List (List Char)) :
    ofTexts first (text :: texts) =
      ⟨first, String.ofList text, Statement.ofLine text⟩ :: ofTexts (first + 1) texts := rfl

theorem ofTexts_append (first : Nat) (texts others : List (List Char)) :
    ofTexts first (texts ++ others) =
      ofTexts first texts ++ ofTexts (first + texts.length) others := by
  rw [ofTexts, List.zipIdx_append, List.map_append]
  rfl

/-- A line of a source stands between those before it and those behind it. -/
theorem ofSource_eq_append {source : String} {before behind : List (List Char)} {text : List Char}
    (h : Text.lines source.toList = before ++ text :: behind) :
    ofSource source = ofTexts 1 before ++
      ⟨1 + before.length, String.ofList text, Statement.ofLine text⟩ ::
        ofTexts (1 + before.length + 1) behind := by
  rw [ofSource_eq_ofTexts, h, ofTexts_append, ofTexts_cons]

/-- The lines of a source behind another one, which ends in a line feed if it is not empty. -/
theorem ofSource_append {first second : String}
    (h : first = "" ∨ first.toList.getLast? = some '\n') :
    ofSource (first ++ second) =
      ofSource first ++ ofTexts (1 + (ofSource first).length) (Text.lines second.toList) := by
  rw [ofSource_eq_ofTexts, ofSource_eq_ofTexts, length_ofTexts, String.toList_append,
    Text.lines_append (h.imp_left String.toList_eq_nil_iff.2), ofTexts_append]

theorem ofSource_of_lines {source : String} {texts : List String}
    (h : Text.lines source.toList = texts.map String.toList) :
    ofSource source =
      (texts.zipIdx 1).map fun (text, number) => ⟨number, text, Statement.ofLine text.toList⟩ := by
  rw [ofSource, h, List.zipIdx_map, List.map_map]
  refine List.map_congr_left fun p _ => ?_
  simp

/-- The lines of a source that is made of lines. -/
theorem ofSource_intercalate {texts : List String} (h : ∀ text ∈ texts, Text.IsLine text.toList) :
    ofSource ("\n".intercalate texts) =
      (texts.zipIdx 1).map fun (text, number) => ⟨number, text, Statement.ofLine text.toList⟩ := by
  refine ofSource_of_lines ?_
  rw [String.toList_intercalate]
  exact Text.lines_intercalate (by simpa using h)

/-- The lines of a source that is made of lines with their ends. -/
theorem ofSource_join {texts : List String}
    (h : ∀ text ∈ texts, '\n' ∉ text.toList ∧ text.toList.getLast? ≠ some '\r') :
    ofSource (String.join (texts.map (· ++ "\n"))) =
      (texts.zipIdx 1).map fun (text, number) => ⟨number, text, Statement.ofLine text.toList⟩ := by
  refine ofSource_of_lines ?_
  have hends : (String.join (texts.map (· ++ "\n"))).toList =
      (texts.map String.toList).flatMap (· ++ ['\n']) := by
    rw [String.toList_join, List.flatMap_map, List.flatMap_map]
    exact List.flatMap_congr fun text _ => String.toList_append
  rw [hends]
  exact Text.lines_flatMap_feed (by simpa using h)

end SourceLine

end WordMachine
