import WordMachine.Proofs.Text.Blank
import WordMachine.Source.Statement

/-!
# What a line does not say

A comment and the space at the ends of a line say nothing: a line says the same with and without
them (`ofLine_of_alike`), and one in which there is nothing else is blank (`ofLine_of_isUnseen`).
-/

namespace WordMachine.Statement

variable {line line' text comment ws : List Char}

/-- The text is only space. -/
def IsSpace (ws : List Char) : Prop := ∀ c ∈ ws, Text.isBlank c = true

instance : DecidablePred IsSpace := fun ws =>
  List.decidableBAll (fun c => Text.isBlank c = true) ws

/-- The text is a comment, or nothing at all. -/
def IsComment (text : List Char) : Prop := text = [] ∨ text.head? = some ';'

/-- The line is space and maybe a comment behind it. -/
def IsUnseen (line : List Char) : Prop :=
  ∃ ws comment, line = ws ++ comment ∧ IsSpace ws ∧ IsComment comment

/-- The lines differ at most in comments behind them, and in space at their ends. -/
inductive Alike : List Char → List Char → Prop
  | comment (line rest : List Char) : Alike line (line ++ ';' :: rest)
  | space {before behind : List Char} (line : List Char) :
    IsSpace before → IsSpace behind → Alike line (before ++ line ++ behind)
  | symm {line line' : List Char} : Alike line line' → Alike line' line
  | trans {first second third : List Char} :
    Alike first second → Alike second third → Alike first third

theorem Alike.refl (line : List Char) : Alike line line := by
  simpa using Alike.space line (List.forall_mem_nil _) (List.forall_mem_nil _)

theorem ne_semicolon_of_isBlank {c : Char} (h : Text.isBlank c = true) : c ≠ ';' := by
  rintro rfl
  revert h
  decide

theorem IsSpace.ne_semicolon (h : IsSpace ws) : ∀ c ∈ ws, c ≠ ';' :=
  fun c hc => ne_semicolon_of_isBlank (h c hc)

/-- What stands before a comment is kept, if it does not start one itself. -/
theorem takeWhile_append_comment (htext : ∀ c ∈ text, c ≠ ';') (hcomment : IsComment comment) :
    (text ++ comment).takeWhile (· != ';') = text := by
  have hnone : comment.takeWhile (· != ';') = [] := by
    rcases hcomment with rfl | hhead
    · rfl
    · obtain ⟨rest, rfl⟩ := List.head?_eq_some_iff.1 hhead
      exact List.takeWhile_cons_of_neg (by decide)
  rw [List.takeWhile_append_of_pos (by simpa using htext), hnone, List.append_nil]

/-- Behind a line nothing is seen but what stands there before a comment and is no space. -/
theorem ofLine_append_unseen {rest : List Char}
    (h : IsSpace (rest.takeWhile (· != ';'))) (line : List Char) :
    ofLine (line ++ rest) = ofLine line := by
  rw [ofLine, ofLine, List.takeWhile_append]
  split
  · next hall =>
    -- The line has no comment of its own, so that all of it comes before the rest.
    have hline : line.takeWhile (· != ';') = line := (List.takeWhile_prefix _).eq_of_length hall
    rw [hline, Text.trim_append_blank h]
  · rfl

theorem ofLine_append_comment (line rest : List Char) :
    ofLine (line ++ ';' :: rest) = ofLine line := by
  refine ofLine_append_unseen ?_ line
  rw [List.takeWhile_cons_of_neg (by decide)]
  exact List.forall_mem_nil _

theorem ofLine_append_blank (hws : IsSpace ws) (line : List Char) :
    ofLine (line ++ ws) = ofLine line :=
  ofLine_append_unseen (fun c hc => hws c ((List.takeWhile_sublist _).subset hc)) line

theorem ofLine_blank_append (hws : IsSpace ws) (line : List Char) :
    ofLine (ws ++ line) = ofLine line := by
  rw [ofLine, ofLine, List.takeWhile_append_of_pos fun c hc => bne_iff_ne.2 (hws.ne_semicolon c hc),
    Text.trim_blank_append hws]

/-- Lines that differ only in comments and in space say the same. -/
theorem ofLine_of_alike (h : Alike line line') : ofLine line' = ofLine line := by
  induction h with
  | comment line rest => exact ofLine_append_comment line rest
  | space line hbefore hbehind =>
    rw [List.append_assoc, ofLine_blank_append hbefore, ofLine_append_blank hbehind]
  | symm _ ih => exact ih.symm
  | trans _ _ ihfirst ihsecond => exact ihsecond.trans ihfirst

/-- A line with nothing but space and a comment says nothing. -/
theorem ofLine_of_isUnseen (h : IsUnseen line) : ofLine line = .ok .blank := by
  obtain ⟨ws, comment, rfl, hws, hcomment⟩ := h
  rw [ofLine, takeWhile_append_comment hws.ne_semicolon hcomment,
    Text.trim_eq_nil_of_forall_blank hws]
  rfl

end WordMachine.Statement
