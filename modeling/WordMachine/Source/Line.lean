import WordMachine.Source.Statement
import WordMachine.Text.Line

/-!
# Source lines

A source text as the assembler takes it: its lines, numbered from one, each with
what it says.
-/

namespace WordMachine

/-- A line of source text. -/
structure SourceLine where
  /-- The number of the line, counted from one. -/
  number : Nat
  /-- The text of the line, without its end. -/
  text : String
  /-- What the line says, or why it says nothing right. -/
  statement : Except Fault Statement

namespace SourceLine

/-- The lines of a source text. -/
def ofSource (source : String) : List SourceLine :=
  ((Text.lines source.toList).zipIdx 1).map fun (line, number) =>
    ⟨number, String.ofList line, Statement.ofLine line⟩

/-- The name of the label that a line declares, if it declares one. -/
def label? (line : SourceLine) : Option String :=
  match line.statement with
  | .ok (.label name) => some name
  | _ => none

/-- The names of the labels that some line declares. -/
def declared (lines : List SourceLine) : List String := lines.filterMap label?

end SourceLine

end WordMachine
