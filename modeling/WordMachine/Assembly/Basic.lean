import WordMachine.Assembly.Words
import WordMachine.Memory

/-!
# Assembly

From a source text to a memory image (`assemble`), in two walks over the lines.
The first binds the labels; the second, with the address counter started anew,
finds the words of every line, writes them into an image of the memory and makes
a listing of one row for each line. A fault stays with its line: the assembly
goes on, and ends with the faults of all lines, in their order.

The one source that has no assembly is one with a line that is only the name of
a label and stands past the end of memory, not right at it (`Overrun`). Such a
line takes no words, so that there is nothing to find room for, and yet its place is
not one that no words could be copied to.
-/

namespace WordMachine

/-- Where an assembly was given up: a line of which the place is not in memory. -/
structure Overrun where
  line : Nat
  counter : Nat
deriving DecidableEq, Repr

/-- What became of a line. -/
structure Row where
  /-- The number of the line, counted from one. -/
  line : Nat
  /-- Where the line stands, if that is in memory and the line says something. -/
  address : Option Word
  /-- The words that the line puts into memory. -/
  words : List Word
  /-- The text of the line, without its end. -/
  text : String
  fault : Option Fault
deriving DecidableEq, Repr

/-- The words of a row, each with its address. -/
def Row.changes (row : Row) : List Change :=
  match row.address with
  | none => []
  | some start => row.words.zipIdx.map fun (w, i) => ⟨start + BitVec.ofNat 16 i, w⟩

/-- The address that the row of a line shows. -/
def SourceLine.address? (counter : Nat) (line : SourceLine) : Option Word :=
  match line.statement with
  | .error _ => none
  | .ok .blank => none
  | .ok (.origin address) => some address
  | .ok _ => WordMachine.address? counter

/-- The words of a line, or the fault it has in the second walk; none at all if
    the line is not one for words. -/
def SourceLine.words? (scope : Scope) (counter : Nat) (line : SourceLine) :
    Option (Except Fault (List Word)) :=
  match line.statement with
  | .ok (.data values) => some ((Statement.data values).words scope counter)
  | .ok (.instruction mnemonic operands) =>
    some ((Statement.instruction mnemonic operands).words scope counter)
  | _ => none

/-- What the second walk makes of lines. -/
structure Placement where
  memory : Memory
  rows : List Row
  faults : List LineFault

/-- The fault that the first walk found in a line. -/
def earlyFault? (early : List LineFault) (line : SourceLine) : Option Fault :=
  (early.find? (·.line == line.number)).map (·.fault)

/-- The second walk over the lines, over a memory that holds what the lines
    before them put there. -/
def placeWords (scope : Scope) (early : List LineFault) (counter : Nat) (memory : Memory) :
    List SourceLine → Except Overrun Placement
  | [] => .ok ⟨memory, [], []⟩
  | line :: rest => do
    let address := line.address? counter
    let (memory, words, late) ←
      match line.words? scope counter with
      | none => .ok (memory, [], none)
      | some (.error fault) => .ok (memory, [], some fault)
      | some (.ok words) =>
        match memory.copyIn? counter words with
        | some memory => .ok (memory, words, none)
        | none => .error (Overrun.mk line.number counter)
    let row := ⟨line.number, address, words, line.text, late.or (earlyFault? early line)⟩
    let others ← placeWords scope early (line.next scope.declared counter) memory rest
    .ok ⟨others.memory, row :: others.rows, line.mark late ++ others.faults⟩

/-- What becomes of a source text. -/
structure Assembly where
  /-- The memory that the words are written to, zero wherever there are none. -/
  memory : Memory
  symbols : SymbolTable
  /-- The faults, in the order of their lines. -/
  faults : List LineFault
  /-- A row for each line. -/
  listing : List Row

namespace Assembly

/-- Whether no line has a fault. -/
def success (a : Assembly) : Bool := a.faults.isEmpty

/-- The words of all lines with their addresses, in the order of the lines. -/
def changes (a : Assembly) : List Change := a.listing.flatMap Row.changes

/-- The faults in words. -/
def messages (a : Assembly) : List String := a.faults.map LineFault.message

end Assembly

/-- Assembles the lines of a source. -/
def assembleLines (lines : List SourceLine) : Except Overrun Assembly := do
  let declared := SourceLine.declared lines
  let (symbols, early) := bindLabels declared 0 [] lines
  let placement ← placeWords ⟨declared, symbols⟩ early 0 (.filled 0) lines
  let faults := early.merge placement.faults fun a b => a.line ≤ b.line
  .ok ⟨placement.memory, symbols, faults, placement.rows⟩

/-- Assembles a source text. -/
def assemble (source : String) : Except Overrun Assembly :=
  assembleLines (SourceLine.ofSource source)

end WordMachine
