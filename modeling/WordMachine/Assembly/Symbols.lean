import WordMachine.Assembly.Counter

/-!
# Symbols

The first walk over the lines binds every label to the address at which its line
stands (`bindLabels`). A label keeps its first address, and one past the end of
memory gets none. The faults of this walk are those of lines that say nothing
right and of labels that cannot be bound.
-/

namespace WordMachine

/-- A label, its address, and the line that declares it. -/
structure Symbol where
  name : String
  address : Word
  line : Nat
deriving DecidableEq, Repr

/-- Labels with addresses, in the order of their lines. No name stands twice. -/
abbrev SymbolTable := List Symbol

namespace SymbolTable

/-- The symbol with a name, if there is one. -/
def lookup? (symbols : SymbolTable) (name : String) : Option Symbol :=
  symbols.find? (·.name == name)

/-- The address of a label. -/
def address (symbols : SymbolTable) (name : String) : Except Fault Word :=
  match symbols.lookup? name with
  | some symbol => .ok symbol.address
  | none => .error (.unknownLabel name)

/-- The table with one label more, which a line declares where the address
    counter stands at `counter`. -/
def bind (symbols : SymbolTable) (name : String) (counter line : Nat) :
    Except Fault SymbolTable :=
  match symbols.lookup? name with
  | some first => .error (.duplicateLabel name first.line)
  | none =>
    match address? counter with
    | some address => .ok (symbols ++ [⟨name, address, line⟩])
    | none => .error (.addressOverflow counter)

/-- The symbols in the order of their names. -/
def sorted (symbols : SymbolTable) : List Symbol :=
  symbols.mergeSort fun a b => a.name ≤ b.name

end SymbolTable

/-- The symbols after a line, and the fault it has in the first walk, if any. -/
def SourceLine.bind (symbols : SymbolTable) (counter : Nat) (line : SourceLine) :
    SymbolTable × Option Fault :=
  match line.statement with
  | .error fault => (symbols, some fault)
  | .ok (.label name) =>
    match symbols.bind name counter line.number with
    | .ok symbols => (symbols, none)
    | .error fault => (symbols, some fault)
  | .ok _ => (symbols, none)

/-- The fault of a line, marked with its number. -/
def SourceLine.mark (line : SourceLine) (fault : Option Fault) : List LineFault :=
  (fault.map (⟨line.number, ·⟩)).toList

/-- The symbols of the lines, and the faults of the first walk, in the order of
    the lines. The walk starts with the address counter at `counter`. -/
def bindLabels (declared : List String) (counter : Nat) (symbols : SymbolTable) :
    List SourceLine → SymbolTable × List LineFault
  | [] => (symbols, [])
  | line :: rest =>
    let (symbols, fault) := line.bind symbols counter
    let (symbols, faults) := bindLabels declared (line.next declared counter) symbols rest
    (symbols, line.mark fault ++ faults)

end WordMachine
