import WordMachine.Assembly.Operands

/-!
# The words of a statement

What a statement puts into memory (`Statement.words`), once all labels are
bound. Either all its words are right and fit below the end of memory, or it has
a fault and puts nothing there.
-/

namespace WordMachine

/-- The names that the second walk over the lines looks up: the labels that are
    declared, and the labels that have an address. -/
structure Scope where
  declared : List String
  symbols : SymbolTable

/-- The word that a token of data gives: a number, of which the low bits are
    taken, or the address of a label. -/
def dataWord (symbols : SymbolTable) (token : String) : Except Fault Word :=
  match Numeral.literal? token with
  | some n => .ok (BitVec.ofInt 16 n)
  | none =>
    if Statement.isName token.toList then symbols.address token
    else .error (.invalidImmediate token .numberOrLabel)

/-- The words of a mnemonic and its operands. -/
def instructionWords (scope : Scope) (counter : Nat) (mnemonic : String)
    (operands : List String) : Except Fault (List Word) :=
  match Mnemonic.find? mnemonic with
  | some m => do
    let instruction ← m.instruction scope.symbols counter operands
    let word ← instruction.encode
    .ok [word]
  | none =>
    if isBareLabel scope.declared mnemonic operands then .ok []
    else .error (.unknownInstruction mnemonic)

/-- The words of a statement at the place where the address counter stands, if
    there are addresses for all of them. -/
def Statement.words (scope : Scope) (counter : Nat) (s : Statement) : Except Fault (List Word) :=
  let size := s.size scope.declared
  if 0 < size ∧ 0x10000 < counter + size then .error (.addressOverflow (counter + size - 1))
  else
    match s with
    | data values => values.mapM (dataWord scope.symbols)
    | instruction mnemonic operands => instructionWords scope counter mnemonic operands
    | _ => .ok []

end WordMachine
