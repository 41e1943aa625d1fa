import WordMachine.Instruction.Mnemonic
import WordMachine.Source.Line

/-!
# The address counter

Lines are assembled one after another, each at the place where the address
counter stands. A line advances the counter by the words it takes, whether or not it
is right, so that one wrong line moves no other.

A line that holds nothing but the name of a label declared somewhere is allowed
and takes no words, unless the name is a mnemonic.
-/

namespace WordMachine

/-- Whether a mnemonic and its operands are only the name of a declared label. -/
def isBareLabel (declared : List String) (mnemonic : String) (operands : List String) : Bool :=
  (Mnemonic.find? mnemonic).isNone && operands.isEmpty && declared.contains mnemonic

/-- The number of words a statement takes. -/
def Statement.size (declared : List String) : Statement → Nat
  | data values => values.length
  | instruction mnemonic operands => if isBareLabel declared mnemonic operands then 0 else 1
  | _ => 0

/-- Where the address counter stands after a line. -/
def SourceLine.next (declared : List String) (counter : Nat) (line : SourceLine) : Nat :=
  match line.statement with
  | .error _ => counter
  | .ok (.origin address) => address.toNat
  | .ok statement => counter + statement.size declared

/-- The address at which the counter stands, unless that is past the end of memory. -/
def address? (counter : Nat) : Option Word :=
  if counter < 0x10000 then some (BitVec.ofNat 16 counter) else none

end WordMachine
