import WordMachine.Instruction.Basic

/-!
# Arithmetic

The operations on words (`AluOp.apply`, `ShiftOp.apply`), with what they say to
the flags: whether a bit was carried out of the word, and whether the result,
read with sign, is not that of the operation on signed numbers.
-/

namespace WordMachine

/-- A result with what it says to the flags. -/
structure Result where
  value : Word
  overflow : Bool := false
  carry : Bool := false
deriving DecidableEq, Repr

/-- An operation on two words. A sum carries if it has become less than a term,
    and a difference borrows if more is taken than there is. Signed numbers
    overflow if the result's sign is that of no sum, or no difference, of
    numbers with those signs. -/
def AluOp.apply (a b : Word) : AluOp → Result
  | add =>
    let sum := a + b
    { value := sum, overflow := ((a ^^^ sum) &&& (b ^^^ sum)).msb, carry := sum.ult a }
  | sub =>
    let difference := a - b
    { value := difference, overflow := ((a ^^^ b) &&& (a ^^^ difference)).msb, carry := a.ult b }
  | and => { value := a &&& b }
  | or => { value := a ||| b }
  | xor => { value := a ^^^ b }

/-- A shift of a word by `count` bits. It carries the last bit that goes out;
    if none does, there is no carry. -/
def ShiftOp.apply (a : Word) (count : Nat) (op : ShiftOp) : Result :=
  if count = 0 then { value := a }
  else
    match op with
    | left => { value := a <<< count, carry := a.getLsbD (16 - count) }
    | right => { value := a >>> count, carry := a.getLsbD (count - 1) }
    | arithmetic => { value := a.sshiftRight count, carry := a.getLsbD (count - 1) }
    | rotate => { value := a.rotateRight count, carry := a.getLsbD (count - 1) }

end WordMachine
