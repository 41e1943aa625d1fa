import WordMachine.Numeral.Digit
import WordMachine.Text.Blank

/-!
# Number literals

The numbers of a source text. A literal is, in this order, an optional `#`, an
optional sign, and either a decimal number or a number in base sixteen behind
`0x`, `0X` or `$`. Its magnitude stays below `magnitudeBound`.
-/

namespace WordMachine.Numeral

/-- The bound that the magnitude of a literal stays below. -/
def magnitudeBound : Nat := 0x8000000000000000

/-- The magnitude of a literal, by the mark of its base. -/
def unsignedLiteral? : List Char → Option Nat
  | '0' :: 'x' :: digits => magnitude? 16 digits
  | '0' :: 'X' :: digits => magnitude? 16 digits
  | '$' :: digits => magnitude? 16 digits
  | digits => magnitude? 10 digits

/-- The literal behind an optional `#`. -/
def signedLiteral? (cs : List Char) : Option Int :=
  let bounded (cs : List Char) := (unsignedLiteral? cs).filter (· < magnitudeBound)
  match cs with
  | '-' :: rest => (bounded rest).map fun n => -(n : Int)
  | '+' :: rest => (bounded rest).map Int.ofNat
  | rest => (bounded rest).map Int.ofNat

/-- The number that a token writes, space around it aside, if it writes one. -/
def literal? (token : String) : Option Int :=
  match Text.trim token.toList with
  | '#' :: rest => signedLiteral? rest
  | rest => signedLiteral? rest

end WordMachine.Numeral
