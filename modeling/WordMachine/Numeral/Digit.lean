/-!
# Digits

Numbers in base ten and sixteen: the value of a digit and of a run of digits
(`magnitude?`), and the writing of a number, plain (`natural`, `integer`) or in
base sixteen with a least number of digits (`hex`, `hexLiteral`).
-/

namespace WordMachine.Numeral

/-- The value of a digit of base `b`, for a base of at most sixteen. The digits
    above nine are letters, in either case. -/
def digit? (b : Nat) (c : Char) : Option Nat :=
  let value :=
    if c.isDigit then some (c.toNat - '0'.toNat)
    else if 'a' ≤ c && c ≤ 'f' then some (c.toNat - 'a'.toNat + 10)
    else if 'A' ≤ c && c ≤ 'F' then some (c.toNat - 'A'.toNat + 10)
    else none
  value.filter (· < b)

/-- The number written by a run of digits of base `b`, if it is one and has a digit. -/
def magnitude? (b : Nat) (cs : List Char) : Option Nat :=
  if cs.isEmpty then none
  else (cs.mapM (digit? b)).map fun digits => digits.foldl (fun n d => b * n + d) 0

/-- The decimal digits of a number. -/
def natural (n : Nat) : String := String.ofList (Nat.toDigits 10 n)

/-- An integer in base ten, with a sign if it is negative. -/
def integer (i : Int) : String :=
  if i < 0 then "-" ++ natural i.natAbs else natural i.natAbs

/-- A number in base sixteen, with zeros in front up to `width` digits. -/
def hex (width n : Nat) : String := String.ofList ((Nat.toDigits 16 n).leftpad width '0')

/-- A number in base sixteen behind its mark, with four digits at least. -/
def hexLiteral (n : Nat) : String := "0x" ++ hex 4 n

end WordMachine.Numeral
