import WordMachine.Numeral.Digit
import WordMachine.Numeral.Double

/-!
# Decimal numbers

The decimal that a number of double precision is shown as (`Double.decimal`): of the
decimals to which this number is the nearest, it is one with the fewest digits, and of
those the nearest. It is shown with a point if its first digit stands not too far from
the point, and else with an exponent.
-/

namespace WordMachine.Numeral

/-- The number `digits * 10 ^ power`. -/
structure Decimal where
  digits : Nat
  power : Int
deriving DecidableEq, Repr

namespace Decimal

/-- The number of double precision that is nearest. -/
def double (d : Decimal) : Double :=
  match d.power with
  | .ofNat k => Double.nearest (d.digits * Nat.pow 10 k) 1
  | .negSucc k => Double.nearest d.digits (Nat.pow 10 (k + 1))

/-- The number as it is shown, without zeros at its end. -/
def text (d : Decimal) : String :=
  let all := Nat.toDigits 10 d.digits
  let kept := (all.reverse.dropWhile (· == '0')).reverse
  let power := d.power + (all.length - kept.length : Nat)
  let point := kept.length + power
  if kept.isEmpty then "0.0"
  else if 0 ≤ power && point ≤ 16 then
    String.ofList (kept ++ List.replicate power.toNat '0') ++ ".0"
  else if 0 < point && point ≤ 16 then
    String.ofList (kept.take point.toNat ++ '.' :: kept.drop point.toNat)
  else if -5 < point && point ≤ 0 then
    "0." ++ String.ofList (List.replicate (-point).toNat '0' ++ kept)
  else
    let rest := if kept.length = 1 then [] else '.' :: kept.drop 1
    let sign := if 0 < point then "+" else ""
    String.ofList (kept.take 1 ++ rest) ++ "e" ++ sign ++ integer (point - 1)

end Decimal

namespace Double

variable (x : Double)

/-- The two multiples of `10 ^ power` next to the number, the nearer one first. -/
def multiples (power : Int) : List Decimal :=
  let (near, far) :=
    match power with
    | .ofNat k => neighbours x.units (unitsOfOne * Nat.pow 10 k)
    | .negSucc k => neighbours (x.units * Nat.pow 10 (k + 1)) unitsOfOne
  [⟨near, power⟩, ⟨far, power⟩]

/-- The power of ten that the first digit of the number counts. -/
def firstPower : Int :=
  -- the unit itself is between 4 and 5 times `10 ^ -324`
  let smallest := 324
  let whole := x.units * Nat.pow 10 smallest / unitsOfOne
  ((Nat.toDigits 10 whole).length : Int) - 1 - smallest

/-- The decimal that the number is shown as. No number needs more than seventeen digits. -/
def decimal : Decimal :=
  let withDigits (more : Nat) := (x.multiples (x.firstPower - more)).find? (·.double = x)
  ((List.range 17).findSome? withDigits).getD ⟨0, 0⟩

/-- The number as it is shown. -/
def text : String := x.decimal.text

end Double

end WordMachine.Numeral
