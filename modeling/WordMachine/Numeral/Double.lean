/-!
# Numbers of double precision

A number of double precision is a whole number of units, of which `2 ^ 1074` make one.
The numbers of up to `2 ^ 53` units have no gaps between them, and above that they are
further and further apart, so that 53 binary digits are enough for each (`spacing`). Any
fraction thus has a nearest number, and a product or a quotient is the number nearest to
the exact result. A result of `2 ^ 1024` or more is too large.

Nothing here is negative: a sign is kept beside the number.
-/

namespace WordMachine.Numeral

/-- The two whole numbers next to `num / den`, the nearer one first. Of two that are
    equally near, the even one is first. -/
def neighbours (num den : Nat) : Nat × Nat :=
  let below := num / den
  let twice := 2 * (num % den)
  if twice < den || (twice == den && below % 2 == 0) then (below, below + 1)
  else (below + 1, below)

/-- The whole number nearest to `num / den`. -/
def rounded (num den : Nat) : Nat := (neighbours num den).1

/-- A number of double precision, by how many units it is. -/
structure Double where
  units : Nat
deriving DecidableEq, Repr

namespace Double

/-- How many units make one. -/
def unitsOfOne : Nat := Nat.pow 2 1074

/-- How many units are too many for a number. -/
def unitsBound : Nat := Nat.pow 2 2098

/-- How far apart the numbers of about so many units are. -/
def spacing (units : Nat) : Nat := Nat.pow 2 (Nat.log2 units - 52)

/-- The number nearest to `num / den`, which may be too large. -/
def nearest (num den : Nat) : Double :=
  let units := num * unitsOfOne
  let step := spacing (units / den)
  ⟨rounded units (den * step) * step⟩

/-- Whether the number is not too large. -/
def isFinite (x : Double) : Bool := x.units < unitsBound

/-- The number nearest to a whole number. -/
def ofNat (n : Nat) : Double := nearest n 1

/-- The number nearest to a power of ten. -/
def ofPower (k : Nat) : Double := nearest (Nat.pow 10 k) 1

/-- The product of two numbers. -/
def mul (x y : Double) : Double := nearest (x.units * y.units) (unitsOfOne * unitsOfOne)

/-- The quotient of two numbers, the second of which is not zero. -/
def div (x y : Double) : Double := nearest x.units y.units

/-- The exponent of the largest power of ten that is not too large. -/
def maxPower : Nat := 308

/-- The number divided so many times by the largest power of ten. -/
def shrink (x : Double) : Nat → Double
  | 0 => x
  | n + 1 => if x.units = 0 then x else (x.div (ofPower maxPower)).shrink n

/-- The number times a power of ten, if that is not too large. It comes from one product,
    or from as many quotients as the exponent takes, and each of them is rounded. -/
def scale? (x : Double) : Int → Option Double
  | .ofNat k =>
    if k ≤ maxPower then some (x.mul (ofPower k)) |>.filter isFinite
    else if x.units = 0 then some x
    else none
  | .negSucc k =>
    -- the last quotient takes what the powers before it leave of the exponent
    let times := k / maxPower
    some ((x.shrink times).div (ofPower (k + 1 - maxPower * times)))

end Double

end WordMachine.Numeral
