import WordMachine.Numeral.Bounded
import WordMachine.Numeral.Decimal

/-!
# Numbers of JSON text

A number without a fraction and an exponent is a whole number if it has sixty-four bits
at most, and any other number is one of double precision. For that one, digits are taken
as long as they make a number of sixty-four bits (`takeDigits`). Of the digits that do
not fit, those before the point still count as a power of ten each, and those behind it
count for nothing. The number from the digits is then scaled by the power of ten.
-/

namespace WordMachine.Json

/-- A number of a JSON text. -/
inductive Number where
  | whole (i : Int)
  | double (negative : Bool) (size : Numeral.Double)
deriving DecidableEq, Repr

namespace Number

/-- The parts of a number, as written. -/
structure Parts where
  negative : Bool
  whole : List Char
  /-- The digits behind the point. -/
  fraction : List Char
  /-- Whether the exponent is negative. -/
  shrinks : Bool
  /-- The digits of the exponent. -/
  exponent : List Char
deriving DecidableEq, Repr

/-- Whether a text starts with a minus sign, and what comes after the sign it starts with. -/
def takeSign : List Char → Bool × List Char
  | '-' :: rest => (true, rest)
  | '+' :: rest => (false, rest)
  | rest => (false, rest)

/-- The parts of the number that a text is. -/
def Parts.ofText (text : List Char) : Parts :=
  let (negative, text) := takeSign text
  let isLetter (c : Char) := c == 'e' || c == 'E'
  let digits := text.takeWhile fun c => !isLetter c
  let (shrinks, exponent) := takeSign ((text.dropWhile fun c => !isLetter c).drop 1)
  { negative
    whole := digits.takeWhile (· != '.')
    fraction := (digits.dropWhile (· != '.')).drop 1
    shrinks
    exponent }

/-- Takes digits on after others, which make the number `n`, up to the first one that does
    not fit. The result is the number they make and how many digits are left. -/
def takeDigits (n : Nat) : List Char → Nat × Nat
  | [] => (n, 0)
  | c :: rest =>
    let next := 10 * n + (Numeral.digit? 10 c).getD 0
    if next ≤ Numeral.max64 then takeDigits next rest else (n, rest.length + 1)

/-- The largest exponent that is read. -/
def maxExponent : Nat := 0x7FFFFFFF

/-- Reads the digits of an exponent on after others, which make the number `n`. If
    the exponent is too large, the error is how many digits are left behind the one that
    makes it so. -/
def readExponent (n : Nat) : List Char → Except Nat Nat
  | [] => .ok n
  | c :: rest =>
    let next := 10 * n + (Numeral.digit? 10 c).getD 0
    if next ≤ maxExponent then readExponent next rest else .error rest.length

/-- The number without a fraction and an exponent that the digits make. -/
def ofDigits (negative : Bool) (n : Nat) : Number :=
  if !negative then .whole n
  else if 0 < n && n ≤ 0x8000000000000000 then .whole (-n)
  else .double true (.ofNat n)

/-- The number of the parts. If it is too large, the error is how many characters are left
    behind the one that makes it so. -/
def ofParts (p : Parts) : Except Nat Number :=
  let (front, uncounted) := takeDigits 0 p.whole
  let (digits, unread) := takeDigits front p.fraction
  if p.fraction.isEmpty && p.exponent.isEmpty && uncounted == 0 then
    .ok (ofDigits p.negative front)
  else
    match readExponent 0 p.exponent with
    | .error left =>
      if digits = 0 || p.shrinks then .ok (.double p.negative (.ofNat 0)) else .error left
    | .ok exponent =>
      let exponent : Int := if p.shrinks then -exponent else exponent
      let power := exponent + uncounted - (p.fraction.length - unread : Nat)
      match (Numeral.Double.ofNat digits).scale? power with
      | some size => .ok (.double p.negative size)
      | none => .error 0

/-- The number that a text is. If it is too large, the error is how many characters of the
    text make it so. -/
def ofText (text : List Char) : Except Nat Number :=
  (ofParts (.ofText text)).mapError fun left => text.length - left

end Number

end WordMachine.Json
