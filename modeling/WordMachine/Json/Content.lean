import WordMachine.Numeral.Digit

/-!
# Strings of JSON text

A string is written with each of its characters as it is or behind a backslash, some by a
letter and any by its number in base sixteen. A character past the first 65536 is
written by two numbers, of which the first leads and the second trails. A number that
leads or trails has no meaning without its other.
-/

namespace WordMachine.Json

/-- Why what is written between quotes says no string. -/
inductive ContentFault where
  /-- A number leads or trails without one that fits. -/
  | loneNumber
  /-- Something else stands where a trailing number should. -/
  | missingNumber
deriving DecidableEq, Repr

/-- The words for why there is no string. -/
def ContentFault.text : ContentFault → String
  | loneNumber => "lone leading surrogate in hex escape"
  | missingNumber => "unexpected end of hex escape"

namespace Content

/-- The character that a letter behind a backslash stands for. -/
def unescape (c : Char) : Char :=
  match c with
  | 'b' => '\x08'
  | 'f' => '\x0c'
  | 'n' => '\n'
  | 'r' => '\r'
  | 't' => '\t'
  | c => c

/-- The number that digits of base sixteen write. -/
def numberOf (digits : List Char) : Nat := (Numeral.magnitude? 16 digits).getD 0

/-- Whether a number is the first of two. -/
def leads (n : Nat) : Bool := 0xD800 ≤ n && n < 0xDC00

/-- Whether a number is the second of two. -/
def trails (n : Nat) : Bool := 0xDC00 ≤ n && n < 0xE000

/-- The character that is written by two numbers. -/
def joined (high low : Nat) : Char :=
  Char.ofNat (0x10000 + 0x400 * (high - 0xD800) + (low - 0xDC00))

/-- The characters of a string, from what is written between its quotes. A fault comes with
    the bytes that are read until then, counted from `place`. -/
def read (place : Nat) : List Char → Except (ContentFault × Nat) (List Char)
  | '\\' :: 'u' :: a :: b :: c :: d :: rest =>
    let high := numberOf [a, b, c, d]
    if trails high then .error (.loneNumber, place + 6)
    else if leads high then
      match rest with
      | '\\' :: 'u' :: a :: b :: c :: d :: rest =>
        let low := numberOf [a, b, c, d]
        if trails low then (read (place + 12) rest).map (joined high low :: ·)
        else .error (.loneNumber, place + 12)
      | '\\' :: _ => .error (.missingNumber, place + 8)
      | _ => .error (.missingNumber, place + 7)
    else (read (place + 6) rest).map (Char.ofNat high :: ·)
  | '\\' :: c :: rest => (read (place + 2) rest).map (unescape c :: ·)
  | c :: rest => (read (place + c.utf8Size) rest).map (c :: ·)
  | [] => .ok []

end Content

end WordMachine.Json
