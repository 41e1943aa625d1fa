import WordMachine.Json.Basic

/-!
# Tokens of JSON text

A JSON text as a list of tokens (`Token.ofText`): marks, strings, and the
characters that stand together, which are numbers and the names of constants.
Every token knows the places where it starts and where it stops. A place counts
lines from one, and bytes in the line from zero.
-/

namespace WordMachine.Json

/-- A place in a text. -/
structure Place where
  line : Nat
  column : Nat
deriving DecidableEq, Repr

/-- The place after a character. -/
def Place.next (p : Place) (c : Char) : Place :=
  if c = '\n' then ⟨p.line + 1, 0⟩ else ⟨p.line, p.column + c.utf8Size⟩

/-- The place some bytes further in the line. -/
def Place.along (p : Place) (bytes : Nat) : Place := ⟨p.line, p.column + bytes⟩

/-- The place after a text from its start. -/
def Place.after (text : List Char) : Place := text.foldl Place.next ⟨1, 0⟩

/-- What a token is. -/
inductive Token.Kind where
  /-- A bracket, a colon or a comma. -/
  | mark (c : Char)
  /-- What is written between quotes. -/
  | string (written : List Char)
  /-- A number or the name of a constant. -/
  | word (text : List Char)
deriving DecidableEq, Repr

/-- A token and where it stands. -/
structure Token where
  kind : Token.Kind
  start : Place
  stop : Place
deriving DecidableEq, Repr

namespace Token

/-- Whether a character is a token by itself. -/
def isMark (c : Char) : Bool := c ∈ ['\x7b', '\x7d', '[', ']', ':', ',']

/-- Whether a character is space in a JSON text. -/
def isSpace (c : Char) : Bool := c ∈ [' ', '\n', '\t', '\r']

/-- The part of a token that has been read, its characters in reverse. -/
inductive Partial where
  | none
  | word (start : Place) (reversed : List Char)
  /-- What follows the quote, and whether a backslash stands before what comes next. -/
  | string (start : Place) (reversed : List Char) (escaped : Bool)

/-- What has been read of a text. -/
structure Reading where
  place : Place
  current : Partial
  /-- The tokens before, in reverse. -/
  reversed : List Token

/-- The tokens that have been read, with a word that ends here, in reverse. -/
def Reading.tokens (r : Reading) : List Token :=
  match r.current with
  | .word start reversed => ⟨.word reversed.reverse, start, r.place⟩ :: r.reversed
  | _ => r.reversed

/-- Reads one character outside of strings. -/
def Reading.start (r : Reading) (c : Char) : Reading :=
  let place := r.place.next c
  if isSpace c then ⟨place, .none, r.tokens⟩
  else if isMark c then ⟨place, .none, ⟨.mark c, r.place, place⟩ :: r.tokens⟩
  else if c = '"' then ⟨place, .string r.place [] false, r.tokens⟩
  else
    match r.current with
    | .word start reversed => ⟨place, .word start (c :: reversed), r.reversed⟩
    | _ => ⟨place, .word r.place [c], r.reversed⟩

/-- Reads one character. -/
def Reading.next (r : Reading) (c : Char) : Reading :=
  match r.current with
  | .string start reversed escaped =>
    let place := r.place.next c
    if !escaped && c == '"' then
      ⟨place, .none, ⟨.string reversed.reverse, start, place⟩ :: r.reversed⟩
    else ⟨place, .string start (c :: reversed) (!escaped && c == '\\'), r.reversed⟩
  | _ => r.start c

/-- The tokens of a text. -/
def ofText (text : String) : List Token :=
  -- a last space ends a word that the text ends in
  let r := (text.toList ++ [' ']).foldl Reading.next ⟨⟨1, 0⟩, .none, []⟩
  r.reversed.reverse

/-- Whether an array or an object starts at a token. -/
def opens (t : Token) : Bool := t.kind = .mark '[' || t.kind = .mark '\x7b'

/-- Whether an array or an object ends at a token. -/
def closes (t : Token) : Bool := t.kind = .mark ']' || t.kind = .mark '\x7d'

/-- The tokens that stand less than two levels deep. Of a value inside an array or
    object, it is the first one if the value is one of these itself. -/
def outline (depth : Nat) : List Token → List Token
  | [] => []
  | t :: rest =>
    if t.opens then if depth < 2 then t :: outline (depth + 1) rest else outline (depth + 1) rest
    else if t.closes then
      if depth < 2 then t :: outline (depth - 1) rest else outline (depth - 1) rest
    else if depth < 2 then t :: outline depth rest
    else outline depth rest

end Token

end WordMachine.Json
