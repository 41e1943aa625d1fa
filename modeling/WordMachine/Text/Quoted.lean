import WordMachine.Numeral.Digit
import WordMachine.Text.Extending
import WordMachine.Text.Ignorable
import WordMachine.Text.Printable

/-!
# Quoted text

A text between quotes, written so that a reader sees what is in it. A quote and a
backslash stand behind a backslash, and the tabulator, the line feed, the carriage return
and the character of number zero are a letter or digit behind one. A character that could
not be seen by itself, because it is not printable, has no form or extends the one before
it, is written by its number.
-/

namespace WordMachine.Text

/-- Whether a character can be seen by itself. The two halfwidth sound marks can, though
    they count as extending the letter before them. -/
def standsAlone (c : Char) : Bool :=
  isPrintable c && !isIgnorable c && (!isExtending c || c = '\uff9e' || c = '\uff9f')

/-- A character of a quoted text. -/
def quotedChar (c : Char) : String :=
  if c = '"' then "\\\""
  else if c = '\\' then "\\\\"
  else if c = '\n' then "\\n"
  else if c = '\r' then "\\r"
  else if c = '\t' then "\\t"
  else if c = '\x00' then "\\0"
  else if standsAlone c then String.singleton c
  else "\\u\x7b" ++ Numeral.hex 0 c.toNat ++ "\x7d"

/-- A text between quotes. -/
def quoted (s : String) : String := "\"" ++ String.join (s.toList.map quotedChar) ++ "\""

end WordMachine.Text
