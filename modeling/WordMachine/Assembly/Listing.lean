import WordMachine.Assembly.Basic

/-!
# Listings and images

The two products of an assembly that are written to files or shown: a listing,
which is the source text with addresses, words and faults beside it, and the
image, which is the words from some address up to the highest one written.
-/

namespace WordMachine

/-- A row in a listing: the line's number, its address, its words and its text;
    and below these the fault, if the line has one. -/
def Row.render (row : Row) : String :=
  let padLeft (width : Nat) (s : String) := String.ofList (s.toList.leftpad width ' ')
  let padRight (width : Nat) (s : String) := String.ofList (s.toList.rightpad width ' ')
  let line := padLeft 4 (Numeral.natural row.line)
  let address := (row.address.map fun a => Numeral.hex 4 a.toNat).getD "    "
  let words := padRight 15 (" ".intercalate (row.words.map fun w => Numeral.hex 4 w.toNat))
  let fault := (row.fault.map fun fault => "      ^ " ++ fault.message ++ "\n").getD ""
  s!"{line}  {address}  {words} {row.text}\n{fault}"

namespace Assembly

/-- The listing of an assembly. -/
def listingText (a : Assembly) : String := String.join (a.listing.map Row.render)

/-- One past the highest address that a line puts a word at; zero if none does. -/
def imageEnd (a : Assembly) : Nat :=
  (a.changes.map fun change => change.address.toNat + 1).foldl max 0

/-- The words from an address up to the highest one written. -/
def image (a : Assembly) (start : Word) : List Word :=
  a.memory.slice start (a.imageEnd - start.toNat)

end Assembly

end WordMachine
