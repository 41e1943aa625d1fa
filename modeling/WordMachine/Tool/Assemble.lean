import WordMachine.Assembly.Listing
import WordMachine.Tool.Run

/-!
# Assembling a file

The tool that assembles a source text into an image, which it writes only if no
line has a fault. A listing and the record of the assembly can be had either way.
-/

namespace WordMachine.Tool

/-- What the tool is to assemble, and what it is to write. -/
structure AssembleOptions where
  source : String
  image : String
  /-- The first address of the image. -/
  start : Word
  listing : Bool
  /-- The path for the record of the assembly. -/
  record : Option String
deriving DecidableEq, Repr

namespace AssembleOptions

/-- The options of the tool. -/
def rules : List OptionRule :=
  [.valued "input" (some 'i'), .valued "output" (some 'o'), .valued "start" none,
    .flag "listing", .valued "json" none]

/-- Reads the first address of an image. It may be zero with a sign of any kind. -/
def readStart (text : String) : Option Word :=
  match text.toList with
  | '-' :: digits => if Numeral.magnitude? 10 digits = some 0 then some 0 else none
  | digits => (Numeral.readBounded 10 Numeral.max16 digits).toOption.map (BitVec.ofNat 16)

/-- The options from the arguments, if they are as they should be. -/
def ofArguments (args : List String) : Option AssembleOptions := do
  let a ← Arguments.read rules [] args
  let [] := a.places | none
  let source ← a.value? "input"
  let image ← a.value? "output"
  let start ← readStart ((a.value? "start").getD "0")
  let record := a.value? "json"
  if source.isEmpty || image.isEmpty || record == some "" then none
  else some { source, image, start, listing := a.has "listing", record }

variable (o : AssembleOptions)

/-- The paths of the files that the tool reads. -/
def reads : List String := [o.source]

/-- What the tool shows and writes for an assembly. -/
def reportOf (a : Assembly) : Report :=
  let output := if o.listing then a.listingText else ""
  let records := (o.record.map fun path => Writing.ofText path a.record.pretty).toList
  if a.success then
    { output, writings := records ++ [⟨o.image, bytesOfWords (a.image o.start)⟩] }
  else
    let count := Numeral.natural a.faults.length
    let message := s!"{count} error(s); no image written"
    { output, writings := records, failure := some (assemblyFailure o.source a message) }

/-- The report of the tool. -/
def perform (files : Files) : Except Overrun Report :=
  report do
    let text ← (files.text o.source).mapError fun fault => .failure fault.failure
    let a ← (WordMachine.assemble text).mapError .overrun
    .ok (o.reportOf a)

end AssembleOptions

end WordMachine.Tool
