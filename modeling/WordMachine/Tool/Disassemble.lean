import WordMachine.Image
import WordMachine.Tool.Address
import WordMachine.Tool.Arguments
import WordMachine.Tool.Report

/-!
# Showing an image

The tool that reads an image and shows either where it is in memory or what its
words say.
-/

namespace WordMachine.Tool

/-- What the tool is to show. -/
inductive View where
  /-- The addresses of the image and the number of its words. -/
  | info
  /-- The instructions from an address up to another, both as written. -/
  | range (start stop : String) (showWords : Bool) (out : Option String)
deriving DecidableEq, Repr

/-- The image that the tool is to read, and what it is to show. -/
structure DisassembleOptions where
  path : String
  /-- The address of the image, as written. -/
  base : String
  skip : Nat
  length : Option Nat
  view : View
deriving DecidableEq, Repr

/-- The view from the command and its arguments, if they are as they should be. -/
def View.ofArguments (command : String) (args : List String) : Option View :=
  if command = "info" then do
    let a ← Arguments.read [] [] args
    if a.places.isEmpty then some .info else none
  else do
    let a ← Arguments.read [.flag "show-words", .valued "out" none] [] args
    let [start, stop] := a.places | none
    some (.range start stop (a.has "show-words") (a.value? "out"))

namespace DisassembleOptions

/-- The options of the tool. -/
def rules : List OptionRule :=
  [.valued "base" none, .valued "skip" none, .valued "len" none]

/-- The commands of the tool. -/
def commands : List String := ["info", "range"]

/-- Reads a number of words. -/
def readCount (text : String) : Option Nat :=
  (Numeral.readBounded 10 Numeral.max64 text.toList).toOption

/-- The options from the arguments, if they are as they should be. -/
def ofArguments (args : List String) : Option DisassembleOptions := do
  let a ← Arguments.read rules commands args
  let [path] := a.places | none
  let (command, rest) ← a.command
  let view ← View.ofArguments command rest
  let base := (a.value? "base").getD "0"
  let skip ← readCount ((a.value? "skip").getD "0")
  let length ← match a.value? "len" with
    | none => some none
    | some text => (readCount text).map some
  some { path, base, skip, length, view }

variable (o : DisassembleOptions)

/-- The paths of the files that the tool reads. -/
def reads : List String := [o.path]

/-- The image, at its address. -/
def image (files : Files) : Except Failure Image := do
  let base ← (readEnd o.base).mapError fun fault => { message := fault.message }
  if 0x10000 ≤ base then .error { message := "--base must be below 0x10000" }
  else
    let bytes ← (files o.path).mapError FileFault.failure
    (Image.ofBytes bytes (BitVec.ofNat 16 base) o.skip o.length).mapError fun fault =>
      { message := fault.message o.path }

/-- The text on where an image is. -/
def infoText (image : Image) : String :=
  let start := Numeral.hexLiteral image.base.toNat
  let stop := Numeral.hexLiteral image.stop
  let count := Numeral.natural image.words.size
  s!"start    end      words   \n{start}   {stop}   {count}\n"

/-- What the tool shows and writes for an image. -/
def reportOf (image : Image) : Except Failure Report :=
  match o.view with
  | .info => .ok { output := infoText image }
  | .range start stop showWords out => do
    let start ← (readEnd start).mapError fun fault => { message := fault.message }
    let stop ← (readEnd stop).mapError fun fault => { message := fault.message }
    if stop < start then .error { message := "end must be >= start" }
    else
      let text := image.rangeText start stop showWords
      match out with
      | none => .ok { output := text }
      | some path => .ok { writings := [.ofText path text] }

/-- The report of the tool. -/
def perform (files : Files) : Report :=
  match (o.image files).bind o.reportOf with
  | .ok r => r
  | .error f => { failure := some f }

end DisassembleOptions

end WordMachine.Tool
