import WordMachine.Numeral.Bounded
import WordMachine.Word

/-!
# Addresses on a command line

An address on a command line is a number up to the last address
(`readAddress`), or up to one past it where it is the end of something
(`readEnd`). A piece of memory is the address that it starts at and its length, with
a colon between them (`readPiece`).
-/

namespace WordMachine.Tool

open Numeral (NumberFault)

/-- Why a text is not an address. -/
inductive AddressFault where
  /-- The text is not a number, or too large a one. -/
  | number (fault : NumberFault)
  /-- The text is not the number of a word. -/
  | word (text : String) (fault : NumberFault)
  | noColon (text : String)
  | outside (address : Nat)
deriving DecidableEq, Repr

/-- The words for why a text is not an address. -/
def AddressFault.message : AddressFault → String
  | number fault => fault.message
  | word text fault =>
    let reason := fault.message
    s!"{text}: {reason}"
  | noColon text => "dump range `" ++ text ++ "` is not START:LEN"
  | outside address =>
    let address := Numeral.hex 0 address
    s!"address 0x{address} is outside the 64K word space"

/-- Reads an address. -/
def readAddress (text : String) : Except AddressFault Word :=
  match Numeral.readMarked Numeral.max16 text with
  | .ok n => .ok (BitVec.ofNat 16 n)
  | .error fault => .error (.word text fault)

/-- Reads an address, or one past the last address. -/
def readEnd (text : String) : Except AddressFault Nat :=
  match Numeral.readMarked Numeral.max32 text with
  | .ok n => if n ≤ 0x10000 then .ok n else .error (.outside n)
  | .error fault => .error (.number fault)

/-- Reads where a piece of memory starts and how long it is. -/
def readPiece (text : String) : Except AddressFault (Word × Nat) :=
  let start := text.toList.takeWhile (· != ':')
  match text.toList.dropWhile (· != ':') with
  | [] => .error (.noColon text)
  | _ :: length => do
    let start ← readAddress (String.ofList start)
    let length ← readAddress (String.ofList length)
    .ok (start, length.toNat)

end WordMachine.Tool
