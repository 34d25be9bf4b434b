/-
# Gapless.Main -- the program

Files are those of the machine; everything else is decided by
`CommandLine.Command.run`.  Reads are lists here, which take no room before they are
there.
-/
import Gapless.CommandLine.Command

namespace Gapless.Program

set_option autoImplicit false

open Gapless.CommandLine

/-- An error number, which some calls report negated. -/
def errorNumber (code : UInt32) : Nat :=
  if code.toNat < 2147483648 then code.toNat else 4294967296 - code.toNat

/-- The error number of an error of the machine. -/
def codeOf? : IO.Error → Option UInt32
  | .noFileOrDirectory _ code _ | .interrupted _ code _ => some code
  | .alreadyExists _ code _ | .invalidArgument _ code _ | .permissionDenied _ code _
  | .resourceExhausted _ code _ | .inappropriateType _ code _ | .noSuchThing _ code _ => some code
  | .otherError code _ | .resourceBusy code _ | .resourceVanished code _
  | .unsupportedOperation code _ | .hardwareFault code _ | .unsatisfiedConstraints code _
  | .illegalOperation code _ | .protocolError code _ | .timeExpired code _ => some code
  | .unexpectedEof | .userError _ => none

/-- Why the machine did not read or write a file. -/
def faultOf (error : IO.Error) : FileFault :=
  ((codeOf? error).bind (FileFault.ofNumber? ∘ errorNumber)).getD (.other (toString error))

def machine : Machine IO where
  read path :=
    try
      return .ok (← IO.FS.readBinFile path).toList
    catch error => return .error (faultOf error)
  write path data :=
    try
      IO.FS.withFile path .write fun handle => do
        handle.write (ByteArray.mk data.toArray)
        handle.flush
      return .ok ()
    catch error => return .error (faultOf error)
  hasRoom _ := true

def printOutcome (outcome : Outcome) : IO Unit := do
  for record in outcome.log do
    IO.println record.line
  for line in outcome.output do
    IO.println line
  if let some complaint := outcome.complaint then
    IO.eprintln ("error: " ++ complaint.message)

end Gapless.Program

def main (arguments : List String) : IO UInt32 := do
  let outcome ← Gapless.CommandLine.Command.run Gapless.Program.machine arguments
  Gapless.Program.printOutcome outcome
  return UInt32.ofNat (outcome.code.getD 134)
