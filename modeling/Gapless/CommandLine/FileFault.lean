/-
# Gapless.CommandLine.FileFault -- why a file cannot be read or written

Each fault is one that a machine knows by a number, which its text shows.
-/
namespace Gapless.CommandLine

set_option autoImplicit false

inductive FileFault where
  | notPermitted
  | notFound
  | inputOutput
  | noDevice
  | notAllowed
  | notFolder
  | isFolder
  | invalid
  | inUse
  | noSpace
  | outOfRange
  | nameTooLong
  | tooManyLinks
  | other (text : String)
  deriving DecidableEq

namespace FileFault

def message : FileFault → String
  | .notPermitted => "Operation not permitted (os error 1)"
  | .notFound => "No such file or directory (os error 2)"
  | .inputOutput => "Input/output error (os error 5)"
  | .noDevice => "No such device or address (os error 6)"
  | .notAllowed => "Permission denied (os error 13)"
  | .notFolder => "Not a directory (os error 20)"
  | .isFolder => "Is a directory (os error 21)"
  | .invalid => "Invalid argument (os error 22)"
  | .inUse => "Text file busy (os error 26)"
  | .noSpace => "No space left on device (os error 28)"
  | .outOfRange => "Numerical result out of range (os error 34)"
  | .nameTooLong => "File name too long (os error 36)"
  | .tooManyLinks => "Too many levels of symbolic links (os error 40)"
  | .other text => text

/-- The fault that a machine knows by this number. -/
def ofNumber? : Nat → Option FileFault
  | 1 => some .notPermitted
  | 2 => some .notFound
  | 5 => some .inputOutput
  | 6 => some .noDevice
  | 13 => some .notAllowed
  | 20 => some .notFolder
  | 21 => some .isFolder
  | 22 => some .invalid
  | 26 => some .inUse
  | 28 => some .noSpace
  | 34 => some .outOfRange
  | 36 => some .nameTooLong
  | 40 => some .tooManyLinks
  | _ => none

end FileFault

end Gapless.CommandLine
