/-
# Gapless.CommandLine.Size -- sizes written in decimal

A size is a plus sign, if one likes, and at least one decimal digit; leading zeros
do not count against it.  It must fit into 64 bits.  The text is read from the left
and the first character that cannot stay decides what is wrong with it.
-/
import Gapless.Segment

namespace Gapless.CommandLine

set_option autoImplicit false

inductive SizeFault where
  | empty
  | invalidDigit
  | tooLarge
  | zero
  deriving DecidableEq

namespace SizeFault

def message : SizeFault → String
  | .empty => "cannot parse integer from empty string"
  | .invalidDigit => "invalid digit found in string"
  | .tooLarge => "number too large to fit in target type"
  | .zero => "number would be zero for non-zero type"

end SizeFault

namespace Size

/-- The value of an ASCII digit. -/
def digit? (c : Char) : Option Nat := if c.isDigit then some (c.toNat - '0'.toNat) else none

/-- Read the digits that follow after a number. -/
def readDigits (size : Nat) : List Char → Except SizeFault Nat
  | [] => .ok size
  | c :: rest =>
      match digit? c with
      | none => .error .invalidDigit
      | some digit =>
          if 10 * size + digit ≤ maxOffset then readDigits (10 * size + digit) rest
          else .error .tooLarge

def ofChars : List Char → Except SizeFault Nat
  | [] => .error .empty
  | ['+'] => .error .invalidDigit
  | '+' :: digits => readDigits 0 digits
  | digits => readDigits 0 digits

/-- A size that may be zero. -/
def ofText (text : String) : Except SizeFault Nat := ofChars text.toList

/-- A size that must not be zero. -/
def positiveOfText (text : String) : Except SizeFault Nat :=
  (ofText text).bind fun size => if size = 0 then .error .zero else .ok size

end Size

end Gapless.CommandLine
