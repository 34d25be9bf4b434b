/-
# Gapless.CommandLine.Machine -- what the command needs of a machine

A machine reads and writes whole files, or says why not, and has room for so much in
its memory and no more.
-/
import Gapless.CommandLine.FileFault
import Gapless.Stream

namespace Gapless.CommandLine

set_option autoImplicit false

structure Machine (m : Type → Type) where
  read : String → m (Except FileFault Bytes)
  write : String → Bytes → m (Except FileFault Unit)
  /-- Whether a piece of memory of this length can be had. -/
  hasRoom : Nat → Bool

end Gapless.CommandLine
