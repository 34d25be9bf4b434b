/-
# Gapless.Limits -- how much a buffer may hold

Each limit is a number that may be reached and not passed; without one there is
no bound.  The limit on bytes is looked at first.
-/
import Gapless.Refusal

namespace Gapless

set_option autoImplicit false

structure Limits where
  bytes : Option Nat := none
  segments : Option Nat := none
  deriving DecidableEq

namespace Limits

def unbounded : Limits := {}

/-- Whether an amount is within a limit. -/
def Within (amount : Nat) (limit : Option Nat) : Prop := ∀ bound ∈ limit, amount ≤ bound

/-- The limit, when the amount is past it. -/
def passed? (amount : Nat) (limit : Option Nat) : Option Nat :=
  limit.bind fun bound => if bound < amount then some bound else none

theorem passed?_eq_none_iff {amount : Nat} {limit : Option Nat} :
    passed? amount limit = none ↔ Within amount limit := by
  cases limit with
  | none => simp [passed?, Within]
  | some bound => simp [passed?, Within]

/-- Refuse an outcome with so many bytes in so many segments when it passes a limit. -/
def check (limits : Limits) (bytes segments : Nat) : Except Refusal Unit :=
  match passed? bytes limits.bytes, passed? segments limits.segments with
  | some limit, _ => .error (.bufferLimit bytes limit)
  | none, some limit => .error (.segmentLimit segments limit)
  | none, none => .ok ()

theorem check_eq_ok_iff {limits : Limits} {bytes segments : Nat} :
    limits.check bytes segments = .ok () ↔
      Within bytes limits.bytes ∧ Within segments limits.segments := by
  rw [← passed?_eq_none_iff, ← passed?_eq_none_iff, check]
  split <;> simp_all

end Limits

end Gapless
