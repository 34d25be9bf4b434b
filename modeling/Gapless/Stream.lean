/-
# Gapless.Stream -- the offsets and the bytes of a stream

Offsets are the numbers up to `maxOffset`, the last one 64 bits can hold.  Bytes
are kept in lists.  `overlay` writes bytes over a part of others; what it does is
said at one place of the result by `getElem?_overlay`.
-/
import Gapless.Refusal

namespace Gapless

set_option autoImplicit false

/-! ## Offsets -/

/-- The last offset of a stream. -/
def maxOffset : Nat := 18446744073709551615

namespace Offset

/-- A signed number is an offset unless it is negative. -/
def ofInt? (value : Int) : Except ArgumentFault Nat :=
  if value < 0 then .error (.negativeOffset value) else .ok value.toNat

/-- The offset `length` bytes further on, if there is one. -/
def advance? (offset length : Nat) : Option Nat :=
  if offset + length ≤ maxOffset then some (offset + length) else none

end Offset

/-! ## Bytes -/

abbrev Bytes := List UInt8

/-- The sizes of all items together. -/
def totalOf {α : Type} (size : α → Nat) : List α → Nat
  | [] => 0
  | item :: items => size item + totalOf size items

theorem totalOf_append {α : Type} (size : α → Nat) (items more : List α) :
    totalOf size (items ++ more) = totalOf size items + totalOf size more := by
  induction items with
  | nil => simp [totalOf]
  | cons item items ih => simp [totalOf, ih, Nat.add_assoc]

/-- Write `bytes` over `canvas` from `position` on.  A canvas that ends before
`position` is made longer with zeros. -/
def overlay (canvas : Bytes) (position : Nat) (bytes : Bytes) : Bytes :=
  let behind := canvas.drop position
  (canvas.take position).rightpad position 0 ++
    if behind.isEmpty then bytes else bytes ++ behind.drop bytes.length

theorem overlay_eq (canvas : Bytes) (position : Nat) (bytes : Bytes) :
    overlay canvas position bytes =
      (canvas.take position).rightpad position 0 ++
        (bytes ++ canvas.drop (position + bytes.length)) := by
  unfold overlay
  dsimp only
  rw [List.drop_drop]
  split
  · next nothing =>
      have : canvas.length ≤ position := List.drop_eq_nil_iff.1 (List.isEmpty_iff.1 nothing)
      rw [List.drop_of_length_le (by omega), List.append_nil]
  · rfl

theorem length_overlay (canvas : Bytes) (position : Nat) (bytes : Bytes) :
    (overlay canvas position bytes).length = max canvas.length (position + bytes.length) := by
  simp only [overlay_eq, List.rightpad, List.length_append, List.length_replicate,
    List.length_take, List.length_drop]
  omega

/-- Inside the range written the new bytes show, outside it the old ones, and zeros
between a canvas and bytes that begin behind its end. -/
theorem getElem?_overlay (canvas : Bytes) (position : Nat) (bytes : Bytes) (index : Nat) :
    (overlay canvas position bytes)[index]? =
      if index < position then
        if index < canvas.length then canvas[index]? else some 0
      else if index < position + bytes.length then bytes[index - position]?
      else canvas[index]? := by
  have padded : ((canvas.take position).rightpad position 0).length = position := by
    simp only [List.rightpad, List.length_append, List.length_replicate, List.length_take]
    omega
  rw [overlay_eq, List.getElem?_append, padded]
  split
  · rw [List.rightpad, List.getElem?_append, List.length_take]
    split
    · next before =>
        rw [if_pos (by omega), List.getElem?_take_of_lt (by omega)]
    · next behind =>
        rw [if_neg (by omega), List.getElem?_replicate, if_pos (by omega)]
  · rw [List.getElem?_append]
    split
    · rw [if_pos (by omega)]
    · rw [if_neg (by omega), List.getElem?_drop]
      congr 1; omega

end Gapless
