/-
# Gapless.Proofs.Words -- segments in machine words

Offsets and lengths are words of 64 bits, and nothing in the code looks whether a sum is still a
word, whether a difference is below zero or whether a part of some bytes lies within them.  The
operations in `Gapless.Checked` do all their steps with such checks: the value is `none` where the
code would go wrong, by a sum that is no word (`Checked.add`), a difference below zero
(`Checked.sub`), bytes cut out beyond their end (`Checked.cut`) or a position that is asked of a
segment for an offset outside (`Checked.relative`).

This module has the words and the operations on segments.  They have the value of those without
checks for a segment that ends at an offset, and so has the fresh buffer in which segments are
laid over one another (`Checked.compose_eq`).
-/
import Gapless.Chunk
import Gapless.Proofs.Merging

namespace Gapless

set_option autoImplicit false

namespace Checked

/-! ## Words -/

/-- The sum of two words, if it is a word. -/
def add (one other : Nat) : Option Nat :=
  if one + other ≤ maxOffset then some (one + other) else none

/-- The difference of two words, if it is not below zero. -/
def sub (one other : Nat) : Option Nat := if other ≤ one then some (one - other) else none

/-- The bytes between two positions, if these are in order and not beyond the end. -/
def cut (bytes : Bytes) (low high : Nat) : Option Bytes :=
  if low ≤ high ∧ high ≤ bytes.length then some ((bytes.take high).drop low) else none

theorem add_eq {one other : Nat} (fits : one + other ≤ maxOffset) :
    add one other = some (one + other) := if_pos fits

theorem sub_eq {one other : Nat} (within : other ≤ one) : sub one other = some (one - other) :=
  if_pos within

theorem cut_eq {bytes : Bytes} {low high : Nat} (ordered : low ≤ high)
    (within : high ≤ bytes.length) : cut bytes low high = some ((bytes.take high).drop low) :=
  if_pos ⟨ordered, within⟩

/-! ## Segments -/

/-- The end of a segment, counted from its start. -/
def stop (segment : Segment) : Option Nat := add segment.start segment.data.length

/-- The position of an offset in a segment, which is asked for offsets from its start to its end
only. -/
def relative (segment : Segment) (offset : Nat) : Option Nat := do
  let stop ← stop segment
  if segment.start ≤ offset ∧ offset ≤ stop then sub offset segment.start else none

def bytesFrom (segment : Segment) (offset : Nat) : Option Bytes := do
  let position ← relative segment offset
  cut segment.data position segment.data.length

/-- Where bytes are cut out of a segment, the code itself looks whether their end is a word. -/
def slice (segment : Segment) (offset count : Nat) : Option (Option Bytes) := do
  let position ← relative segment offset
  match Offset.advance? position count with
  | none => some none
  | some high =>
      if high ≤ segment.data.length then (cut segment.data position high).map some else some none

def clipBelow (segment : Segment) (offset : Nat) : Option (Option Segment) := do
  let stop ← stop segment
  if stop ≤ offset then some none
  else if offset ≤ segment.start then some (some segment)
  else do
    let data ← bytesFrom segment offset
    some (some (Chunk.ofData offset data).segment)

section Segments

variable {segment : Segment} (bounded : segment.stop ≤ maxOffset)

include bounded

theorem stop_eq : stop segment = some segment.stop := by
  have whole := segment.stop_eq
  rw [whole] at bounded ⊢
  exact add_eq bounded

variable {offset : Nat}

theorem relative_eq (reached : segment.start ≤ offset) (within : offset ≤ segment.stop) :
    relative segment offset = some (offset - segment.start) := by
  simp [relative, stop_eq bounded, reached, within, sub_eq]

theorem bytesFrom_eq (reached : segment.start ≤ offset) (within : offset ≤ segment.stop) :
    bytesFrom segment offset = some (segment.bytesFrom offset) := by
  have whole := segment.stop_eq
  have inside : offset - segment.start ≤ segment.data.length := by omega
  simp [bytesFrom, relative_eq bounded reached within, cut_eq inside, Segment.bytesFrom]

theorem slice_eq (reached : segment.start ≤ offset) (within : offset ≤ segment.stop)
    (count : Nat) : slice segment offset count = some (segment.slice? offset count) := by
  have whole := segment.stop_eq
  have length := segment.length_eq
  rw [slice, relative_eq bounded reached within]
  show (match Offset.advance? (offset - segment.start) count with
    | none => some none
    | some high =>
        if high ≤ segment.data.length then (cut segment.data (offset - segment.start) high).map some
        else some none) = _
  rw [Offset.advance?, Segment.slice?, length, Segment.bytesFrom]
  by_cases fits : offset - segment.start + count ≤ segment.data.length
  · have word : offset - segment.start + count ≤ maxOffset := by omega
    have same : ((segment.data.take (offset - segment.start + count)).drop
        (offset - segment.start)) = (segment.data.drop (offset - segment.start)).take count := by
      rw [List.drop_take, Nat.add_sub_cancel_left]
    simp [word, fits, cut_eq, same]
  · rw [if_neg fits]
    split
    · rfl
    · next found =>
        obtain ⟨-, same⟩ := Option.ite_none_right_eq_some.1 found
        cases same
        exact if_neg fits

theorem clipBelow_eq (offset : Nat) :
    clipBelow segment offset = some (segment.clipBelow offset) := by
  rw [clipBelow, stop_eq bounded, Segment.clipBelow]
  show (if segment.stop ≤ offset then some none else _) = _
  split
  · rfl
  · next short =>
      split
      · rfl
      · next below =>
          rw [bytesFrom_eq bounded (by omega) (by omega)]
          exact congrArg (some ∘ some) (Segment.eq_of_data rfl (Chunk.data_ofData _ _))

end Segments

/-! ## Laying segments over one another -/

/-- Write a segment over a part of a canvas, which begins at the offset `start` of the stream. -/
def put (start : Nat) (canvas : Bytes) (layer : Segment) : Option Bytes := do
  let position ← sub layer.start start
  let behind ← add position layer.data.length
  if behind ≤ canvas.length then some (overlay canvas position layer.data) else none

/-- One segment for all offsets from `start` to `stop`, made of zeros on which the layers are
written. -/
def compose (start stop : Nat) (layers : List Segment) : Option Segment := do
  let span ← sub stop start
  let data ← layers.foldlM (put start) (List.replicate span 0)
  some (Chunk.ofData start data).segment

theorem getElem?_rightpad (bytes : Bytes) (span index : Nat) :
    (bytes.rightpad span 0)[index]? =
      if index < bytes.length then bytes[index]? else if index < span then some 0 else none := by
  rw [List.rightpad, List.getElem?_append, List.getElem?_replicate]
  split_ifs <;> first | rfl | omega

/-- It is the same whether a canvas is made long enough before something is written or after. -/
theorem overlay_rightpad {canvas bytes : Bytes} {position span : Nat}
    (inside : position + bytes.length ≤ span) (short : canvas.length ≤ span) :
    overlay (canvas.rightpad span 0) position bytes =
      (overlay canvas position bytes).rightpad span 0 := by
  apply List.ext_getElem?
  intro index
  have length : (canvas.rightpad span 0).length = span := by simp; omega
  rw [getElem?_overlay, getElem?_rightpad, getElem?_rightpad, getElem?_overlay, length_overlay,
    length]
  split_ifs <;> first | rfl | omega

section Layers

variable {start span : Nat} (word : span ≤ maxOffset)

include word

theorem put_eq {canvas : Bytes} {layer : Segment} (low : start ≤ layer.start)
    (high : layer.stop ≤ start + span) (long : span ≤ canvas.length) :
    put start canvas layer = some (overlay canvas (layer.start - start) layer.data) := by
  have whole := layer.stop_eq
  have fits : layer.start - start + layer.data.length ≤ maxOffset := by omega
  have inside : layer.start - start + layer.data.length ≤ canvas.length := by omega
  simp [put, sub_eq low, add_eq fits, inside]

theorem puts_eq {layers : List Segment} (low : ∀ layer ∈ layers, start ≤ layer.start)
    (high : ∀ layer ∈ layers, layer.stop ≤ start + span) {canvas : Segment}
    (begins : canvas.start = start) (short : canvas.data.length ≤ span) :
    layers.foldlM (put start) (canvas.data.rightpad span 0) =
      some ((layers.foldl Segment.paint canvas).data.rightpad span 0) := by
  induction layers generalizing canvas with
  | nil => rfl
  | cons layer layers ih =>
      obtain ⟨lowest, lows⟩ := List.forall_mem_cons.1 low
      obtain ⟨highest, highs⟩ := List.forall_mem_cons.1 high
      have whole := layer.stop_eq
      have long : span ≤ (canvas.data.rightpad span 0).length := by simp; omega
      have painted : (canvas.paint layer).data.length ≤ span := by
        show (overlay _ _ _).length ≤ span
        rw [length_overlay]
        omega
      have same : (canvas.paint layer).start = canvas.start := rfl
      subst begins
      rw [List.foldlM_cons, put_eq word lowest highest long,
        overlay_rightpad (by omega) short, List.foldl_cons]
      exact ih lows highs same painted

end Layers

theorem compose_eq {merge : Merge} {incoming : Segment} (spans : merge.Spans incoming)
    (bounded : merge.stop ≤ maxOffset) :
    compose merge.start merge.stop (merge.absorbed ++ [incoming]) =
      some (.fuse merge.start (merge.absorbed ++ [incoming])) := by
  have fused := Merge.stop_fused spans
  have start := Segment.start_fuse merge.start (merge.absorbed ++ [incoming])
  have whole := (Segment.fuse merge.start (merge.absorbed ++ [incoming])).stop_eq
  have ordered := spans.ordered
  have word : merge.stop - merge.start ≤ maxOffset := by omega
  have begins : ({ start := merge.start, data := [] } : Segment).start = merge.start := rfl
  have written := puts_eq word (Merge.layers_ordered spans) ?_ begins (Nat.zero_le _)
  · have padded : ([] : Bytes).rightpad (merge.stop - merge.start) 0 =
      List.replicate (merge.stop - merge.start) 0 := by simp [List.rightpad]
    rw [padded] at written
    simp only [compose, sub_eq ordered, Option.bind_eq_bind, Option.bind_some, written]
    refine congrArg some (Segment.eq_of_data start.symm ?_)
    refine (Chunk.data_ofData _ _).trans ?_
    show (Segment.fuse merge.start (merge.absorbed ++ [incoming])).data.rightpad _ 0 = _
    simp [List.rightpad]
    omega
  · intro layer member
    rcases List.mem_append.1 member with absorbed | top
    · have := spans.absorbed_le_stop layer absorbed
      omega
    · have := spans.le_stop
      rw [List.mem_singleton.1 top]
      omega

end Checked

end Gapless
