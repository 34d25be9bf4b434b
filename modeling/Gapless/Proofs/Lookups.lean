/-
# Gapless.Proofs.Lookups -- what is found at an offset

Who asks for the segment at an offset is shown the lower neighbour or nothing, and a run without
a gap is followed from there (`Store.runFrom`).  That could miss something: an empty segment may
be stored, right below or above another one, and it covers no offset.  The gaps rule this out
after any changes.  A segment that covers an offset is the lower neighbour of it, it is the only
one, and no other begins where it ends (`Store.lookups_exact`).

`Store.scanFrom` is a second way to follow a run.  It goes over all segments from the first one
on and stops at the first that does not continue the one before.
-/
import Gapless.Buffer
import Gapless.Proofs.Changes

namespace Gapless

set_option autoImplicit false

/-! ## Going over the segments in order -/

/-- The segments at the front of a list that continue one another, the first of them at the
offset `expected` if there is one. -/
def Segment.joined : Option Nat → List Segment → List Segment
  | _, [] => []
  | expected, segment :: rest =>
      if ∀ offset ∈ expected, segment.start = offset then
        segment :: joined (some segment.stop) rest
      else []

/-- With gaps between them, none continues another. -/
theorem Segment.joined_separated {first : Segment} {rest : List Segment}
    (separated : Store.Separated (first :: rest)) : joined none (first :: rest) = [first] := by
  cases rest with
  | nil => simp [joined]
  | cons next rest =>
      have apart := (List.pairwise_cons.1 separated).1 next List.mem_cons_self
      have elsewhere : next.start ≠ first.stop := by omega
      simp [joined, elsewhere]

namespace Store

/-- The segment that covers `offset` and those that continue it, found by going over all segments
that do not start below it. -/
def scanFrom (store : Store) (offset : Nat) : List Segment :=
  match store.covering? offset with
  | none => []
  | some first => Segment.joined none (store.segments.filter (first.start ≤ ·.start))

section Separated

variable {store : Store} (separated : Separated store.segments)

include separated

/-- A segment is the first of those that do not start below it. -/
theorem filter_start_le {segment : Segment} (member : segment ∈ store.segments) :
    store.segments.filter (segment.start ≤ ·.start) =
      segment :: store.segments.filter (segment.start < ·.start) := by
  generalize store.segments = segments at separated member
  induction segments with
  | nil => cases member
  | cons head rest ih =>
      obtain ⟨apart, restSeparated⟩ := List.pairwise_cons.1 separated
      have ordered := head.start_le_stop
      rcases List.mem_cons.1 member with rfl | behind
      · have same : rest.filter (segment.start ≤ ·.start) =
            rest.filter (segment.start < ·.start) := by
          apply List.filter_congr
          intro next later
          have := apart next later
          simp only [decide_eq_decide]
          omega
        simp [same]
      · have := apart segment behind
        have short : ¬segment.start ≤ head.start := by omega
        simp [ih restSeparated behind, short, Nat.not_lt_of_gt (Nat.not_le.1 short)]

theorem scanFrom_eq (offset : Nat) : store.scanFrom offset = (store.covering? offset).toList := by
  rw [scanFrom]
  cases found : store.covering? offset with
  | none => rfl
  | some first =>
      obtain ⟨member, -, -⟩ := (covering?_eq_some_iff separated).1 found
      have behind := filter_start_le separated member
      have apart := List.Pairwise.filter (first.start ≤ ·.start) separated
      rw [behind] at apart
      show Segment.joined none (store.segments.filter _) = [first]
      rw [behind]
      exact Segment.joined_separated apart

/-! ## The segment at an offset -/

variable (offset : Nat)

/-- What covers an offset is its lower neighbour. -/
theorem floor?_of_covers {segment : Segment} (member : segment ∈ store.segments)
    (reached : segment.start ≤ offset) (short : offset < segment.stop) :
    store.floor? offset = some segment := by
  have found := (covering?_eq_some_iff separated).2 ⟨member, reached, short⟩
  exact (Option.filter_eq_some_iff.1 found).1

/-- No offset is covered twice. -/
theorem filter_covers :
    store.segments.filter (·.covers offset) = (store.covering? offset).toList := by
  have listed (segment : Segment) : segment ∈ store.segments.filter (·.covers offset) ↔
      store.covering? offset = some segment := by
    rw [covering?_eq_some_iff separated, List.mem_filter, Segment.covers_iff]
  have apart := List.Pairwise.filter (·.covers offset) separated
  generalize store.segments.filter (·.covers offset) = covering at listed apart
  cases covering with
  | nil =>
      have nothing : store.covering? offset = none := by
        rw [Option.eq_none_iff_forall_ne_some]
        intro segment found
        simpa using (listed segment).2 found
      simp [nothing]
  | cons first rest =>
      have found := (listed first).1 List.mem_cons_self
      cases rest with
      | nil => simp [found]
      | cons next rest =>
          have again := (listed next).1 (by simp)
          have same : first = next := Option.some.inj (found.symm.trans again)
          have behind := (List.pairwise_cons.1 apart).1 next List.mem_cons_self
          have := first.start_le_stop
          rw [← same] at behind
          omega

/-- What can be read is the rest of the segment at the cursor. -/
theorem readable_at (limits : Limits) :
    ({ store, cursor := offset, limits } : Buffer).readable =
      ((store.covering? offset).map (·.stop - offset)).getD 0 := by
  rw [Buffer.readable, runFrom_eq separated]
  cases found : store.covering? offset with
  | none => rfl
  | some segment =>
      obtain ⟨-, reached, -⟩ := (covering?_eq_some_iff separated).1 found
      simp [totalOf, reached]

end Separated

/-- What a store tells about an offset is right. -/
structure ExactAt (store : Store) (offset : Nat) : Prop where
  found : ∀ segment, store.covering? offset = some segment ↔
    segment ∈ store.segments ∧ segment.start ≤ offset ∧ offset < segment.stop
  missing : store.covering? offset = none ↔
    ∀ segment ∈ store.segments, ¬(segment.start ≤ offset ∧ offset < segment.stop)
  /-- Nothing hides a segment from those who look at the lower neighbour only. -/
  lower : ∀ segment ∈ store.segments, segment.start ≤ offset → offset < segment.stop →
    store.floor? offset = some segment
  alone : store.segments.filter (·.covers offset) = (store.covering? offset).toList
  run : store.runFrom offset = (store.covering? offset).toList
  scan : store.scanFrom offset = (store.covering? offset).toList
  readable : ∀ limits, ({ store, cursor := offset, limits } : Buffer).readable =
    ((store.covering? offset).map (·.stop - offset)).getD 0

theorem Sound.exactAt {store : Store} (sound : store.Sound) (offset : Nat) :
    store.ExactAt offset where
  found _ := covering?_eq_some_iff sound.separated
  missing := by
    rw [covering?_eq_none_iff sound.separated, mem_bytes]
    simp
  lower _ member reached short := floor?_of_covers sound.separated offset member reached short
  alone := filter_covers sound.separated offset
  run := runFrom_eq sound.separated offset
  scan := scanFrom_eq sound.separated offset
  readable := readable_at sound.separated offset

/-- **A look-up finds what is there**, whatever was inserted and trimmed, empty segments or not:
the only segment that covers an offset, if one does.  A run from there is that segment alone, and
its rest is what can be read. -/
theorem lookups_exact (changes : List Change) (offset : Nat) :
    (empty.after changes).ExactAt offset :=
  (sound_empty.after changes).exactAt offset

/-- Empty segments lie on both sides of one with bytes, and one on top of it joins it. -/
example :
    let changes : List Change :=
      [.insert ⟨3, [], 3, rfl⟩ rfl, .insert ⟨4, [1, 2, 3], 7, rfl⟩ rfl, .trim 5,
        .insert ⟨5, [], 5, rfl⟩ rfl, .insert ⟨8, [], 8, rfl⟩ rfl]
    let store := empty.after changes
    store.covering? 6 = some ⟨5, [2, 3], 7, rfl⟩ ∧ store.covering? 7 = none ∧
      store.covering? 8 = none ∧ store.runFrom 5 = store.scanFrom 5 := by
  decide

end Store

end Gapless
