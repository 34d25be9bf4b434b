/-
# Gapless.Proofs.Totals -- what the totals say of a buffer

The level is the number of bytes held, the bytes delivered are those the cursor has passed,
and every accepted byte was known already, or was delivered, or is held
(`Buffer.Tallied`).  Refusals are counted one by one, each under its reason.

Every call keeps this (`Tallied.perform`).  A buffer may be used by its owner, through
handles or by a service, in one of these ways after another (`Way`), and what it goes through
is a run of calls each time.  The refusals are not read off from that run, but gathered from
what its users were told (`Refusals`).  When it is dropped, what it holds leaves the level
(`ways_tallied`).
-/
import Gapless.Proofs.Handouts
import Gapless.Proofs.Refusals
import Gapless.Proofs.Releasing

namespace Gapless

set_option autoImplicit false

/-! ## The counts and the level -/

namespace Metrics

/-- Only the level is moved. -/
theorem shift_eq (metrics : Metrics) (amount : Int) :
    ∃ held, metrics.shift amount = { metrics with held } ∧
      held.getD 0 = metrics.level + amount := by
  by_cases nothing : amount = 0
  · refine ⟨metrics.held, if_pos nothing, ?_⟩
    rw [nothing, Int.add_zero]
    rfl
  · exact ⟨some (metrics.level + amount), if_neg nothing, rfl⟩

end Metrics

/-! ## The tally -/

namespace Buffer

/-- The totals since a buffer was fresh, and the reasons for which chunks were refused. -/
structure Tallied (metrics : Metrics) (refused : List Reason) (buffer : Buffer) : Prop where
  level : metrics.level = buffer.store.held
  delivered : metrics.delivered = buffer.cursor
  ingested : metrics.ingested = metrics.overlap + metrics.delivered + buffer.store.held
  refused : ∀ reason, metrics.refused reason = refused.count reason

theorem tallied_fresh (limits : Limits) : Tallied {} [] (fresh limits) where
  level := rfl
  delivered := rfl
  ingested := rfl
  refused _ := rfl

/-! ## One call -/

section Tallied

variable {metrics : Metrics} {refused : List Reason} {buffer : Buffer}
  (tallied : Tallied metrics refused buffer)

include tallied

/-- It is of no account in which order chunks were refused. -/
theorem Tallied.perm {other : List Reason} (same : refused.Perm other) :
    Tallied metrics other buffer :=
  { tallied with refused := fun reason => (tallied.refused reason).trans (same.count_eq reason) }

/-- An accepted chunk makes the buffer grow by what is not overlap. -/
theorem Tallied.taking {length : Nat} {after : Buffer} (cursor : after.cursor = buffer.cursor)
    (grown : buffer.store.held ≤ after.store.held)
    (bound : after.store.held ≤ buffer.store.held + length) :
    Tallied (metrics.taking length (after.store.held - buffer.store.held)) refused after := by
  have level := tallied.level
  have ingested := tallied.ingested
  unfold Metrics.taking
  obtain ⟨held, shifted, moved⟩ := Metrics.shift_eq
    { metrics with
      ingested := metrics.ingested + length
      overlap := metrics.overlap + (length - (after.store.held - buffer.store.held)) }
    ((after.store.held - buffer.store.held : Nat) : Int)
  rw [shifted]
  refine
    { level := moved.trans ?_
      delivered := tallied.delivered.trans cursor.symm
      ingested := ?_
      refused := tallied.refused }
  · show metrics.level + _ = _
    omega
  · show metrics.ingested + length = metrics.overlap + _ + metrics.delivered + _
    omega

theorem Tallied.refuse (reason : Reason) :
    Tallied (metrics.note (.refused reason)) (refused ++ [reason]) buffer where
  level := tallied.level
  delivered := tallied.delivered
  ingested := tallied.ingested
  refused other := by
    have counted := tallied.refused other
    rw [List.count_append, List.count_singleton, ← counted]
    show (if other = reason then _ else _) = _
    by_cases same : other = reason
    · simp [same]
    · simp [same, Ne.symm same]

variable (sound : buffer.Sound)

include sound

omit sound in
/-- Bytes that are handed out leave the level. -/
theorem Tallied.hand {count : Nat} {step : Step Buffer Bytes}
    (released : buffer.Released count step) :
    Tallied (metrics.after step.events) refused step.state := by
  obtain ⟨moved, shifted, level⟩ := Metrics.shift_eq
    { metrics with delivered := metrics.delivered + step.result.length } (-step.result.length)
  have cursor := released.cursor
  have held := released.held
  have before := tallied.level
  have delivered := tallied.delivered
  have ingested := tallied.ingested
  rw [released.metrics, shifted]
  refine
    { level := level.trans ?_
      delivered := ?_
      ingested := ?_
      refused := tallied.refused }
  · show metrics.level + _ = _
    omega
  · show metrics.delivered + _ = _
    omega
  · show metrics.ingested = metrics.overlap + (metrics.delivered + _) + _
    omega

theorem Tallied.ingest (offset : Nat) (data : Bytes) :
    Tallied (metrics.after (buffer.ingest offset data).events)
      (refused ++ (reason? (buffer.ingest offset data).result).toList)
      (buffer.ingest offset data).state := by
  cases fared : (buffer.ingest offset data).result with
  | ok _ =>
      obtain ⟨grown, bound, counts⟩ := sound.after_ingest fared
      have taken := tallied.taking (sound.cursor_ingest offset data) grown bound
      rw [← counts, ← List.append_nil refused] at taken
      exact taken
  | error refusal =>
      rw [sound.events_of_refused fared, sound.state_of_refused fared]
      exact tallied.refuse refusal.reason

theorem Tallied.drains {count : Nat} {step : Step Buffer (List Bytes)}
    (drains : Drains count buffer step) :
    Tallied (metrics.after step.events) refused step.state := by
  induction drains generalizing metrics with
  | done nothing => exact tallied.hand (sound.released count)
  | more found further ih =>
      have rest := ih (tallied.hand (sound.released count)) (sound.read count).sound
      show Tallied (metrics.after (_ ++ _)) refused _
      rw [Metrics.after_append]
      exact rest

/-- **Every call keeps the tally.** -/
theorem Tallied.perform (call : Call) :
    Tallied (metrics.after (buffer.perform call).events)
      (refused ++ (call.refused? (buffer.perform call).result).toList)
      (buffer.perform call).state := by
  have answered (step : Step Buffer Reply) (call : Call)
      (never : call.refused? (.ok step.result) = none)
      (kept : Tallied (metrics.after step.events) refused step.state) :
      Tallied (metrics.after step.events) (refused ++ (call.refused? (.ok step.result)).toList)
        step.state := by
    rw [never]
    exact (List.append_nil refused).symm ▸ kept
  cases call with
  | request request =>
      cases request with
      | ingest offset data =>
          have ingest := tallied.ingest sound offset data
          rw [← reason?_map fun _ => Reply.done] at ingest
          exact ingest
      | read count =>
          have hand := tallied.hand (sound.released count)
          exact answered ((buffer.read count).map .filled) _ rfl hand
      | take count =>
          have hand := tallied.hand (sound.released_take count)
          exact answered ((buffer.take count).map .taken) _ rfl hand
      | stats => exact answered ⟨buffer, .stats buffer.stats, []⟩ _ rfl tallied
  | ingestSigned offset data =>
      show Tallied (metrics.after (buffer.ingestSigned offset data).events)
        (refused ++ (if offset < 0 then none else _ : Option Reason).toList)
        (buffer.ingestSigned offset data).state
      by_cases negative : offset < 0
      · rw [ingestSigned_of_neg negative, if_pos negative]
        exact (List.append_nil refused).symm ▸ tallied
      · rw [if_neg negative]
        have ingest := tallied.ingest sound offset.toNat data
        rw [← reason?_map fun _ => Reply.done, ← ingestSigned_of_nonneg negative] at ingest
        exact ingest
  | drain count =>
      have drained := tallied.drains sound (sound.drains count)
      exact answered ((buffer.drain count).map .drained) _ rfl drained
  | limits => exact answered ⟨buffer, .limits buffer.limits, []⟩ _ rfl tallied
  | covers offset => exact answered ⟨buffer, .covered _, []⟩ _ rfl tallied

/-- **Every run of calls keeps the tally.** -/
theorem Tallied.run (calls : List Call) :
    Tallied (metrics.after (buffer.run calls).events)
      (refused ++ buffer.refused calls) (buffer.run calls).state := by
  induction calls generalizing metrics refused buffer with
  | nil =>
      rw [← List.append_nil refused] at tallied
      exact tallied
  | cons call calls ih =>
      have rest := ih (tallied.perform sound call) (sound.perform call).sound
      rw [run_cons]
      show Tallied (metrics.after (_ ++ _)) (refused ++ (_ ++ _)) _
      rw [Metrics.after_append, ← List.append_assoc]
      exact rest

omit sound in
/-- What a dropped buffer still held leaves the level, and nothing else changes. -/
theorem Tallied.release :
    (metrics.after buffer.release).level = 0 ∧
      (metrics.after buffer.release).refused = metrics.refused := by
  have level := tallied.level
  by_cases empty : buffer.store.held = 0
  · rw [Buffer.release, if_pos empty]
    exact ⟨level.trans (congrArg Nat.cast empty), rfl⟩
  · obtain ⟨held, shifted, moved⟩ := metrics.shift_eq (-(buffer.store.held : Nat))
    rw [Buffer.release, if_neg empty]
    show (metrics.shift _).level = 0 ∧ (metrics.shift _).refused = _
    rw [shifted]
    exact ⟨moved.trans (by omega), rfl⟩

end Tallied

end Buffer

/-! ## Ways to use a buffer -/

/-- The ways in which a buffer can be used for some time. -/
inductive Way where
  /-- By its owner. -/
  | alone (calls : List Buffer.Call)
  /-- Through handles, of which there is one at first. -/
  | shared (uses : List (Nat × Shared.Call))
  /-- By a service, which may be thrown away with the buffer. -/
  | served (capacity : Nat) (acts : List Service.Act)
  /-- It is dropped. -/
  | dropped

/-- The reasons for which chunks were refused, told to their users or to nobody. -/
structure Refusals where
  heard : List Reason := []
  unheard : List Reason := []

def Refusals.all (refusals : Refusals) : List Reason := refusals.heard ++ refusals.unheard

/-- Use a buffer, unless it is gone. -/
def Way.spend (held : Option Buffer) (way : Way) : Step (Option Buffer) Refusals :=
  match held with
  | none => ⟨none, {}, []⟩
  | some buffer =>
      match way with
      | .alone calls =>
          let done := buffer.run calls
          ⟨some done.state, { heard := refusals calls done.result }, done.events⟩
      | .shared uses =>
          let shared : Shared := { buffer }
          let done := shared.run uses
          { state := some done.state.buffer
            result := { heard := Shared.heard uses done.result, unheard := shared.unheard uses }
            events := done.events }
      | .served capacity acts =>
          let done := (Service.unstarted buffer capacity).play acts
          let history := Service.historyOf done.result
          { state := if done.state.phase = .discarded then none else some done.state.buffer
            result :=
              { heard := Service.heard history done.state
                unheard := Service.unheard buffer history.taken }
            events := done.events }
      | .dropped => ⟨none, {}, buffer.release⟩

/-- What the totals say of a buffer, or after it is gone. -/
def Accounted (metrics : Metrics) (refused : List Reason) : Option Buffer → Prop
  | some buffer => buffer.Sound ∧ buffer.Tallied metrics refused
  | none => metrics.level = 0 ∧ ∀ reason, metrics.refused reason = refused.count reason

section Accounted

variable {metrics : Metrics} {refused : List Reason}

/-- A buffer that is dropped accounts for everything once it has released what it held. -/
theorem Buffer.Tallied.dropped {buffer : Buffer} (tallied : buffer.Tallied metrics refused) :
    Accounted (metrics.after buffer.release) refused none := by
  obtain ⟨level, same⟩ := tallied.release
  refine ⟨level, fun reason => ?_⟩
  rw [same]
  exact tallied.refused reason

theorem Accounted.spend {held : Option Buffer} (accounted : Accounted metrics refused held)
    (way : Way) :
    Accounted (metrics.after (way.spend held).events) (refused ++ (way.spend held).result.all)
      (way.spend held).state := by
  cases held with
  | none =>
      show Accounted metrics (refused ++ []) none
      rw [List.append_nil]
      exact accounted
  | some buffer =>
      obtain ⟨sound, tallied⟩ := accounted
      -- The buffer went through these calls, and this is what was told of them.
      have gone {calls : List Buffer.Call}
          (same : (way.spend (some buffer)).result.all.Perm (buffer.refused calls)) :
          (buffer.run calls).state.Sound ∧
            (buffer.run calls).state.Tallied (metrics.after (buffer.run calls).events)
              (refused ++ (way.spend (some buffer)).result.all) :=
        ⟨(sound.run calls).sound, (tallied.run sound calls).perm (same.symm.append_left refused)⟩
      cases way with
      | alone calls => exact gone (.of_eq (List.append_nil _))
      | shared uses =>
          obtain ⟨state, -, counts⟩ := Shared.run_mirrors { buffer } uses
          have kept := gone (Shared.refused_perm { buffer } uses)
          rw [← state, ← counts] at kept
          exact kept
      | served capacity acts =>
          have ledger := Service.ledger_play buffer capacity acts
          have charges := Service.charges_play buffer capacity acts metrics
          have kept := gone (Service.refused_perm buffer capacity acts)
          show Accounted (metrics.after ((Service.unstarted buffer capacity).play acts).events) _
            (if _ then none else some _)
          rw [charges]
          by_cases thrown :
              ((Service.unstarted buffer capacity).play acts).state.phase = .discarded
          · rw [if_pos thrown, if_pos thrown]
            exact kept.2.dropped
          · rw [if_neg thrown, if_neg thrown, ledger.buffer]
            exact kept
      | dropped =>
          show Accounted (metrics.after buffer.release) (refused ++ []) none
          rw [List.append_nil]
          exact tallied.dropped

theorem Accounted.each {held : Option Buffer} (accounted : Accounted metrics refused held)
    (ways : List Way) :
    let done := Step.each Way.spend held ways
    Accounted (metrics.after done.events) (refused ++ done.result.flatMap Refusals.all)
      done.state := by
  induction ways generalizing metrics refused held with
  | nil =>
      show Accounted metrics (refused ++ []) held
      rw [List.append_nil]
      exact accounted
  | cons way ways ih =>
      have rest := ih (accounted.spend way)
      show Accounted (metrics.after (_ ++ _)) (refused ++ (_ :: _ : List _).flatMap _) _
      rw [Metrics.after_append, List.flatMap_cons, ← List.append_assoc]
      exact rest

end Accounted

/-- **The totals agree with the buffer**, in whatever ways it was used since it was fresh, and
no byte is left in the level when it is gone.  Under each reason there are as many refusals as
users were told of, and those of which nobody could be told. -/
theorem ways_tallied (limits : Limits) (ways : List Way) :
    let done := Step.each Way.spend (some (Buffer.fresh limits)) ways
    let totals := Metrics.ofEvents done.events
    (∀ reason, totals.refused reason =
      (done.result.flatMap (·.heard)).count reason +
        (done.result.flatMap (·.unheard)).count reason) ∧
      (∀ buffer, done.state = some buffer →
        totals.level = buffer.store.held ∧ totals.delivered = buffer.cursor ∧
          totals.ingested = totals.overlap + totals.delivered + buffer.store.held) ∧
      (done.state = none → totals.level = 0) := by
  intro done totals
  have start : Accounted {} [] (some (Buffer.fresh limits)) :=
    ⟨Buffer.sound_fresh limits, Buffer.tallied_fresh limits⟩
  have accounted : Accounted totals (done.result.flatMap Refusals.all) done.state :=
    start.each ways
  have apart (reason : Reason) : (done.result.flatMap Refusals.all).count reason =
      (done.result.flatMap (·.heard)).count reason +
        (done.result.flatMap (·.unheard)).count reason := by
    rw [← List.count_append]
    exact (List.flatMap_append_perm done.result _ _).symm.count_eq reason
  cases left : done.state with
  | none =>
      rw [left] at accounted
      refine ⟨fun reason => ?_, nofun, fun _ => accounted.1⟩
      exact (accounted.2 reason).trans (apart reason)
  | some buffer =>
      rw [left] at accounted
      obtain ⟨-, tallied⟩ := accounted
      refine ⟨fun reason => (tallied.refused reason).trans (apart reason), ?_, nofun⟩
      rintro same ⟨⟩
      exact ⟨tallied.level, tallied.delivered, tallied.ingested⟩

/-- A chunk that overlaps another, one that the limit refuses and one with a negative offset;
a holder that breaks off; and a service of whose readers the last one leaves before it is
served, and of whose producers one is refused and another one has left. -/
theorem ways_tallied_mixed :
    let limits : Limits := { bytes := some 5 }
    let ways : List Way :=
      [.alone [.request (.ingest 0 [1, 2, 3]), .request (.ingest 2 [3, 4]),
          .request (.ingest 9 [1, 2, 3]), .ingestSigned (-1) [1], .request (.read 1)],
        .shared [(0, .aborting [.request (.ingest 3 [4, 5, 6, 7])]), (0, .request (.take 1))],
        .served 5 [.send 0 (.ingest 0 [1]), .enter 0, .send 0 (.read 1), .enter 1,
          .send 0 (.ingest 9 [1, 2, 3, 4]), .enter 2, .send 0 (.ingest 9 [1, 2, 3, 4]), .enter 3,
          .start, .abandon 1, .abandon 3, .turn, .turn, .turn, .turn, .collect 2]]
    let done := Step.each Way.spend (some (Buffer.fresh limits)) ways
    let totals := Metrics.ofEvents done.events
    done.state.map Buffer.stats = some ⟨2, 2, 1, 2⟩ ∧
      done.result.map (·.heard) = [[.bufferLimit], [], [.bufferLimit]] ∧
      done.result.map (·.unheard) = [[], [.bufferLimit], [.bufferLimit]] ∧
      (∀ buffer, done.state = some buffer →
        totals.level = buffer.store.held ∧ totals.delivered = buffer.cursor) ∧
      totals.refused .bufferLimit = 4 ∧ totals.refused .invalidArgument = 0 := by
  intro limits ways
  have stats : (Step.each Way.spend (some (Buffer.fresh limits)) ways).state.map Buffer.stats =
      some ⟨2, 2, 1, 2⟩ := by decide +kernel
  have heard : (Step.each Way.spend (some (Buffer.fresh limits)) ways).result.map (·.heard) =
      [[.bufferLimit], [], [.bufferLimit]] := by decide +kernel
  have unheard : (Step.each Way.spend (some (Buffer.fresh limits)) ways).result.map (·.unheard) =
      [[], [.bufferLimit], [.bufferLimit]] := by decide +kernel
  have tallied := ways_tallied limits ways
  -- What was done need not be looked at any more.
  generalize Step.each Way.spend (some (Buffer.fresh limits)) ways = done
    at stats heard unheard tallied ⊢
  obtain ⟨refused, agrees, -⟩ := tallied
  rw [List.flatMap_def, List.flatMap_def, heard, unheard] at refused
  refine ⟨stats, heard, unheard, ?_, refused .bufferLimit, refused .invalidArgument⟩
  intro buffer left
  obtain ⟨level, cursor, -⟩ := agrees buffer left
  exact ⟨level, cursor⟩

end Gapless
