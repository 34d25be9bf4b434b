/-
# Gapless.Proofs.Bookkeeping -- every act keeps the ledger

An act can go in seven ways (`Acted`).  For each of them a lemma says what becomes of the
stages that requests have reached, and from that follow the three parts of the ledger.
Together they are one step (`Acted.ledger`), and from the empty ledger of a service that was
not started they lead to every run (`ledger_play`).
-/
import Gapless.Proofs.Ledger

namespace Gapless.Service

set_option autoImplicit false

variable {start : Buffer} {history : History} {service : Service}

/-! ## Closing -/

section Closing

variable {phase : Phase} {id : Nat}

theorem of_caller?_close {after : Pending} (found : (service.close phase).caller? id = some after) :
    ∃ caller, service.caller? id = some caller ∧ caller.refused = after :=
  Option.map_eq_some_iff.1 ((service.caller?_close id phase).symm.trans found)

/-- Whoever had no answer was refused. -/
theorem of_reached_closed {stage : Stage}
    (reached : Reached history (service.close phase) id stage) :
    Reached history service id stage ∨ stage = .answered (.error .closed) ∧
      ∃ caller, service.caller? id = some caller ∧
        (caller.stage = .waiting ∨ caller.stage = .queued) := by
  rcases reached with ⟨after, found, rfl⟩ | left
  · obtain ⟨caller, known, rfl⟩ := of_caller?_close found
    unfold Pending.refused
    cases at_ : caller.stage with
    | waiting => exact Or.inr ⟨rfl, caller, known, Or.inl at_⟩
    | queued => exact Or.inr ⟨rfl, caller, known, Or.inr at_⟩
    | answered answer =>
        show Reached history service id caller.stage ∨ _
        exact Or.inl (Or.inl ⟨caller, known, rfl⟩)
  · exact Or.inl (Or.inr left)

/-- Who has an answer keeps it. -/
theorem reached_closed {answer : Answer}
    (reached : Reached history service id (.answered answer)) :
    Reached history (service.close phase) id (.answered answer) := by
  refine reached.imp_left ?_
  rintro ⟨caller, found, at_⟩
  refine ⟨caller.refused, ?_, ?_⟩
  · rw [caller?_close, found, Option.map_some]
  · unfold Pending.refused
    rw [at_]
    exact at_

end Closing

namespace Ledger

variable (ledger : Ledger start history service)

include ledger

/-! ## Nothing happens to any request -/

theorem quiet {phase : Phase}
    (begun : phase = service.phase ∨ service.phase = .unstarted ∧ phase = .running)
    (cancelled : Bool) (handles : List Nat) (opened : Nat) :
    Ledger start history { service with phase, cancelled, handles, opened } := by
  have same : ({ service with phase, cancelled, handles, opened } : Service).closed =
      service.closed := by
    rcases begun with rfl | ⟨fresh, rfl⟩
    · rfl
    · show false = _
      unfold closed
      rw [fresh]
  exact
    { ledger with
      opened := fun still => ledger.opened (same ▸ still)
      emptied := fun ended => ledger.emptied (same ▸ ended)
      idle := fun fresh => by
        rcases begun with rfl | ⟨-, rfl⟩
        · exact ledger.idle fresh
        · cases fresh
      unanswered := fun found early => same.trans (ledger.unanswered found early)
      answered := fun reached => same.symm ▸ ledger.answered reached }

/-! ## A request arrives -/

section Sent

/-- The next number is nobody's yet. -/
theorem caller?_arrived : service.caller? service.arrived = none := by
  cases found : service.caller? service.arrived with
  | none => rfl
  | some caller =>
      have member := List.mem_map_of_mem (f := Prod.fst) (ledger.sent found)
      exact absurd (ledger.mem_sent_iff.1 member) (Nat.lt_irrefl _)

variable (request : Request)

theorem caller?_sent (id : Nat) :
    (service.arrive request).1.caller? id =
      if id = service.arrived then
        some ⟨id, request, if service.closed then .answered (.error .closed) else .waiting⟩
      else service.caller? id := by
  rw [caller?_arrive]
  by_cases same : id = service.arrived
  · subst same
    rw [ledger.caller?_arrived, Option.none_or, if_pos rfl]
  · rw [if_neg same, if_neg same, Option.or_none]

theorem line_sent :
    Line start (history.add (.sent service.arrived request)) (service.arrive request).1 :=
  { ledger.toLine with
    numbered := by
      show (history.sent ++ [(service.arrived, request)]).map Prod.fst =
        List.range (service.arrived + 1)
      rw [List.map_append, ledger.numbered, List.range_succ]
      rfl
    known := fun command entered => List.mem_append_left _ (ledger.known command entered) }

theorem callers_sent :
    Callers (history.add (.sent service.arrived request)) (service.arrive request).1 := by
  refine
    { sent := fun found => ?_
      unanswered := fun found early => ?_
      gone := fun left => ?_
      parted := fun left => ?_
      leftOnce := ledger.leftOnce }
  · rw [ledger.caller?_sent] at found
    split at found
    · next same =>
        cases found
        rw [same]
        exact List.mem_append_right _ (List.mem_singleton_self _)
    · exact List.mem_append_left _ (ledger.sent found)
  · rw [ledger.caller?_sent] at found
    split at found
    · cases found
      cases closed : service.closed with
      | false => exact closed
      | true => simp [closed] at early
    · exact ledger.unanswered found early
  · rw [ledger.caller?_sent, if_neg]
    · exact ledger.gone left
    · rintro rfl
      exact Nat.lt_irrefl _ (ledger.mem_sent_iff.1 (ledger.parted left))
  · exact List.map_append ▸ List.mem_append_left _ (ledger.parted left)

/-- A request that has just arrived waits, or was refused. -/
theorem reached_sent {id : Nat} {stage : Stage} :
    Reached (history.add (.sent service.arrived request)) (service.arrive request).1 id stage ↔
      if id = service.arrived then
        stage = if service.closed then .answered (.error .closed) else .waiting
      else Reached history service id stage := by
  unfold Reached
  rw [ledger.caller?_sent]
  by_cases same : id = service.arrived
  · subst same
    have here : (service.arrived, stage) ∉ history.left := fun left =>
      Nat.lt_irrefl _ (ledger.mem_sent_iff.1 (ledger.parted left))
    show _ ∨ (service.arrived, stage) ∈ history.left ↔ _
    rw [or_iff_left here, if_pos rfl, if_pos rfl]
    constructor
    · rintro ⟨caller, same, rfl⟩
      cases same
      rfl
    · exact fun same => ⟨_, rfl, same.symm⟩
  · rw [if_neg same, if_neg same]
    rfl

theorem stages_sent :
    Stages start (history.add (.sent service.arrived request)) (service.arrive request).1 := by
  have kept {id : Nat} {stage : Stage} (entered : id ∈ history.entered.map Prod.fst)
      (reached : Reached history service id stage) :
      Reached (history.add (.sent service.arrived request)) (service.arrive request).1 id
        stage := by
    rw [ledger.reached_sent, if_neg]
    · exact reached
    · rintro rfl
      exact ledger.arrived_notMem_entered entered
  refine
    { waiting := fun reached => ?_
      queued := fun reached => ?_
      answered := fun reached => ?_
      inQueue := fun command member => ?_
      present := fun one member there => ?_
      absent := ledger.absent }
  · rw [ledger.reached_sent] at reached
    split at reached
    · next same => exact same ▸ ledger.arrived_notMem_entered
    · exact ledger.waiting reached
  · rw [ledger.reached_sent] at reached
    split at reached
    · split at reached <;> cases reached
    · exact ledger.queued reached
  · rw [ledger.reached_sent] at reached
    split at reached
    · next same =>
        split at reached
        · next closed =>
            cases reached
            refine Or.inr ⟨closed, fun taken => ?_, rfl⟩
            exact ledger.arrived_notMem_entered (same ▸ ledger.ids_taken.subset taken)
        · cases reached
    · exact ledger.answered reached
  · refine kept ?_ (ledger.inQueue command member)
    rw [ledger.opened (ledger.going member)]
    exact List.mem_map_of_mem (List.mem_append_right _ member)
  · obtain ⟨answer, reached⟩ := ledger.present one member there
    exact ⟨answer, kept (ledger.ids_taken.subset (List.mem_map_of_mem member)) reached⟩

end Sent

/-! ## A request enters the queue -/

section Entered

variable {id : Nat} {caller : Pending} (found : service.caller? id = some caller)
  (waits : caller.stage = .waiting)

include found waits

theorem line_entered (room : service.queue.length < service.capacity) :
    Line start (history.add (.entered id caller.request))
      { service.setStage id .queued with queue := service.queue ++ [(id, caller.request)] } := by
  have going := ledger.unanswered found (.inl waits)
  have fresh := ledger.waiting (Or.inl ⟨caller, found, waits⟩)
  refine
    { ledger.toLine with
      known := fun command member => ?_
      once := ?_
      taken := ledger.taken.trans (List.prefix_append _ _)
      opened := fun _ => ?_
      emptied := fun closed => absurd (going.symm.trans closed) nofun
      room := ?_ }
  · rcases List.mem_append.1 member with old | new
    · exact ledger.known command old
    · rw [List.mem_singleton.1 new]
      exact ledger.sent found
  · show ((history.entered ++ [(id, caller.request)]).map Prod.fst).Nodup
    rw [List.map_append, List.map_singleton]
    exact ledger.once.append (List.nodup_singleton _) (List.disjoint_singleton.2 fresh)
  · show history.entered ++ [_] = history.commands ++ (service.queue ++ [_])
    rw [ledger.opened going, List.append_assoc]
  · show (service.queue ++ [_]).length ≤ service.capacity
    rw [List.length_append]
    exact room

theorem stages_entered :
    Stages start (history.add (.entered id caller.request))
      { service.setStage id .queued with queue := service.queue ++ [(id, caller.request)] } := by
  have notTaken : id ∉ history.taken.map Serving.id := fun taken =>
    ledger.waiting (Or.inl ⟨caller, found, waits⟩) (ledger.ids_taken.subset taken)
  have reaches {other : Nat} {stage : Stage} :
      Reached history (service.setStage id .queued) other stage ↔
        if other = id then stage = .queued else Reached history service other stage :=
    ledger.reached_setStage found
  have kept {other : Nat} {stage : Stage} (reached : Reached history service other stage)
      (elsewhere : stage ≠ .waiting) :
      Reached history (service.setStage id .queued) other stage :=
    ledger.reached_of_reached found reached (waits ▸ elsewhere)
  refine
    { waiting := fun {other} reached => ?_
      queued := fun {other} reached one member own => ?_
      answered := fun {other answer} reached => ?_
      inQueue := fun command member => ?_
      present := fun one member there => ?_
      absent := ledger.absent }
  · have reached := reaches.1 reached
    split at reached
    · cases reached
    · next different =>
        intro entered
        rcases List.mem_append.1 (List.map_append ▸ entered) with old | new
        · exact ledger.waiting reached old
        · exact different (List.mem_singleton.1 new)
  · have reached := reaches.1 reached
    split at reached
    · next same => exact absurd (List.mem_map.2 ⟨one, member, own.trans same⟩) notTaken
    · exact ledger.queued reached one member own
  · have reached := reaches.1 reached
    split at reached
    · cases reached
    · exact ledger.answered reached
  · rcases List.mem_append.1 member with old | new
    · exact kept (ledger.inQueue command old) nofun
    · rw [List.mem_singleton.1 new]
      exact reaches.2 (by rw [if_pos rfl])
  · obtain ⟨answer, reached⟩ := ledger.present one member there
    exact ⟨answer, kept reached nofun⟩

theorem entered (room : service.queue.length < service.capacity) :
    Ledger start (history.add (.entered id caller.request))
      { service.setStage id .queued with queue := service.queue ++ [(id, caller.request)] } where
  toLine := ledger.line_entered found waits room
  toCallers :=
    { ledger.setStage found (ledger.unanswered found (.inl waits)) .queued with }
  toStages := ledger.stages_entered found waits

end Entered

/-! ## A request is taken from the queue -/

section Served

variable {id : Nat} {request : Request} {rest : List (Nat × Request)}
  (first : service.queue = (id, request) :: rest)

include first

theorem going_of_first : service.closed = false := ledger.going (first ▸ List.mem_cons_self)

theorem line_served (running : service.phase = .running) (present : Bool) :
    Line start (history.add (.served id request present))
      { service.setStage id (.answered (service.buffer.reply request)) with
        buffer := service.buffer.served [⟨id, request, present⟩]
        queue := rest } := by
  have going := ledger.going_of_first first
  have entered : history.entered = (history.commands ++ [(id, request)]) ++ rest := by
    rw [ledger.opened going, first, List.append_assoc]
    rfl
  have commands : (history.add (.served id request present)).commands =
      history.commands ++ [(id, request)] :=
    List.map_append
  refine
    { ledger.toLine with
      taken := ?_
      opened := fun _ => ?_
      emptied := fun closed => absurd (going.symm.trans closed) nofun
      room := ?_
      buffer := ?_
      idle := fun fresh => absurd (running.symm.trans fresh) nofun }
  · rw [commands]
    exact ⟨rest, entered.symm⟩
  · rw [commands]
    exact entered
  · have room := ledger.room
    rw [first] at room
    exact Nat.le_of_succ_le room
  · show service.buffer.served _ = start.served (history.taken ++ _)
    rw [Buffer.served_append, ← ledger.buffer]

/-- The caller of the first queued request is there and queued, or it left there. -/
theorem reached_first : Reached history service id .queued :=
  ledger.inQueue (id, request) (first ▸ List.mem_cons_self)

/-- The other queued requests are others. -/
theorem ne_of_mem_rest {command : Nat × Request} (member : command ∈ rest) : command.1 ≠ id := by
  intro same
  have once := ledger.once
  rw [ledger.opened (ledger.going_of_first first), first, List.map_append, List.map_cons] at once
  have distinct := (List.nodup_cons.1 once.of_append_right).1
  have member := List.mem_map_of_mem (f := Prod.fst) member
  exact distinct (same ▸ member)

theorem stages_served {caller : Pending} (found : service.caller? id = some caller) :
    Stages start (history.add (.served id request true))
      { service.setStage id (.answered (service.buffer.reply request)) with
        buffer := service.buffer.served [⟨id, request, true⟩]
        queue := rest } := by
  have waits := ledger.stage_of_reached found (ledger.reached_first first)
  have reaches {other : Nat} {stage : Stage} :
      Reached history (service.setStage id (.answered (service.buffer.reply request))) other
          stage ↔
        if other = id then stage = .answered (service.buffer.reply request)
        else Reached history service other stage :=
    ledger.reached_setStage found
  refine
    { waiting := fun {other} reached => ?_
      queued := fun {other} reached one member own => ?_
      answered := fun {other answer} reached => ?_
      inQueue := fun command member => ?_
      present := fun one member there => ?_
      absent := fun one member away => ?_ }
  · have reached := reaches.1 reached
    split at reached
    · cases reached
    · exact ledger.waiting reached
  · have reached := reaches.1 reached
    split at reached
    · cases reached
    · next different =>
        rcases List.mem_append.1 member with old | new
        · exact ledger.queued reached one old own
        · rw [List.mem_singleton.1 new] at own
          exact absurd own.symm different
  · have reached := reaches.1 reached
    split at reached
    · next same =>
        cases reached
        refine Or.inl ⟨history.taken, ⟨id, request, true⟩, [], rfl, same.symm, rfl, ?_⟩
        rw [ledger.buffer]
    · rcases ledger.answered reached with replied | ⟨closed, -⟩
      · exact Or.inl (replied.append _)
      · exact absurd ((ledger.going_of_first first).symm.trans closed) nofun
  · refine reaches.2 ?_
    rw [if_neg (ledger.ne_of_mem_rest first member)]
    exact ledger.inQueue command (first ▸ List.mem_cons_of_mem _ member)
  · rcases List.mem_append.1 member with old | new
    · obtain ⟨answer, reached⟩ := ledger.present one old there
      exact ⟨answer, ledger.reached_of_reached found reached (waits ▸ nofun)⟩
    · rw [List.mem_singleton.1 new]
      exact ⟨_, reaches.2 (by rw [if_pos rfl])⟩
  · rcases List.mem_append.1 member with old | new
    · exact ledger.absent one old away
    · rw [List.mem_singleton.1 new] at away
      cases away

theorem stages_served_absent (absent : service.caller? id = none) :
    Stages start (history.add (.served id request false))
      { service with
        buffer := service.buffer.served [⟨id, request, false⟩]
        queue := rest } := by
  refine
    { waiting := ledger.waiting
      queued := fun {other} reached one member own => ?_
      answered := fun {other answer} reached => ?_
      inQueue := fun command member => ?_
      present := fun one member there => ?_
      absent := fun one member away => ?_ }
  · rcases List.mem_append.1 member with old | new
    · exact ledger.queued reached one old own
    · rw [List.mem_singleton.1 new]
  · rcases ledger.answered reached with replied | ⟨closed, -⟩
    · exact Or.inl (replied.append _)
    · exact absurd ((ledger.going_of_first first).symm.trans closed) nofun
  · exact ledger.inQueue command (first ▸ List.mem_cons_of_mem _ member)
  · rcases List.mem_append.1 member with old | new
    · exact ledger.present one old there
    · rw [List.mem_singleton.1 new] at there
      cases there
  · rcases List.mem_append.1 member with old | new
    · exact ledger.absent one old away
    · rw [List.mem_singleton.1 new]
      rcases ledger.reached_first first with ⟨caller, found, -⟩ | left
      · exact absurd (absent.symm.trans found) nofun
      · exact left

theorem served (running : service.phase = .running) :
    Ledger start (history.add (.served id request (service.present id)))
      { service.setStage id (.answered (service.buffer.reply request)) with
        buffer := service.buffer.served [⟨id, request, service.present id⟩]
        queue := rest } := by
  have line := ledger.line_served first running (service.present id)
  cases found : service.caller? id with
  | none =>
      have away : service.present id = false := by rw [present_eq, found, Option.isSome_none]
      rw [setStage_of_absent found, away] at line ⊢
      exact
        { line, ledger.toCallers, ledger.stages_served_absent first found with }
  | some caller =>
      have there : service.present id = true := by rw [present_eq, found, Option.isSome_some]
      have callers := ledger.setStage found (ledger.going_of_first first)
        (.answered (service.buffer.reply request))
      rw [there] at line ⊢
      exact { line, callers, ledger.stages_served first found with }

end Served

/-! ## A caller leaves -/

section Left

variable {id : Nat} {caller : Pending} (found : service.caller? id = some caller)

include found

/-- Who leaves at a stage has reached it, and nobody else is concerned. -/
theorem reached_left {other : Nat} {stage : Stage} :
    Reached { history with left := history.left ++ [(id, caller.stage)] } (service.leave id) other
        stage ↔ Reached history service other stage := by
  unfold Reached
  rw [caller?_leave, List.mem_append, List.mem_singleton, Prod.mk.injEq]
  by_cases same : other = id
  · subst same
    have here : (other, stage) ∉ history.left := by
      intro left
      rw [ledger.gone left] at found
      cases found
    simp [found, here, eq_comm]
  · simp [same]

theorem callers_left :
    Callers { history with left := history.left ++ [(id, caller.stage)] } (service.leave id) := by
  have stays {other : Nat} {there : Pending}
      (known : (service.leave id).caller? other = some there) :
      service.caller? other = some there := by
    rw [caller?_leave] at known
    split at known
    · cases known
    · exact known
  refine
    { sent := fun known => ledger.sent (stays known)
      unanswered := fun known early => ledger.unanswered (stays known) early
      gone := fun {other stage} left => ?_
      parted := fun {other stage} left => ?_
      leftOnce := ?_ }
  · rw [caller?_leave]
    split
    · rfl
    · next different =>
        rcases List.mem_append.1 left with old | new
        · exact ledger.gone old
        · exact absurd (congrArg Prod.fst (List.mem_singleton.1 new)) different
  · rcases List.mem_append.1 left with old | new
    · exact ledger.parted old
    · rw [show other = id from congrArg Prod.fst (List.mem_singleton.1 new)]
      exact List.mem_map_of_mem (ledger.sent found)
  · rw [List.map_append, List.map_singleton]
    refine ledger.leftOnce.append (List.nodup_singleton _) (List.disjoint_singleton.2 ?_)
    intro member
    obtain ⟨⟨other, stage⟩, left, same⟩ := List.mem_map.1 member
    have absent := ledger.gone left
    rw [show other = id from same, found] at absent
    cases absent

theorem left :
    Ledger start { history with left := history.left ++ [(id, caller.stage)] }
      (service.leave id) where
  toLine := { ledger.toLine with }
  toCallers := ledger.callers_left found
  waiting reached := ledger.waiting ((ledger.reached_left found).1 reached)
  queued reached := ledger.queued ((ledger.reached_left found).1 reached)
  answered reached := ledger.answered ((ledger.reached_left found).1 reached)
  inQueue command member := (ledger.reached_left found).2 (ledger.inQueue command member)
  present one member there :=
    (ledger.present one member there).imp fun _ => (ledger.reached_left found).2
  absent one member away := List.mem_append_left _ (ledger.absent one member away)

end Left

/-! ## The service closes -/

section Closed

variable {phase : Phase} (ended : (service.close phase).closed = true)

theorem callers_closed : Callers history (service.close phase) := by
  refine
    { ledger.toCallers with
      sent := fun found => ?_
      unanswered := fun found early => ?_
      gone := fun left => ?_ }
  · obtain ⟨caller, known, rfl⟩ := of_caller?_close found
    rw [Pending.request_refused]
    exact ledger.sent known
  · obtain ⟨caller, known, rfl⟩ := of_caller?_close found
    unfold Pending.refused at early
    cases at_ : caller.stage with
    | waiting => simp [at_] at early
    | queued => simp [at_] at early
    | answered answer => simp [at_] at early
  · rw [caller?_close, ledger.gone left, Option.map_none]

include ended

theorem line_closed : Line start history (service.close phase) :=
  { ledger.toLine with
    opened := fun still => absurd (ended.symm.trans still) nofun
    emptied := fun _ => rfl
    room := Nat.zero_le _
    idle := fun fresh => by
      unfold closed at ended
      rw [fresh] at ended
      cases ended }

theorem stages_closed : Stages start history (service.close phase) := by
  refine
    { waiting := fun reached => ?_
      queued := fun reached => ?_
      answered := fun {id answer} reached => ?_
      inQueue := nofun
      present := fun one member there =>
        (ledger.present one member there).imp fun _ => reached_closed
      absent := ledger.absent }
  · rcases of_reached_closed reached with before | ⟨at_, -⟩
    · exact ledger.waiting before
    · cases at_
  · rcases of_reached_closed reached with before | ⟨at_, -⟩
    · exact ledger.queued before
    · cases at_
  · rcases of_reached_closed reached with before | ⟨refused, caller, found, early⟩
    · exact (ledger.answered before).imp_right fun ⟨_, rest⟩ => ⟨ended, rest⟩
    · cases refused
      refine Or.inr ⟨ended, fun taken => ?_, rfl⟩
      rcases early with waits | queued
      · exact ledger.waiting (Or.inl ⟨caller, found, waits⟩) (ledger.ids_taken.subset taken)
      · -- It would have been taken after its caller had left.
        obtain ⟨one, member, rfl⟩ := List.mem_map.1 taken
        have away := ledger.queued (Or.inl ⟨caller, found, queued⟩) one member rfl
        have absent := ledger.gone (ledger.absent one member away)
        rw [absent] at found
        cases found

theorem close : Ledger start history (service.close phase) where
  toLine := ledger.line_closed ended
  toCallers := ledger.callers_closed
  toStages := ledger.stages_closed ended

end Closed

end Ledger

/-! ## Runs -/

/-- **Every act keeps the ledger.** -/
theorem Acted.ledger {outcome : Outcome} {after : Service} (acted : Acted service outcome after)
    (ledger : Ledger start history service) : Ledger start (history.add outcome) after := by
  cases acted with
  | quiet silent begun lasting handles opened =>
      rw [silent]
      exact ledger.quiet begun _ handles opened
  | sent request =>
      exact
        { ledger.line_sent request, ledger.callers_sent request, ledger.stages_sent request with }
  | entered found waits room => exact ledger.entered found waits room
  | served running going first => exact ledger.served first running
  | received found answered =>
      have left := ledger.left found
      rw [answered] at left
      exact left
  | abandoned found => exact ledger.left found
  | closed ends =>
      refine ledger.close ?_
      rcases ends with ⟨-, rfl⟩ | ⟨-, rfl⟩ <;> rfl

/-- **The ledger is right after every run.** -/
theorem ledger_play (buffer : Buffer) (capacity : Nat) (acts : List Act) :
    Ledger buffer (historyOf ((unstarted buffer capacity).play acts).result)
      ((unstarted buffer capacity).play acts).state :=
  play_induction Acted.ledger {} (ledger_unstarted buffer capacity) acts

end Gapless.Service
