/-
# Gapless.Proofs.Ledger -- what the history of a run says of the service

The ledger ties a service to the history of the run that led to it.  It has three parts.

* `Line`: what was taken is the beginning of what entered, what is queued is the rest,
  and the buffer is what serving the taken requests makes of the first one.
* `Callers`: whoever is there has sent a request, and whoever left is not there.
* `Stages`: waiting requests have not entered, what is in the queue was not answered, and
  an answer is the buffer's own from the moment at which the request was taken
  (`Replied`), or the refusal of a closed service to a request that never was.

A request is said to have reached a stage when its caller is there at that stage or left
at it (`Reached`), so that leaving changes nothing for it.

`Gapless.Proofs.Bookkeeping` says that the ledger is right after every run.
-/
import Gapless.Proofs.Protocol
import Mathlib.Data.List.Nodup

namespace Gapless.Service

set_option autoImplicit false

/-! ## Parts of the ledger -/

/-- What was taken from the queue, as it had entered it. -/
def History.commands (history : History) : List (Nat × Request) :=
  history.taken.map Serving.command

structure Line (start : Buffer) (history : History) (service : Service) : Prop where
  numbered : history.sent.map Prod.fst = List.range service.arrived
  known : ∀ command ∈ history.entered, command ∈ history.sent
  once : (history.entered.map Prod.fst).Nodup
  taken : history.commands <+: history.entered
  opened : service.closed = false → history.entered = history.commands ++ service.queue
  emptied : service.closed = true → service.queue = []
  room : service.queue.length ≤ service.capacity
  buffer : service.buffer = start.served history.taken
  idle : service.phase = .unstarted → history.taken = []

structure Callers (history : History) (service : Service) : Prop where
  sent : ∀ {id caller}, service.caller? id = some caller → (id, caller.request) ∈ history.sent
  unanswered : ∀ {id caller}, service.caller? id = some caller →
    caller.stage = .waiting ∨ caller.stage = .queued → service.closed = false
  gone : ∀ {id stage}, (id, stage) ∈ history.left → service.caller? id = none
  parted : ∀ {id stage}, (id, stage) ∈ history.left → id ∈ history.sent.map Prod.fst
  leftOnce : (history.left.map Prod.fst).Nodup

/-- The caller of a request is there at this stage, or left at it. -/
def Reached (history : History) (service : Service) (id : Nat) (stage : Stage) : Prop :=
  (∃ caller, service.caller? id = some caller ∧ caller.stage = stage) ∨ (id, stage) ∈ history.left

/-- The caller was there when its request was taken, and this is what the buffer said. -/
def Replied (start : Buffer) (taken : List Serving) (id : Nat) (answer : Answer) : Prop :=
  ∃ before one behind, taken = before ++ one :: behind ∧ one.id = id ∧ one.present = true ∧
    answer = (start.served before).reply one.request

structure Stages (start : Buffer) (history : History) (service : Service) : Prop where
  waiting : ∀ {id}, Reached history service id .waiting → id ∉ history.entered.map Prod.fst
  queued : ∀ {id}, Reached history service id .queued →
    ∀ one ∈ history.taken, one.id = id → one.present = false
  answered : ∀ {id answer}, Reached history service id (.answered answer) →
    Replied start history.taken id answer ∨
      service.closed = true ∧ id ∉ history.taken.map Serving.id ∧ answer = .error .closed
  inQueue : ∀ command ∈ service.queue, Reached history service command.1 .queued
  present : ∀ one ∈ history.taken, one.present = true →
    ∃ answer, Reached history service one.id (.answered answer)
  absent : ∀ one ∈ history.taken, one.present = false → (one.id, .queued) ∈ history.left

structure Ledger (start : Buffer) (history : History) (service : Service) : Prop
    extends Line start history service, Callers history service, Stages start history service

variable {start : Buffer} {history : History} {service : Service}

theorem ledger_unstarted (buffer : Buffer) (capacity : Nat) :
    Ledger buffer {} (unstarted buffer capacity) where
  numbered := rfl
  known _ member := nomatch member
  once := List.nodup_nil
  taken := List.nil_prefix
  opened _ := rfl
  emptied _ := rfl
  room := Nat.zero_le _
  buffer := rfl
  idle _ := rfl
  sent found := nomatch found
  unanswered found := nomatch found
  gone member := nomatch member
  parted member := nomatch member
  leftOnce := List.nodup_nil
  waiting _ member := nomatch member
  queued _ _ member := nomatch member
  answered reached := by
    rcases reached with ⟨caller, found, -⟩ | member
    · exact nomatch found
    · exact nomatch member
  inQueue _ member := nomatch member
  present _ member := nomatch member
  absent _ member := nomatch member

/-! ## What follows at once -/

theorem Replied.append {taken : List Serving} {id : Nat} {answer : Answer}
    (replied : Replied start taken id answer) (more : List Serving) :
    Replied start (taken ++ more) id answer := by
  obtain ⟨before, one, behind, split, own, there, same⟩ := replied
  refine ⟨before, one, behind ++ more, ?_, own, there, same⟩
  rw [split, List.append_assoc, List.cons_append]

theorem Replied.mem {taken : List Serving} {id : Nat} {answer : Answer}
    (replied : Replied start taken id answer) : id ∈ taken.map Serving.id := by
  obtain ⟨before, one, behind, rfl, rfl, -⟩ := replied
  simp

namespace Line

variable (line : Line start history service)

include line

theorem ids_taken : history.taken.map Serving.id <+: history.entered.map Prod.fst := by
  have commands := line.taken.map Prod.fst
  unfold History.commands at commands
  rwa [List.map_map] at commands

/-- Nothing is taken twice. -/
theorem taken_once : (history.taken.map Serving.id).Nodup :=
  line.once.sublist line.ids_taken.sublist

theorem mem_sent_iff {id : Nat} : id ∈ history.sent.map Prod.fst ↔ id < service.arrived := by
  rw [line.numbered, List.mem_range]

theorem arrived_notMem_entered : service.arrived ∉ history.entered.map Prod.fst := by
  intro entered
  obtain ⟨command, member, same⟩ := List.mem_map.1 entered
  have sent := List.mem_map_of_mem (f := Prod.fst) (line.known command member)
  rw [same] at sent
  exact Nat.lt_irrefl _ (line.mem_sent_iff.1 sent)

/-- Nothing is queued at a closed service. -/
theorem going {command : Nat × Request} (member : command ∈ service.queue) :
    service.closed = false := by
  cases closed : service.closed with
  | false => rfl
  | true =>
      rw [line.emptied closed] at member
      cases member

end Line

namespace Callers

variable (callers : Callers history service)

include callers

/-- A caller that is there is at its own stage only. -/
theorem stage_of_reached {id : Nat} {caller : Pending} (found : service.caller? id = some caller)
    {stage : Stage} (reached : Reached history service id stage) : caller.stage = stage := by
  rcases reached with ⟨other, same, at_⟩ | left
  · rw [found] at same
    cases same
    exact at_
  · rw [callers.gone left] at found
    cases found

section Found

variable {id : Nat} {caller : Pending} (found : service.caller? id = some caller)

include found

/-- Moving a request on to another stage. -/
theorem reached_setStage {moved stage : Stage} {other : Nat} :
    Reached history (service.setStage id moved) other stage ↔
      if other = id then stage = moved else Reached history service other stage := by
  unfold Reached
  rw [caller?_setStage found]
  by_cases same : other = id
  · subst same
    have here : (other, stage) ∉ history.left := by
      intro left
      rw [callers.gone left] at found
      cases found
    simp [here, eq_comm]
  · rw [if_neg same, if_neg same]

theorem setStage (going : service.closed = false) (moved : Stage) :
    Callers history (service.setStage id moved) :=
  { callers with
    sent := fun {other _} there => by
      rw [caller?_setStage found] at there
      split at there
      · next same =>
          have sent := callers.sent found
          cases there
          exact same ▸ sent
      · exact callers.sent there
    unanswered := fun _ _ => going
    gone := fun {other _} left => by
      have absent := callers.gone left
      rw [caller?_setStage found, if_neg, absent]
      rintro rfl
      rw [found] at absent
      cases absent }

/-- Whoever reached a stage keeps it when somebody else is moved on. -/
theorem reached_of_reached {moved stage : Stage} {other : Nat}
    (reached : Reached history service other stage) (elsewhere : stage ≠ caller.stage) :
    Reached history (service.setStage id moved) other stage := by
  refine (callers.reached_setStage found).2 ?_
  rw [if_neg]
  · exact reached
  · rintro rfl
    exact elsewhere (callers.stage_of_reached found reached).symm

end Found

end Callers

end Gapless.Service
