import SocPeripherals.Clock

/-!
# The agenda of a clock

A clock that is moved by every instruction should not look through its deadlines each time. The
agenda keeps them sorted and remembers the time of the one that comes first; a step compares only
that time with the present, and the deadlines are looked through when it is reached, and whenever
one is placed or cancelled.

The deadlines are sorted by their times as plain numbers, so that those behind the wrap of the
counter stand before the others. The search for the first one therefore starts at the time that is
the horizon behind the present, and goes on at the start of the list.
-/

namespace SocPeripherals

/-- The order of the deadlines: by time, and at one time by the clock and the serial number. -/
def Deadline.Before (first second : Deadline) : Prop :=
  first.time < second.time ∨ first.time = second.time ∧
    (first.clock < second.clock ∨ first.clock = second.clock ∧ first.serial < second.serial)

instance (first second : Deadline) : Decidable (first.Before second) :=
  inferInstanceAs (Decidable (_ ∨ _))

/-- Puts a deadline where it belongs among sorted ones, unless it is there already. -/
def Deadline.sortInto (deadline : Deadline) : List Deadline → List Deadline
  | [] => [deadline]
  | first :: rest =>
      if deadline = first then first :: rest
      else if deadline.Before first then deadline :: first :: rest
      else first :: deadline.sortInto rest

/-- A clock whose pending deadlines are sorted. -/
structure Agenda extends Clock where
  /-- The time of the deadline that comes first. -/
  next : Option UInt64 := none
deriving DecidableEq, Repr

namespace Agenda

/-- The time from which on the first deadline is searched for. -/
def searchStart (agenda : Agenda) : UInt64 := agenda.now - Clock.horizon

/-- The deadline that comes first: the first one from the start of the search on, or else the
first of all. -/
def earliest (agenda : Agenda) : Option Deadline :=
  (agenda.pending.find? fun deadline => agenda.searchStart ≤ deadline.time).or agenda.pending.head?

/-- The agenda with the time of its first deadline looked up. -/
def refreshed (agenda : Agenda) : Agenda :=
  { agenda with next := agenda.earliest.map (·.time) }

/-- Forgets a deadline and looks nothing up. -/
def remove (agenda : Agenda) (deadline : Deadline) : Agenda :=
  { agenda with toClock := agenda.drop deadline }

theorem mem_of_earliest {agenda : Agenda} {first : Deadline}
    (found : agenda.earliest = some first) : first ∈ agenda.pending := by
  rcases Option.or_eq_some_iff.1 found with found | ⟨_, found⟩
  · exact List.mem_of_find?_eq_some found
  · exact List.mem_of_head? found

theorem length_remove_lt {agenda : Agenda} {deadline : Deadline}
    (pending : deadline ∈ agenda.pending) :
    (agenda.remove deadline).pending.length < agenda.pending.length :=
  List.length_filter_lt_length_iff_exists.2 ⟨deadline, pending, by simp⟩

/-- Forgets the first deadline as long as it is reached. -/
def removeReached (agenda : Agenda) : Agenda :=
  match found : agenda.earliest with
  | none => agenda
  | some first =>
      if agenda.hasReached first.time then
        have := mem_of_earliest found
        (agenda.remove first).removeReached
      else agenda
termination_by agenda.pending.length
decreasing_by exact length_remove_lt this

/-- Moves the counter on. If that reaches the remembered time, the deadlines that are reached are
dropped. Answers whether it does. -/
def increment (agenda : Agenda) (cycles : UInt64) : Except Fault (Bool × Agenda) :=
  if cycles < Clock.horizon then
    let moved := { agenda with now := agenda.now + cycles }
    match moved.next with
    | some time =>
        if moved.hasReached time then .ok (true, moved.removeReached.refreshed)
        else .ok (false, moved)
    | none => .ok (false, moved)
  else .error .stepTooLong

/-- Places a deadline at a time. -/
def scheduleAt (agenda : Agenda) (time : UInt64) : Except Fault (Deadline × Agenda) :=
  if agenda.distance time < Clock.horizon then
    let deadline := ⟨agenda.identity, time, agenda.issued⟩
    let placed := { agenda with
      pending := deadline.sortInto agenda.pending, issued := agenda.issued + 1 }
    .ok (deadline, placed.refreshed)
  else .error .deadlineTooFar

/-- Places a deadline a number of cycles ahead. -/
def scheduleIn (agenda : Agenda) (cycles : UInt64) : Except Fault (Deadline × Agenda) :=
  agenda.scheduleAt (agenda.now + cycles)

/-- Forgets a deadline that this clock issued. -/
def cancel (agenda : Agenda) (deadline : Deadline) : Except Fault Agenda :=
  if deadline.clock = agenda.identity then .ok (agenda.remove deadline).refreshed
  else .error .foreignDeadline

/-- The time of the pending deadline that comes first. -/
def nextDeadline (agenda : Agenda) : Option UInt64 := agenda.next

/-- Moves the counter on and polls a bus if a deadline was reached. -/
def incrementAndPoll {μ : Type} [Bus μ] (agenda : Agenda) (cycles : UInt64) (bus : μ) :
    Except Fault (Bool × Agenda × μ) := do
  let (reached, moved) ← agenda.increment cycles
  return (reached, moved, if reached then Bus.poll bus else bus)

end Agenda

end SocPeripherals
