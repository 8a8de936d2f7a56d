import SocPeripherals.Bus.Basic
import SocPeripherals.Fault

/-!
# The clock and its deadlines

The clock counts cycles in a 64-bit word that wraps around. A time is compared with the present
by its forward distance, the number of cycles until the counter shows it; a time whose distance
is beyond half of the word lies in the past. The clock keeps the deadlines that were placed on
it and are neither cancelled nor passed, each with a serial number of its own, so that two
deadlines at one time stay apart.
-/

namespace SocPeripherals

/-- A moment at which some device wants to be polled, as issued by one clock. -/
structure Deadline where
  clock : Nat
  time : UInt64
  serial : Nat
deriving DecidableEq, Repr

/-- A cycle counter with the deadlines still ahead of it. -/
structure Clock where
  /-- Tells the deadlines of this clock from those of others. -/
  identity : Nat := 0
  /-- The present cycle. -/
  now : UInt64 := 0
  /-- The deadlines that have neither passed nor been cancelled. -/
  pending : List Deadline := []
  /-- How many deadlines have been issued. -/
  issued : Nat := 0
deriving DecidableEq, Repr

namespace Clock

/-- The distance from which on a time is no longer taken to lie ahead. -/
def horizon : UInt64 := 0x7fffffffffffffff

/-- The cycles until the counter shows `time`. -/
def distance (clock : Clock) (time : UInt64) : UInt64 := time - clock.now

/-- The counter shows `time` or has gone past it. -/
def hasReached (clock : Clock) (time : UInt64) : Bool := clock.now - time < horizon

/-- Moves the counter on and drops the deadlines it reaches. Answers whether there were any. -/
def increment (clock : Clock) (cycles : UInt64) : Except Fault (Bool × Clock) :=
  if cycles < horizon then
    let moved := { clock with now := clock.now + cycles }
    let ahead := clock.pending.filter fun deadline => !moved.hasReached deadline.time
    .ok (clock.pending.any fun deadline => moved.hasReached deadline.time,
      { moved with pending := ahead })
  else .error .stepTooLong

/-- A fresh clock that has been moved to a first cycle. -/
def starting (cycles : UInt64) : Except Fault Clock := do
  let (_, clock) ← ({} : Clock).increment cycles
  return clock

/-- Places a deadline at a time. -/
def scheduleAt (clock : Clock) (time : UInt64) : Except Fault (Deadline × Clock) :=
  if clock.distance time < horizon then
    let deadline := ⟨clock.identity, time, clock.issued⟩
    .ok (deadline,
      { clock with pending := deadline :: clock.pending, issued := clock.issued + 1 })
  else .error .deadlineTooFar

/-- Places a deadline a number of cycles ahead. -/
def scheduleIn (clock : Clock) (cycles : UInt64) : Except Fault (Deadline × Clock) :=
  clock.scheduleAt (clock.now + cycles)

/-- Forgets a deadline; one that is not pending leaves the clock as it is. -/
def drop (clock : Clock) (deadline : Deadline) : Clock :=
  { clock with pending := clock.pending.filter (· ≠ deadline) }

/-- Forgets a deadline if there is one. -/
def dropAny (clock : Clock) : Option Deadline → Clock
  | none => clock
  | some deadline => clock.drop deadline

/-- Forgets a deadline that this clock issued. -/
def cancel (clock : Clock) (deadline : Deadline) : Except Fault Clock :=
  if deadline.clock = clock.identity then .ok (clock.drop deadline) else .error .foreignDeadline

/-- Asks whether a held deadline has been reached; one that has is let go. -/
def claim (clock : Clock) : Option Deadline → Bool × Option Deadline
  | none => (false, none)
  | some deadline =>
      if clock.hasReached deadline.time then (true, none) else (false, some deadline)

/-- The cycles left before a deadline, none once it is reached. -/
def remaining (clock : Clock) (deadline : Deadline) : UInt64 :=
  if clock.hasReached deadline.time then 0 else clock.distance deadline.time

/-- The least distance of a pending deadline. -/
def nextDistance (clock : Clock) : Option UInt64 :=
  (clock.pending.map fun deadline => clock.distance deadline.time).min?

/-- The time of the pending deadline that comes first. -/
def nextDeadline (clock : Clock) : Option UInt64 :=
  clock.nextDistance.map (clock.now + ·)

/-- Moves the counter on and polls a bus if a deadline was reached. -/
def incrementAndPoll {μ : Type} [Bus μ] (clock : Clock) (cycles : UInt64) (bus : μ) :
    Except Fault (Bool × Clock × μ) := do
  let (reached, moved) ← clock.increment cycles
  return (reached, moved, if reached then Bus.poll bus else bus)

@[simp]
theorem mem_pending_drop {clock : Clock} {deadline other : Deadline} :
    other ∈ (clock.drop deadline).pending ↔ other ∈ clock.pending ∧ other ≠ deadline := by
  simp [drop]

theorem pending_of_increment {clock after : Clock} {cycles : UInt64} {reached : Bool}
    (done : clock.increment cycles = .ok (reached, after)) {deadline : Deadline} :
    deadline ∈ after.pending ↔
      deadline ∈ clock.pending ∧ after.hasReached deadline.time = false := by
  unfold increment at done
  split at done
  · cases done
    simp [hasReached]
  · contradiction

theorem pending_of_scheduleAt {clock after : Clock} {time : UInt64} {deadline : Deadline}
    (done : clock.scheduleAt time = .ok (deadline, after)) :
    after.pending = deadline :: clock.pending ∧ deadline.time = time := by
  unfold scheduleAt at done
  split at done
  · cases done
    exact ⟨rfl, rfl⟩
  · contradiction

end Clock

end SocPeripherals
