import SocPeripherals.Proofs.Clock.Time
import SocPeripherals.Proofs.Run

/-!
# Clocks in lockstep

The counters of two clocks stand a fixed number of cycles apart, and deadlines on the one are
paired with deadlines on the other that lie as far ahead. A device only asks how far ahead its
deadlines lie, so that it cannot tell the clocks apart.
-/

namespace SocPeripherals

namespace Clock

/-- Which clocks go in lockstep, and which of their deadlines are paired. Using both clocks in the
same way keeps them in lockstep. -/
structure Lockstep where
  /-- How far the counter of the second clock is ahead of that of the first. -/
  shift : UInt64
  clocks : Clock → Clock → Prop
  deadlines : Deadline → Deadline → Prop
  now_eq {clock other : Clock} : clocks clock other → other.now = clock.now + shift
  time_eq {deadline paired : Deadline} : deadlines deadline paired →
    paired.time = deadline.time + shift
  drop {clock other : Clock} {deadline paired : Deadline} : clocks clock other →
    deadlines deadline paired → clocks (clock.drop deadline) (other.drop paired)
  place {clock other after later : Clock} {deadline paired : Deadline} {time : UInt64} :
    clocks clock other → clock.scheduleAt time = .ok (deadline, after) →
    other.scheduleAt (time + shift) = .ok (paired, later) →
    deadlines deadline paired ∧ clocks after later

/-- Clocks that stand apart, with deadlines that lie equally far ahead. -/
def Lockstep.apart (shift : UInt64) : Lockstep where
  shift
  clocks clock other := other.now = clock.now + shift
  deadlines deadline paired := paired.time = deadline.time + shift
  now_eq := id
  time_eq := id
  drop := fun now _ => now
  place {clock other after later deadline paired time} now placed placedOther := by
    unfold scheduleAt at placed placedOther
    split at placed
    next =>
      split at placedOther
      next =>
        cases placed
        cases placedOther
        exact ⟨rfl, now⟩
      next => contradiction
    next => contradiction

namespace Lockstep

variable {lockstep : Lockstep} {clock other : Clock} {deadline paired : Deadline} {ε : Type}

theorem distance_eq (clocks : lockstep.clocks clock other) (time : UInt64) :
    other.distance (time + lockstep.shift) = clock.distance time := by
  unfold distance
  rw [lockstep.now_eq clocks]
  grind

theorem hasReached_eq (clocks : lockstep.clocks clock other)
    (deadlines : lockstep.deadlines deadline paired) :
    other.hasReached paired.time = clock.hasReached deadline.time := by
  have apart : other.now - paired.time = clock.now - deadline.time := by
    rw [lockstep.now_eq clocks, lockstep.time_eq deadlines]
    grind
  rw [hasReached, hasReached, apart]

theorem remaining_eq (clocks : lockstep.clocks clock other)
    (deadlines : lockstep.deadlines deadline paired) :
    other.remaining paired = clock.remaining deadline := by
  unfold remaining
  rw [hasReached_eq clocks deadlines, lockstep.time_eq deadlines, distance_eq clocks]

/-- The cycles since a moment that lies as far back on both clocks. -/
theorem elapsed_eq (clocks : lockstep.clocks clock other) (start : UInt64) :
    other.now - (start + lockstep.shift) = clock.now - start := by
  rw [lockstep.now_eq clocks]
  grind

/-- A moment that lies as far back on both clocks. -/
theorem start_eq (clocks : lockstep.clocks clock other) (elapsed : UInt64) :
    other.now - elapsed = clock.now - elapsed + lockstep.shift := by
  rw [lockstep.now_eq clocks]
  grind

theorem dropAny {holder holderOther : Option Deadline} (clocks : lockstep.clocks clock other)
    (holders : Option.Rel lockstep.deadlines holder holderOther) :
    lockstep.clocks (clock.dropAny holder) (other.dropAny holderOther) := by
  cases holders with
  | none => exact clocks
  | some deadlines => exact lockstep.drop clocks deadlines

theorem claim {holder holderOther : Option Deadline} (clocks : lockstep.clocks clock other)
    (holders : Option.Rel lockstep.deadlines holder holderOther) :
    (other.claim holderOther).1 = (clock.claim holder).1 ∧
      Option.Rel lockstep.deadlines (clock.claim holder).2 (other.claim holderOther).2 := by
  cases holders with
  | none => exact ⟨rfl, .none⟩
  | some deadlines =>
      unfold Clock.claim
      dsimp only
      rw [hasReached_eq clocks deadlines]
      split
      next => exact ⟨rfl, .none⟩
      next => exact ⟨rfl, .some deadlines⟩

theorem scheduleAt (clocks : lockstep.clocks clock other) (time : UInt64) :
    Run.Matches (ε := ε) (fun (deadline, after) (paired, later) =>
        lockstep.deadlines deadline paired ∧ lockstep.clocks after later)
      (liftM (clock.scheduleAt time)) (liftM (other.scheduleAt (time + lockstep.shift))) := by
  by_cases near : clock.distance time < horizon
  · have nearOther : other.distance (time + lockstep.shift) < horizon := by
      rwa [distance_eq clocks]
    cases placed : clock.scheduleAt time with
    | error fault => simp [Clock.scheduleAt, near] at placed
    | ok result =>
        cases placedOther : other.scheduleAt (time + lockstep.shift) with
        | error fault => simp [Clock.scheduleAt, nearOther] at placedOther
        | ok resultOther => exact .value [] (lockstep.place clocks placed placedOther)
  · have farOther : ¬other.distance (time + lockstep.shift) < horizon := by
      rwa [distance_eq clocks]
    rw [Clock.scheduleAt, if_neg near, Clock.scheduleAt, if_neg farOther]
    exact .fault _ []

theorem scheduleIn (clocks : lockstep.clocks clock other) (cycles : UInt64) :
    Run.Matches (ε := ε) (fun (deadline, after) (paired, later) =>
        lockstep.deadlines deadline paired ∧ lockstep.clocks after later)
      (liftM (clock.scheduleIn cycles)) (liftM (other.scheduleIn cycles)) := by
  have time : other.now + cycles = clock.now + cycles + lockstep.shift := by
    rw [lockstep.now_eq clocks]
    grind
  unfold Clock.scheduleIn
  rw [time]
  exact scheduleAt clocks (clock.now + cycles)

end Lockstep

end Clock

end SocPeripherals
