import SocPeripherals.Clock
import Mathlib.Data.List.Basic

/-!
# Times near the present

A deadline that was placed less than the horizon ahead is reached exactly when its distance has
been used up, wherever the counter wraps around.
-/

namespace SocPeripherals

namespace Clock

variable {clock after : Clock} {deadline : Deadline} {time cycles : UInt64} {reached : Bool}

/-- The clock with its counter moved on and its deadlines kept. -/
def moved (clock : Clock) (cycles : UInt64) : Clock := { clock with now := clock.now + cycles }

/-- The pending deadlines lie less than the horizon ahead. -/
def Within (clock : Clock) : Prop :=
  ∀ deadline ∈ clock.pending, clock.distance deadline.time < horizon

/-- The pending deadlines lie ahead of the present cycle, less than the horizon away. -/
def Upcoming (clock : Clock) : Prop :=
  ∀ deadline ∈ clock.pending,
    0 < clock.distance deadline.time ∧ clock.distance deadline.time < horizon

/-- The deadline lies ahead, near enough to be placed again. -/
abbrev Near (clock : Clock) (deadline : Deadline) : Prop :=
  0 < clock.distance deadline.time ∧ clock.distance deadline.time < horizon

theorem Upcoming.within (upcoming : clock.Upcoming) : clock.Within :=
  fun deadline placed => (upcoming deadline placed).2

theorem hasReached_eq_false_iff (near : clock.distance time < horizon) :
    clock.hasReached time = false ↔ 0 < clock.distance time := by
  simp only [hasReached, distance, horizon] at *
  grind

theorem claim_of_reached (reached : clock.hasReached deadline.time = true) :
    clock.claim (some deadline) = (true, none) := by
  simp [claim, reached]

theorem claim_of_ahead (ahead : clock.hasReached deadline.time = false) :
    clock.claim (some deadline) = (false, some deadline) := by
  simp [claim, ahead]

/-- After a step, the times no further ahead than the step are reached. -/
theorem hasReached_moved_iff (near : clock.distance time < horizon) (short : cycles < horizon) :
    (clock.moved cycles).hasReached time = true ↔ clock.distance time ≤ cycles := by
  simp only [moved, hasReached, distance, horizon] at *
  grind

theorem distance_moved (clock : Clock) (cycles time : UInt64) :
    (clock.moved cycles).distance time = clock.distance time - cycles := by
  simp only [moved, distance]
  grind

/-- After a step, the times further ahead than the step still lie ahead. -/
theorem upcoming_moved (near : clock.distance time < horizon) (short : cycles < horizon)
    (ahead : (clock.moved cycles).hasReached time = false) :
    0 < (clock.moved cycles).distance time ∧ (clock.moved cycles).distance time < horizon := by
  have further : cycles < clock.distance time := by
    rw [← Bool.not_eq_true, hasReached_moved_iff near short] at ahead
    exact UInt64.not_le.1 ahead
  rw [distance_moved]
  generalize clock.distance time = distance at near further
  unfold horizon at near ⊢
  constructor <;> grind

theorem distance_pos (different : time ≠ clock.now) : 0 < clock.distance time := by
  unfold distance
  grind

/-- A deadline ahead leaves some cycles before it. -/
theorem one_le_remaining (ahead : clock.hasReached deadline.time = false) :
    1 ≤ clock.remaining deadline := by
  have apart : deadline.time ≠ clock.now := by
    intro same
    simp [hasReached, same, horizon] at ahead
  have left := distance_pos apart
  rw [remaining, ahead]
  grind

theorem distance_add (clock : Clock) (cycles : UInt64) :
    clock.distance (clock.now + cycles) = cycles := by
  simp only [distance]
  grind

theorem scheduleIn_of_lt (clock : Clock) (near : cycles < horizon) :
    ∃ result, clock.scheduleIn cycles = .ok result := by
  unfold scheduleIn scheduleAt
  rw [distance_add, if_pos near]
  exact ⟨_, rfl⟩

/-- A deadline that lies too far ahead is a fault. -/
theorem scheduleIn_of_not_lt (clock : Clock) (far : ¬ cycles < horizon) :
    clock.scheduleIn cycles = .error .deadlineTooFar := by
  unfold scheduleIn scheduleAt
  rw [distance_add, if_neg far]

/-- What is left until the next deadline. -/
theorem map_distance_nextDeadline (clock : Clock) :
    clock.nextDeadline.map clock.distance = clock.nextDistance := by
  have ahead : clock.distance ∘ (clock.now + ·) = id := funext clock.distance_add
  rw [nextDeadline, Option.map_map, ahead, Option.map_id]
  rfl

@[simp]
theorem moved_zero (clock : Clock) : clock.moved 0 = clock := by
  simp [moved]

theorem moved_moved (clock : Clock) (first second : UInt64) :
    (clock.moved first).moved second = clock.moved (first + second) := by
  simp [moved, UInt64.add_assoc]

theorem increment_of_lt (short : cycles < horizon) :
    clock.increment cycles =
      .ok (clock.pending.any fun deadline => (clock.moved cycles).hasReached deadline.time,
        { clock.moved cycles with
          pending := clock.pending.filter fun deadline =>
            !(clock.moved cycles).hasReached deadline.time }) := by
  unfold increment
  rw [if_pos short]
  rfl

/-- Who cancels a deadline lets it go. -/
theorem of_cancel (done : clock.cancel deadline = .ok after) : after = clock.drop deadline := by
  unfold cancel at done
  split at done
  next => exact (Except.ok.inj done).symm
  next => contradiction

theorem short_of_increment (done : clock.increment cycles = .ok (reached, after)) :
    cycles < horizon := by
  refine Decidable.byContradiction fun long => ?_
  simp [increment, long] at done

theorem now_of_increment (done : clock.increment cycles = .ok (reached, after)) :
    after.now = clock.now + cycles := by
  rw [increment_of_lt (short_of_increment done)] at done
  cases done
  rfl

theorem issued_of_increment (done : clock.increment cycles = .ok (reached, after)) :
    after.issued = clock.issued := by
  rw [increment_of_lt (short_of_increment done)] at done
  cases done
  rfl

/-- A step that reaches no deadline leaves the pending ones ahead. -/
theorem ahead_of_increment (done : clock.increment cycles = .ok (false, after))
    (placed : deadline ∈ clock.pending) : after.hasReached deadline.time = false := by
  rw [increment_of_lt (short_of_increment done)] at done
  simp only [Except.ok.injEq, Prod.mk.injEq] at done
  obtain ⟨none, rfl⟩ := done
  exact Bool.not_eq_true _ ▸ List.any_eq_false.1 none deadline placed

theorem increment_moved (clock : Clock) (first : UInt64) {second : UInt64}
    (short : second < horizon) (shortSum : first + second < horizon) :
    (clock.moved first).increment second = clock.increment (first + second) := by
  rw [increment_of_lt short, increment_of_lt shortSum, moved_moved]
  rfl

/-- A step in terms of distances. -/
theorem Within.increment_eq (within : clock.Within) (short : cycles < horizon) :
    clock.increment cycles =
      .ok (clock.pending.any fun deadline => clock.distance deadline.time ≤ cycles,
        { clock.moved cycles with
          pending := clock.pending.filter fun deadline =>
            cycles < clock.distance deadline.time }) := by
  have reached : ∀ deadline ∈ clock.pending, (clock.moved cycles).hasReached deadline.time
      = decide (clock.distance deadline.time ≤ cycles) := by
    intro deadline placed
    rw [Bool.eq_iff_iff, hasReached_moved_iff (within deadline placed) short, decide_eq_true_iff]
  have any : (clock.pending.any fun deadline => (clock.moved cycles).hasReached deadline.time)
      = clock.pending.any fun deadline => clock.distance deadline.time ≤ cycles := by
    rw [Bool.eq_iff_iff, List.any_eq_true, List.any_eq_true]
    exact exists_congr fun deadline => and_congr_right fun placed => by rw [reached deadline placed]
  have left : (clock.pending.filter fun deadline =>
        !(clock.moved cycles).hasReached deadline.time)
      = clock.pending.filter fun deadline => cycles < clock.distance deadline.time := by
    refine List.filter_congr fun deadline placed => ?_
    rw [reached deadline placed, ← decide_not]
    simp only [UInt64.not_le]
  rw [increment_of_lt short, any, left]

/-- A step that reaches no deadline only moves the counter. -/
theorem increment_of_quiet (short : cycles < horizon)
    (quiet : ∀ deadline ∈ clock.pending, (clock.moved cycles).hasReached deadline.time = false) :
    clock.increment cycles = .ok (false, clock.moved cycles) := by
  have none : (clock.pending.any fun deadline => (clock.moved cycles).hasReached deadline.time)
      = false := by
    rw [List.any_eq_false]
    intro deadline placed
    simp [quiet deadline placed]
  have all : (clock.pending.filter fun deadline => !(clock.moved cycles).hasReached deadline.time)
      = clock.pending := by
    rw [List.filter_eq_self]
    intro deadline placed
    simp [quiet deadline placed]
  rw [increment_of_lt short, none, all]
  rfl

/-- The deadlines that lie further ahead than a step are not reached by it. -/
theorem Upcoming.quiet (upcoming : clock.Upcoming) (short : cycles < horizon)
    (further : ∀ deadline ∈ clock.pending, cycles < clock.distance deadline.time) :
    ∀ deadline ∈ clock.pending, (clock.moved cycles).hasReached deadline.time = false := by
  intro deadline placed
  rw [← Bool.not_eq_true, hasReached_moved_iff (upcoming deadline placed).2 short, UInt64.not_le]
  exact further deadline placed

/-- Moving the counter on leaves only deadlines that lie ahead. -/
theorem upcoming_of_increment (within : clock.Within)
    (done : clock.increment cycles = .ok (reached, after)) : after.Upcoming := by
  by_cases short : cycles < horizon
  · rw [increment_of_lt short] at done
    cases done
    intro deadline placed
    obtain ⟨placedBefore, ahead⟩ := List.mem_filter.1 placed
    rw [Bool.not_eq_true'] at ahead
    exact upcoming_moved (within deadline placedBefore) short ahead
  · simp [increment, short] at done

theorem nextDistance_eq_none_iff : clock.nextDistance = none ↔ clock.pending = [] := by
  simp [nextDistance]

theorem nextDistance_eq_some_iff {least : UInt64} : clock.nextDistance = some least ↔
    (∃ deadline ∈ clock.pending, clock.distance deadline.time = least) ∧
      ∀ deadline ∈ clock.pending, least ≤ clock.distance deadline.time := by
  simp [nextDistance, List.min?_eq_some_iff]

theorem within_of_scheduleAt (within : clock.Within)
    (done : clock.scheduleAt time = .ok (deadline, after)) : after.Within := by
  unfold scheduleAt at done
  split at done
  next near =>
    cases done
    intro other placed
    rcases List.mem_cons.1 placed with rfl | placed
    · exact near
    · exact within other placed
  next => contradiction

end Clock

end SocPeripherals
