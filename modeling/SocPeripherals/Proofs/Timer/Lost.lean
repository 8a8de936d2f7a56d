import SocPeripherals.Proofs.Timer.Rewrites

/-!
# Timers lost to the wrap of the counter

A period ends at a deadline, which is handled at most half of the counter late. A timer that was
saved after the end of its period comes back with a deadline at once, and the end of its period
stays behind. Left alone for long enough, and saved and restored again, it comes to a cycle from
which the end of its period seems to lie ahead, and the next one so far ahead that no deadline can
be placed for it. Nowhere else does polling a timer end with a fault.
-/

namespace SocPeripherals

namespace Timer

variable {timer : Timer} {clock other : Clock} {start period left : UInt64}

/-- The timer is due, and the end of its period lies so far behind that it seems to lie ahead, where
the period that follows would end beyond the horizon. -/
def IsLost (timer : Timer) (clock : Clock) : Prop :=
  ∃ start expiry period next, timer.phase = .running start expiry ∧
    clock.hasReached expiry.time = true ∧
    timer.bank.get controlIndex &&& periodicBit ≠ 0 ∧
    timer.latch.period = .ok period ∧ timer.latched.period = .ok next ∧
    clock.distance (start + period) ≤ Clock.horizon ∧
    Clock.horizon ≤ clock.distance (start + period) + next

theorem IsLost.congr (same : other.now = clock.now) (lost : timer.IsLost clock) :
    timer.IsLost other := by
  obtain ⟨start, expiry, period, next, phase, reached, periodic, length, nextLength, ahead, far⟩ :=
    lost
  rw [← Clock.distance_congr same] at ahead far
  exact ⟨start, expiry, period, next, phase, (Clock.hasReached_congr same _).trans reached,
    periodic, length, nextLength, ahead, far⟩

/-- The timer is not lost, whatever its clock shows. -/
def IsNeverLost (timer : Timer) : Prop :=
  ∀ clock : Clock, ¬ timer.IsLost clock

theorem isNeverLost_of_stopped (stopped : timer.phase = .stopped) : timer.IsNeverLost := by
  rintro clock ⟨_, _, _, _, phase, -⟩
  exact absurd (stopped.symm.trans phase) (by simp)

/-- A timer whose deadline is at the end of its period is never lost. -/
theorem isNeverLost_of_regular {expiry : Deadline} (phase : timer.phase = .running start expiry)
    (regular : Span.Regular ⟨timer.latch, start, expiry⟩) : timer.IsNeverLost := by
  rintro clock ⟨_, _, period, next, running, reached, -, length, nextLength, ahead, far⟩
  cases phase.symm.trans running
  cases regular.length.symm.trans length
  obtain ⟨_, found, -, short⟩ := period_latched timer
  cases nextLength.symm.trans found
  have ends : start + (expiry.time - start) = expiry.time := by grind
  dsimp only at ahead far
  rw [ends] at ahead far
  simp only [Clock.hasReached, Clock.distance, Clock.horizon] at *
  grind

/-! ## Beginning a period -/

/-- The end of a period whose start has not come yet. -/
theorem distance_of_early (early : clock.distance start ≤ Clock.horizon) (period : UInt64) :
    clock.distance ((skipMissed clock.now start period).1 + period)
      = clock.distance start + period := by
  unfold Clock.distance at *
  unfold skipMissed
  rw [if_pos early]
  grind

/-- A period that begins after those that were missed ends no further ahead than it is long. -/
theorem distance_of_late (late : ¬ clock.distance start ≤ Clock.horizon) (positive : 0 < period) :
    clock.distance ((skipMissed clock.now start period).1 + period) ≤ period := by
  unfold Clock.distance at *
  unfold skipMissed
  rw [if_neg late]
  have whole := div_mul_add_mod (clock.now - start) period
  have rest := UInt64.mod_lt (clock.now - start) positive
  dsimp only
  generalize (clock.now - start) / period * period = skipped at *
  generalize (clock.now - start) % period = used at *
  grind

/-- The end of the next period decides whether it can begin. -/
theorem outcome_arm {next : UInt64} (length : timer.latched.period = .ok next) :
    (timer.arm clock start).outcome
      = (timer.place clock (skipMissed clock.now start next).1 next).outcome := by
  unfold arm
  rw [length]
  refine (congrArg Run.outcome (Run.bind_of_ok rfl _)).trans ?_
  dsimp only
  split
  next => exact (congrArg Run.outcome (Run.bind_of_ok rfl _)).trans rfl
  next => rfl

theorem arm_of_far {next : UInt64} (length : timer.latched.period = .ok next)
    (early : clock.distance start ≤ Clock.horizon)
    (far : Clock.horizon ≤ clock.distance start + next) :
    (timer.arm clock start).outcome = .error .deadlineTooFar := by
  have distant : ¬ clock.distance ((skipMissed clock.now start next).1 + next) < Clock.horizon := by
    rw [distance_of_early early]
    exact UInt64.not_lt.2 far
  rw [outcome_arm length]
  unfold place Clock.scheduleAt
  rw [if_neg distant]
  rfl

theorem arm_succeeds (near : ∀ next, timer.latched.period = .ok next →
      clock.distance start ≤ Clock.horizon → clock.distance start + next < Clock.horizon) :
    (timer.arm clock start).Succeeds fun (after, later) =>
      after.IsNeverLost ∧ later.now = clock.now ∧ clock.pending ⊆ later.pending := by
  obtain ⟨next, length, positive, short⟩ := period_latched timer
  have soon : clock.distance ((skipMissed clock.now start next).1 + next) < Clock.horizon := by
    by_cases early : clock.distance start ≤ Clock.horizon
    · rw [distance_of_early early]
      exact near next length early
    · exact UInt64.lt_of_le_of_lt (UInt64.le_trans (distance_of_late early positive) short)
        (by decide)
  unfold Run.Succeeds
  rw [outcome_arm length]
  unfold place Clock.scheduleAt
  rw [if_pos soon]
  refine ⟨_, rfl, isNeverLost_of_regular rfl ⟨(stepCycles_latched timer).2, ?_⟩, rfl,
    List.subset_cons_self _ _⟩
  dsimp only
  rw [length]
  congr 1
  grind

/-! ## Polling -/

theorem poll_of_isLost (lost : timer.IsLost clock) :
    (timer.poll clock).outcome = .error .deadlineTooFar := by
  obtain ⟨start, expiry, period, next, phase, reached, periodic, length, nextLength, early, far⟩ :=
    lost
  have fails := arm_of_far nextLength early far
  have turns : (timer.turned clock start).outcome = .error .deadlineTooFar := by
    unfold turned
    rw [if_pos periodic, length, Run.bind_of_ok rfl]
    exact fails
  rw [poll_of_reached phase reached, Run.bind_of_ok rfl]
  exact congrArg Run.outcome (Run.bind_of_error turns _)

/-- A timer that is not lost begins its next period, or stops. -/
theorem turned_succeeds {start : UInt64} {expiry : Deadline} (short : timer.IsShort)
    (phase : timer.phase = .running start expiry) (reached : clock.hasReached expiry.time = true)
    (found : ¬ timer.IsLost clock) :
    (timer.turned clock start).Succeeds fun (after, later) =>
      after.IsNeverLost ∧ later.now = clock.now ∧ clock.pending ⊆ later.pending := by
  unfold turned
  split
  next periodic =>
    obtain ⟨period, length, -, -⟩ := timer.latch.period_of_short
      (short (by simp [isRunning, phase]))
    have near : ∀ next, timer.latched.period = .ok next →
        clock.distance (start + period) ≤ Clock.horizon →
        clock.distance (start + period) + next < Clock.horizon :=
      fun next nextLength early => UInt64.not_le.1 fun far => found ⟨start, expiry, period,
        next, phase, reached, periodic, length, nextLength, early, far⟩
    refine .bind (.except length rfl : Run.Succeeds _ fun value => value = period) ?_
    rintro _ rfl
    exact arm_succeeds near
  next => exact .pure ⟨isNeverLost_of_stopped rfl, rfl, List.Subset.refl _⟩

/-- A timer that is not lost can be polled. It stays as it is, or is never lost from then on; and
nothing is taken from its clock. -/
theorem poll_succeeds (short : timer.IsShort) (found : ¬ timer.IsLost clock) :
    (timer.poll clock).Succeeds fun (after, later) =>
      (after = timer ∨ after.IsNeverLost) ∧ later.now = clock.now ∧
        clock.pending ⊆ later.pending := by
  rcases timer.ahead_or_reached clock with ahead | ⟨start, expiry, phase, reached⟩
  · rw [poll_of_ahead ahead]
    exact .pure ⟨.inl rfl, rfl, List.Subset.refl _⟩
  · have told (signal : Signal) : (Run.signal signal).Succeeds fun _ => True := ⟨(), rfl, trivial⟩
    rw [poll_of_reached phase reached]
    refine .bind (told _) fun _ _ => .bind (turned_succeeds short phase reached found) ?_
    rintro ⟨after, later⟩ ⟨never, now, kept⟩
    exact .bind (told _) fun _ _ => .pure ⟨.inr never, now, kept⟩

/-- Polling a timer fails exactly when it is lost. -/
theorem poll_fails_iff (short : timer.IsShort) (clock : Clock) :
    (∃ reason, (timer.poll clock).outcome = .error reason) ↔ timer.IsLost clock := by
  refine ⟨fun failed => ?_, fun lost => ⟨_, poll_of_isLost lost⟩⟩
  obtain ⟨reason, failed⟩ := failed
  refine Classical.not_not.1 fun found => ?_
  obtain ⟨result, done, -⟩ := poll_succeeds short found
  exact absurd (done.symm.trans failed) (by simp)

/-! ## The cycles on the way -/

/-- So many cycles from now a poll can be the first to find the timer due: a deadline has come by
then, and the timer was not due at any that has come before. -/
def MeetsPoll (timer : Timer) (clock : Clock) (passed : UInt64) : Prop :=
  (∃ deadline ∈ clock.pending, clock.distance deadline.time ≤ passed) ∧
    ∀ deadline ∈ clock.pending, clock.distance deadline.time < passed →
      ∀ expiry ∈ timer.held,
        (clock.moved (clock.distance deadline.time)).hasReached expiry.time = false

/-- Over so many cycles no poll finds the timer lost. -/
def StaysFound (left : UInt64) (clock : Clock) (timer : Timer) : Prop :=
  ∀ passed ≤ left, timer.MeetsPoll clock passed → ¬ timer.IsLost (clock.moved passed)

theorem IsNeverLost.staysFound (never : timer.IsNeverLost) : timer.StaysFound left clock :=
  fun _ _ _ => never _

/-- At the first deadline the timer is not lost. -/
theorem StaysFound.first {cycles : UInt64} (found : timer.StaysFound left clock)
    (le : cycles ≤ left) (first : ∀ deadline ∈ clock.pending, cycles ≤ clock.distance deadline.time)
    (due : ∃ deadline ∈ clock.pending, clock.distance deadline.time ≤ cycles)
    (now : other.now = clock.now + cycles) : ¬ timer.IsLost other := by
  refine fun lost => found cycles le ⟨due, fun deadline placed before => ?_⟩ (lost.congr ?_)
  · exact absurd before (UInt64.not_lt.2 (first deadline placed))
  · exact now.symm

/-- Some of the cycles have gone by, up to the first deadline, at which the timer was not due. -/
theorem StaysFound.moved {cycles : UInt64} (found : timer.StaysFound left clock)
    (le : cycles ≤ left) (first : ∀ deadline ∈ clock.pending, cycles ≤ clock.distance deadline.time)
    (due : ∃ deadline ∈ clock.pending, clock.distance deadline.time ≤ cycles)
    (now : other.now = clock.now + cycles)
    (kept : ∀ deadline ∈ clock.pending, cycles < clock.distance deadline.time →
      deadline ∈ other.pending)
    (ahead : ∀ expiry ∈ timer.held, other.hasReached expiry.time = false) :
    timer.StaysFound (left - cycles) other := by
  intro passed rest meets lost
  have sum : cycles ≤ cycles + passed := by grind
  refine found (cycles + passed) (by grind) ⟨?_, fun deadline placed before => ?_⟩ (lost.congr ?_)
  · obtain ⟨deadline, placed, soon⟩ := due
    exact ⟨deadline, placed, UInt64.le_trans soon sum⟩
  · intro expiry known
    by_cases further : cycles < clock.distance deadline.time
    · have nearer : other.distance deadline.time = clock.distance deadline.time - cycles := by
        unfold Clock.distance
        rw [now]
        grind
      rw [← meets.2 deadline (kept deadline placed further) (by rw [nearer]; grind) expiry known]
      refine (Clock.hasReached_congr ?_ _).symm
      simp only [Clock.moved, nearer, now]
      grind
    · have here : clock.distance deadline.time = cycles := by
        have least := first deadline placed
        grind
      rw [← ahead expiry known, here]
      exact Clock.hasReached_congr now.symm _
  · simp [Clock.moved, now, UInt64.add_assoc]

end Timer

end SocPeripherals
