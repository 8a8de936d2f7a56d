import SocPeripherals.Proofs.Late.Passed
import SocPeripherals.Proofs.Timer

/-!
# Timers polled late

A timer that is polled late begins the period it would be in had it been polled at the end of each
one. So it makes no difference to it whether it is polled on the way.
-/

namespace SocPeripherals

namespace Timer

variable {timer between after coarse : Timer} {clock first second other : Clock}
  {before rest late later period : UInt64} {posted more whole : UInt32}

/-! ## Periods that were missed -/

theorem toNat_mul_div (period late : UInt64) :
    (late / period * period).toNat = late.toNat / period.toNat * period.toNat := by
  rw [UInt64.toNat_mul, UInt64.toNat_div, Nat.mod_eq_of_lt]
  exact (Nat.div_mul_le_self _ _).trans_lt late.toNat_lt

/-- The last of the missed periods ended no more than a period ago. -/
theorem toNat_ends (recent : late < Clock.horizon) (short : period ≤ 0x1000000) :
    ((late / period + 1) * period).toNat
        = late.toNat / period.toNat * period.toNat + period.toNat ∧
      late.toNat / period.toNat * period.toNat ≤ late.toNat := by
  have bound := Nat.div_mul_le_self late.toNat period.toNat
  have limit : Clock.horizon.toNat = 0x7fffffffffffffff := rfl
  rw [UInt64.lt_iff_toNat_lt, limit] at recent
  have small : period.toNat ≤ 0x1000000 := UInt64.le_iff_toNat_le.1 short
  have ends : (late / period + 1) * period = late / period * period + period := by grind
  rw [ends, UInt64.toNat_add, toNat_mul_div, Nat.mod_eq_of_lt (by omega)]
  exact ⟨rfl, bound⟩

/-- While the period begun last is not over, no more of them were missed. -/
theorem div_of_ahead (positive : 0 < period) (short : period ≤ 0x1000000) (le : late ≤ later)
    (recent : later < Clock.horizon)
    (ahead : ¬later - (late / period + 1) * period < Clock.horizon) :
    later / period = late / period := by
  obtain ⟨ends, bound⟩ := toNat_ends (UInt64.lt_of_le_of_lt le recent) short
  have further : later < (late / period + 1) * period := by
    refine UInt64.not_le.1 fun past => ahead (UInt64.lt_of_le_of_lt ?_ recent)
    rw [UInt64.le_iff_toNat_le, UInt64.toNat_sub_of_le _ _ past]
    exact Nat.sub_le _ _
  rw [UInt64.lt_iff_toNat_lt, ends, ← Nat.succ_mul] at further
  rw [← UInt64.toNat_inj, UInt64.toNat_div, UInt64.toNat_div]
  refine Nat.le_antisymm ?_ (Nat.div_le_div_right (UInt64.le_iff_toNat_le.1 le))
  exact Nat.le_of_lt_succ ((Nat.div_lt_iff_lt_mul (UInt64.lt_iff_toNat_lt.1 positive)).2 further)

/-- The periods missed since the last one make up for those missed in all. -/
theorem div_of_reached (positive : 0 < period) (short : period ≤ 0x1000000) (le : late ≤ later)
    (recent : later < Clock.horizon)
    (reached : later - (late / period + 1) * period < Clock.horizon) :
    late / period + 1 + (later - (late / period + 1) * period) / period = later / period := by
  obtain ⟨ends, bound⟩ := toNat_ends (UInt64.lt_of_le_of_lt le recent) short
  have limit : Clock.horizon.toNat = 0x7fffffffffffffff := rfl
  have finished : (late / period + 1) * period ≤ later := by
    refine UInt64.not_lt.1 fun early => ?_
    have small : period.toNat ≤ 0x1000000 := UInt64.le_iff_toNat_le.1 short
    simp only [UInt64.lt_iff_toNat_lt, UInt64.le_iff_toNat_le, UInt64.toNat_sub, limit, ends] at *
    omega
  have rest : (later - (late / period + 1) * period).toNat
      = later.toNat - (late.toNat / period.toNat + 1) * period.toNat := by
    rw [UInt64.toNat_sub_of_le _ _ finished, ends, Nat.succ_mul]
  rw [UInt64.le_iff_toNat_le, ends, ← Nat.succ_mul] at finished
  have counts : later.toNat / period.toNat = (later.toNat
      - (late.toNat / period.toNat + 1) * period.toNat) / period.toNat
        + (late.toNat / period.toNat + 1) := by
    rw [← Nat.add_mul_div_right _ _ (UInt64.lt_iff_toNat_lt.1 positive), Nat.sub_add_cancel finished]
  have most := (Nat.div_le_self later.toNat period.toNat).trans_lt later.toNat_lt
  rw [← UInt64.toNat_inj, UInt64.toNat_add, UInt64.toNat_add, UInt64.toNat_div, UInt64.toNat_div,
    UInt64.toNat_div, rest, UInt64.toNat_one, counts]
  rw [counts] at most
  generalize late.toNat / period.toNat = skipped at *
  generalize (later.toNat - (skipped + 1) * period.toNat) / period.toNat = more at *
  omega

/-! ## One poll -/

/-- The periods since a start that is not ahead are skipped. -/
theorem skipMissed_of_reached {start : UInt64} (reached : clock.hasReached start = true)
    (period : UInt64) : skipMissed clock.now start period
      = (start + (clock.now - start) / period * period, (clock.now - start) / period) := by
  have missed : (if start - clock.now ≤ Clock.horizon then 0 else (clock.now - start) / period)
      = (clock.now - start) / period := by
    split
    next early =>
      have same : clock.now - start = 0 := by
        simp only [Clock.hasReached, Clock.horizon] at *
        grind
      rw [same, UInt64.zero_div]
    next => rfl
  unfold skipMissed
  rw [missed]

/-- The period that begins after those that were missed ends soon. -/
theorem distance_ends {start : UInt64} (reached : clock.hasReached start = true)
    (positive : 0 < period) (short : period ≤ 0x1000000) :
    clock.distance (start + (clock.now - start) / period * period + period) < Clock.horizon := by
  have recent : clock.now - start < Clock.horizon := decide_eq_true_iff.1 reached
  obtain ⟨ends, bound⟩ := toNat_ends recent short
  have small : period.toNat ≤ 0x1000000 := UInt64.le_iff_toNat_le.1 short
  have further :=
    Nat.lt_div_mul_add (UInt64.lt_iff_toNat_lt.1 positive) (a := (clock.now - start).toNat)
  have left : clock.distance (start + (clock.now - start) / period * period + period)
      = ((clock.now - start) / period + 1) * period - (clock.now - start) := by
    unfold Clock.distance
    grind
  rw [left, UInt64.lt_iff_toNat_lt, UInt64.toNat_sub_of_le _ _ (by
    rw [UInt64.le_iff_toNat_le, ends]; omega), ends]
  have limit : Clock.horizon.toNat = 0x7fffffffffffffff := rfl
  omega

/-- What a poll makes of a timer, and the source that it makes pending. -/
inductive Passes (clock : Clock) (timer : Timer) : Timer → UInt32 → Prop where
  | waits (ahead : ∀ deadline ∈ timer.held, clock.hasReached deadline.time = false) :
      Passes clock timer timer 0
  | stops {start : UInt64} {expiry : Deadline} (phase : timer.phase = .running start expiry)
      (reached : clock.hasReached expiry.time = true)
      (once : timer.bank.get controlIndex &&& periodicBit = 0) :
      Passes clock timer { timer with
        bank := timer.bank.clearBits controlIndex enableBit, phase := .stopped }
        (Interrupt.sourceBit timer.source)
  | begins {start period : UInt64} {expiry next : Deadline}
      (phase : timer.phase = .running start expiry)
      (reached : clock.hasReached expiry.time = true)
      (periodic : timer.bank.get controlIndex &&& periodicBit ≠ 0)
      (length : timer.latched.period = .ok period)
      (time : next.time = expiry.time + ((clock.now - expiry.time) / period + 1) * period) :
      Passes clock timer { timer with
        latch := timer.latched
        phase := .running (expiry.time + (clock.now - expiry.time) / period * period) next }
        (Interrupt.sourceBit timer.source)

theorem Passes.congr (now : other.now = clock.now) (passes : Passes clock timer after posted) :
    Passes other timer after posted := by
  have same := Clock.hasReached_congr now
  cases passes with
  | waits ahead => exact .waits fun deadline known => (same _).trans (ahead deadline known)
  | stops phase reached once => exact .stops phase ((same _).trans reached) once
  | begins phase reached periodic length time =>
      rw [← now] at time ⊢
      exact .begins phase ((same _).trans reached) periodic length time

/-- Only notes are signalled. -/
def AllNotes (signals : List Signal) : Prop :=
  Signal.posted signals = 0 ∧ ∀ port, signals.filterMap (Signal.sent? port) = []

theorem place_gives {start period : UInt64} (positive : 0 < period) (short : period ≤ 0x1000000)
    (reached : clock.hasReached start = true) (timer : Timer) :
    (timer.place clock (start + (clock.now - start) / period * period) period).Gives
      fun (after, later) signals => signals = [] ∧ later.now = clock.now ∧ ∃ next : Deadline,
        next.time = start + ((clock.now - start) / period + 1) * period ∧
        after = { timer with
          latch := timer.latched
          phase := .running (start + (clock.now - start) / period * period) next } := by
  have soon := distance_ends reached positive short
  unfold place
  rw [Clock.scheduleAt, if_pos soon]
  refine ⟨_, rfl, rfl, rfl, _, ?_, rfl⟩
  dsimp only
  grind

theorem arm_gives {start : UInt64} (reached : clock.hasReached start = true) (timer : Timer) :
    (timer.arm clock start).Gives fun (after, later) signals => AllNotes signals ∧
      later.now = clock.now ∧ ∃ period next, timer.latched.period = .ok period ∧
        next.time = start + ((clock.now - start) / period + 1) * period ∧
        after = { timer with
          latch := timer.latched
          phase := .running (start + (clock.now - start) / period * period) next } := by
  obtain ⟨period, length, positive, short⟩ := period_latched timer
  have placing := place_gives positive short reached timer
  have timed : (liftM timer.latched.period : Run Signal UInt64).Gives fun value signals =>
      value = period ∧ signals = [] := ⟨period, length, rfl, rfl⟩
  unfold arm
  refine .bind timed ?_
  rintro _ _ ⟨rfl, rfl⟩
  rw [skipMissed_of_reached reached]
  dsimp only
  split
  next =>
    refine .bind (.signal _) ?_
    rintro _ _ rfl
    refine placing.imp ?_
    rintro ⟨after, later⟩ _ ⟨rfl, now, next, time, rfl⟩
    exact ⟨⟨rfl, fun _ => rfl⟩, now, _, next, length, time, rfl⟩
  next =>
    refine placing.imp ?_
    rintro ⟨after, later⟩ _ ⟨rfl, now, next, time, rfl⟩
    exact ⟨⟨rfl, fun _ => rfl⟩, now, _, next, length, time, rfl⟩

/-- What is over is followed by what the registers then say. -/
theorem turned_gives {start : UInt64} {expiry : Deadline}
    (phase : timer.phase = .running start expiry) (reached : clock.hasReached expiry.time = true)
    (regular : Span.Regular ⟨timer.latch, start, expiry⟩) :
    (timer.turned clock start).Gives fun (after, later) signals => AllNotes signals ∧
      later.now = clock.now ∧
        Passes clock timer after (Interrupt.sourceBit timer.source) := by
  unfold turned
  split
  next periodic =>
    have timed : (liftM timer.latch.period : Run Signal UInt64).Gives fun value signals =>
        start + value = expiry.time ∧ signals = [] := by
      refine ⟨_, regular.length, ?_, rfl⟩
      dsimp only
      grind
    refine .bind timed ?_
    rintro period _ ⟨ends, rfl⟩
    rw [ends]
    refine (arm_gives reached timer).imp ?_
    rintro ⟨after, later⟩ signals ⟨notes, now, period, next, length, time, rfl⟩
    exact ⟨notes, now, .begins phase reached periodic length time⟩
  next once =>
    exact .pure ⟨⟨rfl, fun _ => rfl⟩, rfl, .stops phase reached (not_not.1 once)⟩

theorem poll_gives (timer : Timer) (clock : Clock)
    (regular : ∀ start expiry, timer.phase = .running start expiry →
      Span.Regular ⟨timer.latch, start, expiry⟩) :
    (timer.poll clock).Gives fun (after, later) signals =>
      Passes clock timer after (Signal.posted signals) ∧ later.now = clock.now ∧
        ∀ port, signals.filterMap (Signal.sent? port) = [] := by
  rcases timer.ahead_or_reached clock with ahead | ⟨start, expiry, phase, reached⟩
  · rw [poll_of_ahead ahead]
    exact .pure ⟨.waits ahead, rfl, fun _ => rfl⟩
  · rw [poll_of_reached phase reached]
    refine .bind (.signal _) ?_
    rintro _ _ rfl
    refine .bind (turned_gives phase reached (regular start expiry phase)) ?_
    rintro ⟨after, later⟩ signals ⟨notes, now, passes⟩
    refine .bind (.signal _) ?_
    rintro _ _ rfl
    refine .pure ⟨?_, now, fun port => ?_⟩
    · simpa [Signal.posted, Signal.posted_append, notes.1] using passes
    · simp only [List.filterMap_append, notes.2]
      rfl

/-! ## Two polls -/

/-- What is saved of a timer in a period. -/
theorem snapshot_congr {start : UInt64} {next paired : Deadline} (now : second.now = first.now)
    (time : paired.time = next.time) (timer : Timer) (bank : Bank registers) (latch : Latch) :
    ({ timer with bank, latch, phase := .running start paired } : Timer).snapshot second
      = ({ timer with bank, latch, phase := .running start next } : Timer).snapshot first := by
  unfold snapshot
  dsimp only
  rw [Clock.remaining_congr now time, now]
  rfl

theorem snapshot_now (now : second.now = first.now) (timer : Timer) :
    timer.snapshot second = timer.snapshot first := by
  obtain ⟨index, source, bank, latch, phase⟩ := timer
  cases phase with
  | stopped => rfl
  | running start expiry =>
      exact snapshot_congr now rfl ⟨index, source, bank, latch, .stopped⟩ bank latch

/-- The deadline of the period is held. -/
theorem ahead_of_running {start : UInt64} {expiry : Deadline}
    (ahead : ∀ deadline ∈ timer.held, clock.hasReached deadline.time = false)
    (phase : timer.phase = .running start expiry) : clock.hasReached expiry.time = false :=
  ahead expiry (held_of_running phase ▸ Multiset.mem_singleton_self expiry)

theorem not_reached_of_ahead {start : UInt64} {expiry : Deadline}
    (ahead : ∀ deadline ∈ timer.held, clock.hasReached deadline.time = false)
    (phase : timer.phase = .running start expiry) (now : other.now = clock.now) :
    ¬other.hasReached expiry.time = true := by
  rw [Clock.hasReached_congr now, ahead_of_running ahead phase]
  exact Bool.false_ne_true

/-- A poll does the same on any clock that shows the cycle. -/
theorem Passes.unique (now : other.now = first.now) (passes : Passes first timer after posted)
    (passesOther : Passes other timer coarse whole) :
    coarse.snapshot other = after.snapshot first ∧ whole = posted := by
  cases passes with
  | waits ahead =>
      cases passesOther with
      | waits => exact ⟨snapshot_now now timer, rfl⟩
      | stops phase reached => exact absurd reached (not_reached_of_ahead ahead phase now)
      | begins phase reached => exact absurd reached (not_reached_of_ahead ahead phase now)
  | stops phase reached once =>
      cases passesOther with
      | waits ahead => exact absurd reached (not_reached_of_ahead ahead phase now.symm)
      | stops => exact ⟨rfl, rfl⟩
      | begins _ _ periodic => exact absurd once periodic
  | begins phase reached periodic length time =>
      cases passesOther with
      | waits ahead => exact absurd reached (not_reached_of_ahead ahead phase now.symm)
      | stops _ _ once => exact absurd once periodic
      | begins phaseOther _ _ lengthOther timeOther =>
          cases phase.symm.trans phaseOther
          cases length.symm.trans lengthOther
          rw [now] at timeOther ⊢
          exact ⟨snapshot_congr now (timeOther.trans time.symm) timer timer.bank timer.latched, rfl⟩

/-- If the period that was begun on the way is not over, a late poll skips as many as one on the way
has skipped. -/
theorem skips_of_ahead {expiry next : Deadline} (reached : second.hasReached expiry.time = true)
    (le : first.now - expiry.time ≤ second.now - expiry.time)
    (length : timer.latched.period = .ok period)
    (time : next.time = expiry.time + ((first.now - expiry.time) / period + 1) * period)
    (ahead : second.hasReached next.time = false) :
    (second.now - expiry.time) / period = (first.now - expiry.time) / period := by
  obtain ⟨_, found, positive, short⟩ := period_latched timer
  cases length.symm.trans found
  have since : second.now - next.time
      = second.now - expiry.time - ((first.now - expiry.time) / period + 1) * period := by
    rw [time]
    grind
  refine div_of_ahead positive short le (decide_eq_true_iff.1 reached) ?_
  rw [← since]
  exact of_decide_eq_false ahead

/-- If it is over, a late poll skips it as well, and those that came after it. -/
theorem skips_of_reached {expiry next : Deadline} (reached : second.hasReached expiry.time = true)
    (le : first.now - expiry.time ≤ second.now - expiry.time)
    (length : timer.latched.period = .ok period)
    (time : next.time = expiry.time + ((first.now - expiry.time) / period + 1) * period)
    (ended : second.hasReached next.time = true) :
    (second.now - expiry.time) / period
      = (first.now - expiry.time) / period + 1 + (second.now - next.time) / period := by
  obtain ⟨_, found, positive, short⟩ := period_latched timer
  cases length.symm.trans found
  have since : second.now - next.time
      = second.now - expiry.time - ((first.now - expiry.time) / period + 1) * period := by
    rw [time]
    grind
  have recent : second.now - next.time < Clock.horizon := decide_eq_true_iff.1 ended
  rw [since] at recent ⊢
  exact (div_of_reached positive short le (decide_eq_true_iff.1 reached) recent).symm

/-- A poll on the way makes no difference to a timer, if its deadline lay ahead. -/
theorem Passes.twice (passed : Clock.Passed clock first second before rest)
    (near : ∀ deadline ∈ timer.held, clock.distance deadline.time < Clock.horizon)
    (passes : Passes first timer between posted) (further : Passes second between after more)
    (now : other.now = second.now) (late : Passes other timer coarse whole) :
    coarse.snapshot other = after.snapshot second ∧ whole = posted ||| more := by
  have stays {start : UInt64} {expiry : Deadline} (phase : timer.phase = .running start expiry)
      (reached : first.hasReached expiry.time = true) :=
    passed.reached (near expiry (held_of_running phase ▸ Multiset.mem_singleton_self expiry)) reached
  cases passes with
  | waits =>
      rw [UInt32.zero_or]
      exact further.unique now late
  | stops phase reached once =>
      cases late with
      | waits ahead =>
          exact absurd (stays phase reached).1 (not_reached_of_ahead ahead phase now.symm)
      | begins _ _ periodic => exact absurd once periodic
      | stops =>
          cases further with
          | waits => exact ⟨rfl, UInt32.or_zero.symm⟩
          | stops phase => cases phase
          | begins phase => cases phase
  | @begins start period expiry next phase reached periodic length time =>
      cases late with
      | waits ahead =>
          exact absurd (stays phase reached).1 (not_reached_of_ahead ahead phase now.symm)
      | stops _ _ once => exact absurd once periodic
      | @begins _ _ _ nextLate phaseLate _ _ lengthLate timeLate =>
          cases phase.symm.trans phaseLate
          cases length.symm.trans lengthLate
          rw [now] at timeLate ⊢
          obtain ⟨reachedLater, lateness⟩ := stays phase reached
          have le : first.now - expiry.time ≤ second.now - expiry.time := by
            rw [UInt64.le_iff_toNat_le, lateness]
            exact Nat.le_add_right _ _
          cases further with
          | waits ahead =>
              -- The period begun on the way is the one that a late poll begins.
              have skips := skips_of_ahead reachedLater le length time (ahead_of_running ahead rfl)
              rw [skips] at timeLate ⊢
              refine ⟨?_, UInt32.or_zero.symm⟩
              exact snapshot_congr now (timeLate.trans time.symm) timer timer.bank timer.latched
          | stops _ _ once => exact absurd once periodic
          | @begins _ _ _ nextAfter phaseAfter reachedAfter _ lengthAfter timeAfter =>
              cases phaseAfter
              cases length.symm.trans lengthAfter
              have skips := skips_of_reached reachedLater le length time reachedAfter
              have begun : expiry.time + (second.now - expiry.time) / period * period
                  = next.time + (second.now - next.time) / period * period := by
                rw [skips, time]
                grind
              have ends : nextLate.time = nextAfter.time := by
                rw [timeLate, timeAfter, skips, time]
                grind
              rw [begun]
              refine ⟨?_, UInt32.or_self.symm⟩
              exact snapshot_congr now ends timer timer.bank timer.latched

end Timer

end SocPeripherals
