import SocPeripherals.Proofs.Timer.Rewrites
import SocPeripherals.Proofs.Timer.Lost

/-!
# A periodic timer keeps its phase

At the end of its period a periodic timer begins the next one with what its registers then say, a
whole number of the new periods after the old one ended, however late it comes to do so. The one
thing that can go wrong is the length of the old period: one that was taken over from elsewhere
may not fit a word.
-/

namespace SocPeripherals

namespace Timer

variable {timer : Timer} {clock : Clock} {start ended : UInt64} {expiry : Deadline}

/-- The length of the period, if it fits a word. -/
def Latch.length (latch : Latch) : UInt64 := (latch.reload.toUInt64 + 1) * latch.stepCycles

/-- Begins the next period where the one ends that began at a cycle. -/
def rearm (timer : Timer) (clock : Clock) (start : UInt64) : Run Signal (Timer × Clock) := do
  let period ← timer.latch.period
  timer.arm clock (start + period)

/-- The timer has begun a period in phase with the one that ended. -/
structure Rearmed (timer : Timer) (clock : Clock) (ended : UInt64) (skipped : Nat) (begun : UInt64)
    (expiry : Deadline) (after : Timer) (later : Clock) : Prop where
  timer_eq : after = { timer with latch := timer.latched, phase := .running begun expiry }
  clock_eq : later = { clock with
    pending := expiry :: clock.pending, issued := clock.issued + 1 }
  /-- The length of the new period is a number above 0 that fits its word. -/
  length : timer.latched.period = .ok (UInt64.ofNat timer.periodCycles) ∧ 0 < timer.periodCycles
  /-- The periods that are skipped have gone by, so that their cycles fit a word. -/
  passed : skipped * timer.periodCycles ≤ (clock.now - ended).toNat
  start_eq : begun = ended + UInt64.ofNat (skipped * timer.periodCycles)
  current : (clock.now - begun).toNat < timer.periodCycles
  ends : expiry.time = begun + UInt64.ofNat timer.periodCycles
  ahead : 1 ≤ (clock.distance expiry.time).toNat ∧
    (clock.distance expiry.time).toNat ≤ timer.periodCycles
  /-- The steps of the count since the period began do not take it below 0. -/
  counts : (clock.now - begun).toNat / (timer.prescale + 1) ≤ timer.reload ∧
    (after.count later).toNat = timer.reload - (clock.now - begun).toNat / (timer.prescale + 1)

/-- A poll of a periodic timer whose deadline has been reached re-arms it. -/
theorem poll_rearms (periodic : timer.IsPeriodic) (running : timer.phase = .running start expiry)
    (reached : clock.hasReached expiry.time = true) :
    timer.poll clock = do
      Run.signal (.note (.timerExpired timer.index))
      let after ← timer.rearm clock start
      Run.signal (.interrupt timer.source)
      return after := by
  have turns : timer.turned clock start = timer.rearm clock start := if_pos periodic
  rw [poll_of_reached running reached, turns]

/-! ## Cycles since the period began -/

/-- What is left of the cycles after whole periods. -/
theorem toNat_sub_skipped (length : Nat) (now ended : UInt64) :
    (now - (ended + UInt64.ofNat ((now - ended).toNat / length * length))).toNat
      = (now - ended).toNat % length := by
  have whole := Nat.div_add_mod' (now - ended).toNat length
  have bound := (now - ended).toNat_lt
  have order : now - (ended + UInt64.ofNat ((now - ended).toNat / length * length))
      = now - ended - UInt64.ofNat ((now - ended).toNat / length * length) := by grind
  rw [order, UInt64.toNat_sub_of_le]
  · rw [UInt64.toNat_ofNat_of_lt' (by simp only [UInt64.size]; omega)]
    omega
  · rw [UInt64.le_iff_toNat_le, UInt64.toNat_ofNat_of_lt' (by simp only [UInt64.size]; omega)]
    omega

/-- Within a period the count does not go below 0. -/
theorem div_le_reload (timer : Timer) {gone : Nat} (within : gone < timer.periodCycles) :
    gone / (timer.prescale + 1) ≤ timer.reload := by
  refine Nat.le_of_lt_succ ((Nat.div_lt_iff_lt_mul (Nat.succ_pos _)).2 ?_)
  exact within

/-! ## Re-arming -/

/-- A period that begins where one ended is placed with the whole periods since then skipped. -/
theorem outcome_arm_of_reached (timer : Timer) (reached : clock.hasReached ended = true) :
    ∃ expiry : Deadline,
      expiry.time = ended + UInt64.ofNat ((clock.now - ended).toNat / timer.periodCycles
          * timer.periodCycles) + UInt64.ofNat timer.periodCycles ∧
      (timer.arm clock ended).outcome = .ok ({ timer with
          latch := timer.latched
          phase := .running (ended + UInt64.ofNat ((clock.now - ended).toNat / timer.periodCycles
            * timer.periodCycles)) expiry },
        { clock with pending := expiry :: clock.pending, issued := clock.issued + 1 }) := by
  have lasts := period_latched_eq timer
  obtain ⟨_, found, positive, short⟩ := period_latched timer
  cases lasts.symm.trans found
  have soon := distance_ends reached positive short
  rw [skipped_eq] at soon
  refine ⟨⟨clock.identity, _, clock.issued⟩, rfl, ?_⟩
  rw [outcome_arm lasts, skipMissed_of_reached reached, skipped_eq]
  unfold place Clock.scheduleAt
  rw [if_pos soon]
  rfl

theorem rearmed_of_reached (timer : Timer) (reached : clock.hasReached ended = true) :
    ∃ begun expiry after later, (timer.arm clock ended).outcome = .ok (after, later) ∧
      timer.Rearmed clock ended ((clock.now - ended).toNat / timer.periodCycles) begun expiry
        after later := by
  obtain ⟨expiry, time, done⟩ := timer.outcome_arm_of_reached reached
  have left := toNat_sub_skipped timer.periodCycles clock.now ended
  have within := Nat.mod_lt (clock.now - ended).toNat timer.periodCycles_pos
  rw [← left] at within
  generalize begins : ended + UInt64.ofNat ((clock.now - ended).toNat / timer.periodCycles
    * timer.periodCycles) = begun at *
  have ahead : (clock.distance expiry.time).toNat
      = timer.periodCycles - (clock.now - begun).toNat := by
    have order : clock.distance expiry.time
        = UInt64.ofNat timer.periodCycles - (clock.now - begun) := by
      rw [time, Clock.distance]
      grind
    have le : clock.now - begun ≤ UInt64.ofNat timer.periodCycles := by
      rw [UInt64.le_iff_toNat_le, toNat_ofNat_periodCycles]
      exact within.le
    rw [order, UInt64.toNat_sub_of_le _ _ le, toNat_ofNat_periodCycles]
  refine ⟨begun, expiry, _, _, done, ?_⟩
  exact
    { timer_eq := rfl
      clock_eq := rfl
      length := ⟨timer.period_latched_eq, timer.periodCycles_pos⟩
      passed := Nat.div_mul_le_self _ _
      start_eq := begins.symm
      current := within
      ends := time
      ahead := by omega
      counts := ⟨timer.div_le_reload within, timer.toNat_countAfter _⟩ }

/-- A timer that is re-armed up to the horizon after its period ended, whatever was latched for that
period and whatever its registers say then, keeps its phase. It fails only if the length of the
period that ended does not fit a word. -/
theorem rearm_keeps_phase (running : timer.phase = .running start expiry)
    (late : clock.now - (start + timer.latch.length) < Clock.horizon) :
    ((timer.latch.reload.toNat + 1) * timer.latch.stepCycles.toNat < 2 ^ 64 →
      ∃ begun next after later, (timer.rearm clock start).outcome = .ok (after, later) ∧
        timer.Rearmed clock (start + timer.latch.length)
          ((clock.now - (start + timer.latch.length)).toNat / timer.periodCycles) begun next
          after later) ∧
    (¬(timer.latch.reload.toNat + 1) * timer.latch.stepCycles.toNat < 2 ^ 64 →
      timer.rearm clock start = ⟨.error .productOverflow, []⟩) ∧
    (timer.IsPeriodic → clock.hasReached expiry.time = true →
      timer.poll clock = do
        Run.signal (.note (.timerExpired timer.index))
        let after ← timer.rearm clock start
        Run.signal (.interrupt timer.source)
        return after) := by
  refine ⟨fun fits => ?_, fun overflows => ?_, fun periodic reached =>
    poll_rearms periodic running reached⟩
  · have lasts : timer.latch.period = .ok timer.latch.length := if_pos fits
    have reached : clock.hasReached (start + timer.latch.length) = true := decide_eq_true late
    obtain ⟨begun, next, after, later, done, rearmed⟩ := timer.rearmed_of_reached reached
    refine ⟨begun, next, after, later, ?_, rearmed⟩
    unfold rearm
    rw [lasts]
    exact (congrArg Run.outcome (Run.bind_of_ok rfl _)).trans done
  · have lasts : timer.latch.period = .error .productOverflow := if_neg overflows
    unfold rearm
    rw [lasts]
    rfl

/-- A period of 15 cycles that ended 15 cycles before the wrap of the counter is handled 30 cycles
after it, when the registers ask for 20 cycles: two periods are skipped, and the third has begun 5
cycles ago. With a restored latch of which the product does not fit, the timer fails. -/
theorem rearm_keeps_phase_wrapping :
    let timer (latch : Latch) : Timer :=
      { index := 0, source := 4, latch
        bank := ((Bank.initial registers).put controlIndex 0x103).put countIndex 9
        phase := .running 0xffffffffffffffe2 ⟨0, 0xfffffffffffffff1, 0⟩ }
    let clock : Clock := { now := 30, issued := 1 }
    (∃ next after later,
      ((timer ⟨4, 3, by decide⟩).rearm clock 0xffffffffffffffe2).outcome = .ok (after, later) ∧
        after.phase = .running 25 next ∧ next.time = 45 ∧ after.count later = 7) ∧
    (timer ⟨1, 0x8000000000000007, by decide⟩).rearm clock 0xffffffffffffffe2
      = ⟨.error .productOverflow, []⟩ := by
  intro timer clock
  have running (latch : Latch) : (timer latch).phase = _ := rfl
  have late (latch : Latch) (ends : latch.length = 15 ∨ latch.length = 14) :
      clock.now - (0xffffffffffffffe2 + (timer latch).latch.length) < Clock.horizon := by
    rcases ends with ends | ends <;> rw [ends] <;> decide
  refine ⟨?_, ?_⟩
  · obtain ⟨begun, next, after, later, done, rearmed⟩ :=
      (rearm_keeps_phase (running ⟨4, 3, by decide⟩) (late _ (.inl rfl))).1 (by decide)
    obtain rfl : begun = 25 := rearmed.start_eq.trans (by decide)
    have phase := congrArg Timer.phase rearmed.timer_eq
    have counts : (after.count later).toNat = 7 := rearmed.counts.2.trans (by decide)
    exact ⟨next, _, _, done, phase, rearmed.ends.trans (by decide), UInt16.toNat_inj.1 counts⟩
  · exact (rearm_keeps_phase (running _) (late _ (.inr rfl))).2.1 (by decide)

end Timer

end SocPeripherals
