import SocPeripherals.Proofs.Late.Timer
import SocPeripherals.Proofs.Timer.Lifecycle

/-!
# The periods of a timer

A timer that was started and is polled whenever its deadline comes goes through periods of one
length, back to back. The cycles since it was started tell everything about it: whether it still
runs, when its period ends, what it has counted down to, and when it asked for its interrupt.
-/

namespace SocPeripherals

namespace Timer

/-- The stored count, from which a period counts down. -/
def reload (timer : Timer) : Nat := (timer.bank.get countIndex).toUInt16.toNat

/-- The stored prescale: a step of the count takes one cycle more. -/
def prescale (timer : Timer) : Nat := (timer.bank.get controlIndex >>> 8).toUInt8.toNat

/-- The cycles of a period. -/
def periodCycles (timer : Timer) : Nat := (timer.reload + 1) * (timer.prescale + 1)

/-- The timer begins a new period after each one. -/
def IsPeriodic (timer : Timer) : Prop := timer.bank.get controlIndex &&& periodicBit ≠ 0

instance (timer : Timer) : Decidable timer.IsPeriodic := inferInstanceAs (Decidable (_ ≠ _))

/-- The cycles after its start at which a timer has asked for its interrupt by a cycle. -/
def expiries (timer : Timer) (elapsed : Nat) : List Nat :=
  if timer.IsPeriodic then
    (List.range (elapsed / timer.periodCycles)).map fun count => (count + 1) * timer.periodCycles
  else if timer.periodCycles ≤ elapsed then [timer.periodCycles]
  else []

/-- The cycles that are left of the period after some cycles. -/
def left (timer : Timer) (elapsed : Nat) : Nat :=
  timer.periodCycles - elapsed % timer.periodCycles

/-- The timer is still running after some cycles. -/
def Goes (timer : Timer) (elapsed : Nat) : Prop :=
  timer.IsPeriodic ∨ elapsed < timer.periodCycles

instance (timer : Timer) (elapsed : Nat) : Decidable (timer.Goes elapsed) :=
  inferInstanceAs (Decidable (_ ∨ _))

/-- What the timer has counted down to after some cycles. -/
def countAt (timer : Timer) (elapsed : Nat) : Nat :=
  if timer.Goes elapsed then
    timer.reload - elapsed % timer.periodCycles / (timer.prescale + 1)
  else timer.reload

/-- A timer that was started at a cycle, so many cycles later. -/
inductive Runs (timer : Timer) (begun : UInt64) (elapsed : Nat) : Timer → Prop where
  | counting {expiry : Deadline} (goes : timer.Goes elapsed)
      (time : expiry.time
        = begun + UInt64.ofNat ((elapsed / timer.periodCycles + 1) * timer.periodCycles)) :
      Runs timer begun elapsed { timer with
        latch := timer.latched
        phase := .running
          (begun + UInt64.ofNat (elapsed / timer.periodCycles * timer.periodCycles)) expiry }
  | finished (ended : ¬timer.Goes elapsed) :
      Runs timer begun elapsed { timer with
        latch := timer.latched
        bank := timer.bank.clearBits controlIndex enableBit
        phase := .stopped }

variable {timer current after : Timer} {clock later : Clock} {begun : UInt64}
  {elapsed cycles : Nat}

/-! ## Lengths -/

theorem periodCycles_pos (timer : Timer) : 0 < timer.periodCycles :=
  Nat.mul_pos (Nat.succ_pos _) (Nat.succ_pos _)

theorem periodCycles_le (timer : Timer) : timer.periodCycles ≤ 0x1000000 :=
  Nat.mul_le_mul (Nat.succ_le_of_lt (UInt16.toNat_lt _)) (Nat.succ_le_of_lt (UInt8.toNat_lt _))

theorem toNat_stepCycles (timer : Timer) :
    timer.latched.stepCycles.toNat = timer.prescale + 1 := by
  have bound := (timer.bank.get controlIndex >>> 8).toUInt8.toNat_lt
  exact UInt64.toNat_ofNat_of_lt' (by simp only [UInt64.size]; omega)

/-- The latched period has the length that the registers describe. -/
theorem period_latched_eq (timer : Timer) :
    timer.latched.period = .ok (UInt64.ofNat timer.periodCycles) := by
  obtain ⟨period, length, -⟩ := period_latched timer
  have product : (timer.latched.reload.toNat + 1) * timer.latched.stepCycles.toNat
      = timer.periodCycles := by
    rw [toNat_stepCycles]
    rfl
  rw [length]
  unfold Latch.period at length
  split at length
  next fits =>
    cases length
    congr 1
    rw [← UInt64.toNat_inj, UInt64.toNat_mul, UInt64.toNat_add, UInt16.toNat_toUInt64,
      UInt64.toNat_one, UInt64.toNat_ofNat_of_lt' (product ▸ fits), ← product]
    have short := timer.latched.reload.toNat_lt
    have count : (timer.latched.reload.toNat + 1) % 2 ^ 64 = timer.latched.reload.toNat + 1 :=
      Nat.mod_eq_of_lt (by omega)
    rw [count]
    exact Nat.mod_eq_of_lt fits
  next => contradiction

theorem left_pos (timer : Timer) (elapsed : Nat) : 0 < timer.left elapsed :=
  Nat.sub_pos_of_lt (Nat.mod_lt elapsed timer.periodCycles_pos)

theorem left_le (timer : Timer) (elapsed : Nat) : timer.left elapsed ≤ 0x1000000 :=
  (Nat.sub_le _ _).trans timer.periodCycles_le

/-- The period ends when what is left of it has gone by. -/
theorem add_left_eq (timer : Timer) (elapsed : Nat) :
    elapsed + timer.left elapsed = (elapsed / timer.periodCycles + 1) * timer.periodCycles := by
  have whole := Nat.div_add_mod' elapsed timer.periodCycles
  have used := Nat.mod_lt elapsed timer.periodCycles_pos
  rw [left, Nat.succ_mul]
  omega

/-- Before the period ends it stays the same one. -/
theorem div_of_stays (stays : cycles < timer.left elapsed) :
    (elapsed + cycles) / timer.periodCycles = elapsed / timer.periodCycles := by
  have ends := timer.add_left_eq elapsed
  have begins := Nat.div_mul_le_self elapsed timer.periodCycles
  refine Nat.div_eq_of_lt_le ?_ ?_
  · exact begins.trans (Nat.le_add_right _ _)
  · rw [← ends]
    exact Nat.add_lt_add_left stays elapsed

theorem div_of_ends (timer : Timer) (elapsed : Nat) :
    (elapsed + timer.left elapsed) / timer.periodCycles = elapsed / timer.periodCycles + 1 := by
  rw [add_left_eq, Nat.mul_div_cancel _ timer.periodCycles_pos]

theorem Goes.div_eq_zero (goes : timer.Goes elapsed) (once : ¬timer.IsPeriodic) :
    elapsed / timer.periodCycles = 0 :=
  Nat.div_eq_of_lt (goes.resolve_left once)

theorem Goes.stays (goes : timer.Goes elapsed) (stays : cycles < timer.left elapsed) :
    timer.Goes (elapsed + cycles) := by
  refine or_iff_not_imp_left.2 fun once => ?_
  have first := (div_of_stays stays).trans (goes.div_eq_zero once)
  exact (Nat.div_eq_zero_iff.1 first).resolve_left timer.periodCycles_pos.ne'

theorem not_goes_add (ended : ¬timer.Goes elapsed) (cycles : Nat) :
    ¬timer.Goes (elapsed + cycles) := by
  obtain ⟨once, ended⟩ := not_or.1 ended
  exact not_or.2 ⟨once, fun early => ended ((Nat.le_add_right _ _).trans_lt early)⟩

theorem not_goes_of_ends (once : ¬timer.IsPeriodic) :
    ¬timer.Goes (elapsed + timer.left elapsed) := by
  refine not_or.2 ⟨once, fun early => ?_⟩
  have none := Nat.div_eq_of_lt early
  rw [div_of_ends] at none
  exact Nat.succ_ne_zero _ none

/-! ## When the interrupt is asked for -/

theorem expiries_of_div (same : (elapsed + cycles) / timer.periodCycles
    = elapsed / timer.periodCycles) (goes : timer.Goes elapsed ↔ timer.Goes (elapsed + cycles)) :
    timer.expiries (elapsed + cycles) = timer.expiries elapsed := by
  unfold expiries
  rw [same]
  split
  next => rfl
  next once =>
    have ended : timer.periodCycles ≤ elapsed + cycles ↔ timer.periodCycles ≤ elapsed := by
      unfold Goes at goes
      rw [or_iff_right once, or_iff_right once, ← not_iff_not, Nat.not_lt, Nat.not_lt] at goes
      exact goes.symm
    simp only [ended]

/-- A period that ends adds one request. -/
theorem expiries_of_ends (goes : timer.Goes elapsed) :
    timer.expiries (elapsed + timer.left elapsed)
      = timer.expiries elapsed ++ [elapsed + timer.left elapsed] := by
  have ended (once : ¬timer.IsPeriodic) : ¬timer.Goes (elapsed + timer.left elapsed) :=
    not_goes_of_ends once
  unfold expiries
  rw [div_of_ends]
  by_cases periodic : timer.IsPeriodic
  · rw [if_pos periodic, if_pos periodic, List.range_succ, List.map_append, add_left_eq]
    rfl
  · have early : ¬timer.periodCycles ≤ elapsed := Nat.not_le.2 (goes.resolve_left periodic)
    have late : timer.periodCycles ≤ elapsed + timer.left elapsed :=
      Nat.not_lt.1 (not_or.1 (ended periodic)).2
    have first := timer.add_left_eq elapsed
    rw [goes.div_eq_zero periodic, Nat.zero_add, Nat.one_mul] at first
    rw [if_neg periodic, if_neg periodic, if_neg early, if_pos late, first]
    rfl

/-- By a cycle the interrupt has been asked for at the cycles up to it that end a period, of which a
timer has only one if it is not periodic. -/
theorem mem_expiries {cycle : Nat} : cycle ∈ timer.expiries elapsed ↔
    cycle ≤ elapsed ∧ 0 < cycle ∧ timer.periodCycles ∣ cycle ∧
      (timer.IsPeriodic ∨ cycle = timer.periodCycles) := by
  have positive := timer.periodCycles_pos
  unfold expiries
  by_cases periodic : timer.IsPeriodic
  · rw [if_pos periodic]
    constructor
    · intro asked
      obtain ⟨count, before, rfl⟩ := List.mem_map.1 asked
      have whole := Nat.mul_le_mul_right timer.periodCycles
        (Nat.succ_le_of_lt (List.mem_range.1 before))
      refine ⟨whole.trans (Nat.div_mul_le_self _ _), ?_, Nat.dvd_mul_left _ _, .inl periodic⟩
      exact Nat.mul_pos (Nat.succ_pos count) positive
    · rintro ⟨past, some, ⟨count, rfl⟩, -⟩
      have first : 0 < count := Nat.pos_of_mul_pos_left some
      refine List.mem_map.2 ⟨count - 1, List.mem_range.2 ?_, ?_⟩
      · have whole : count ≤ elapsed / timer.periodCycles :=
          (Nat.le_div_iff_mul_le positive).2 (by rwa [Nat.mul_comm])
        exact (Nat.sub_lt first Nat.one_pos).trans_le whole
      · rw [Nat.sub_add_cancel first, Nat.mul_comm]
  · rw [if_neg periodic]
    split
    next ended =>
      rw [List.mem_singleton]
      constructor
      · rintro rfl
        exact ⟨ended, positive, Nat.dvd_refl _, .inr rfl⟩
      · rintro ⟨-, -, -, once⟩
        exact once.resolve_left periodic
    next early =>
      refine iff_of_false List.not_mem_nil ?_
      rintro ⟨past, -, -, once⟩
      exact early ((once.resolve_left periodic) ▸ past)

/-- Every request has come by the cycle. -/
theorem le_of_mem_expiries {cycle : Nat} (asked : cycle ∈ timer.expiries elapsed) :
    cycle ≤ elapsed :=
  (mem_expiries.1 asked).1

/-- What comes later does not take back what came before. -/
theorem mem_expiries_add {cycle : Nat} : cycle ∈ timer.expiries elapsed ↔
    cycle ∈ timer.expiries (elapsed + cycles) ∧ cycle ≤ elapsed := by
  rw [mem_expiries, mem_expiries]
  constructor
  · rintro ⟨past, known⟩
    exact ⟨⟨past.trans (Nat.le_add_right _ _), known⟩, past⟩
  · rintro ⟨⟨-, known⟩, past⟩
    exact ⟨past, known⟩

/-- Requests after a cycle come by a later one, or after that. -/
theorem exists_expiries_add {total : Nat} (le : elapsed ≤ total) :
    (∃ cycle ∈ timer.expiries total, elapsed < cycle) ∨
        (∃ cycle ∈ timer.expiries (total + cycles), total < cycle) ↔
      ∃ cycle ∈ timer.expiries (total + cycles), elapsed < cycle := by
  constructor
  · rintro (⟨cycle, asked, later⟩ | ⟨cycle, asked, later⟩)
    · exact ⟨cycle, (mem_expiries_add.1 asked).1, later⟩
    · exact ⟨cycle, asked, le.trans_lt later⟩
  · rintro ⟨cycle, asked, later⟩
    by_cases past : cycle ≤ total
    · exact .inl ⟨cycle, mem_expiries_add.2 ⟨asked, past⟩, later⟩
    · exact .inr ⟨cycle, asked, Nat.not_le.1 past⟩

theorem expiries_zero (timer : Timer) : timer.expiries 0 = [] := by
  refine List.eq_nil_iff_forall_not_mem.2 fun cycle asked => ?_
  obtain ⟨past, some, -⟩ := mem_expiries.1 asked
  exact Nat.not_lt.2 past some

/-! ## Starting a timer -/

theorem goes_zero (timer : Timer) : timer.Goes 0 := .inr timer.periodCycles_pos

/-- A timer in the first cycle of its first period. -/
theorem runs_zero {expiry : Deadline} (latched : timer.latch = timer.latched)
    (phase : timer.phase = .running begun expiry)
    (time : expiry.time = begun + UInt64.ofNat timer.periodCycles) :
    timer.Runs begun 0 timer := by
  have start : begun = begun + UInt64.ofNat (0 / timer.periodCycles * timer.periodCycles) := by
    rw [Nat.zero_div, Nat.zero_mul]
    exact (UInt64.add_zero _).symm
  have counting : timer.Runs begun 0 { timer with
      latch := timer.latched
      phase := .running
        (begun + UInt64.ofNat (0 / timer.periodCycles * timer.periodCycles)) expiry } :=
    .counting timer.goes_zero (by rw [time, Nat.zero_div, Nat.zero_add, Nat.one_mul])
  rw [← start, ← latched, ← phase] at counting
  exact counting

/-- A timer that is armed at the present cycle begins its first period there. -/
theorem arm_starts (timer : Timer) (clock : Clock) :
    (timer.arm clock clock.now).Ensures fun (after, _) =>
      after.bank = timer.bank ∧ after.Runs clock.now 0 after := by
  have reached : clock.hasReached clock.now = true := by simp [Clock.hasReached, Clock.horizon]
  refine (arm_gives reached timer).ensures.imp ?_
  rintro ⟨after, later⟩ ⟨-, -, period, next, length, time, rfl⟩
  cases (period_latched_eq timer).symm.trans length
  rw [UInt64.sub_self, UInt64.zero_div, UInt64.zero_mul, UInt64.add_zero]
  rw [UInt64.sub_self, UInt64.zero_div, UInt64.zero_add, UInt64.one_mul] at time
  exact ⟨rfl, runs_zero rfl rfl time⟩

theorem Obeys.starts_of_idle {change : Change} {later : Clock}
    (obeys : Obeys timer clock change after later)
    (stored : timer.bank.get controlIndex = change.new) (idle : timer.isRunning = false)
    (runs : after.isRunning = true) : after.isEnabled = true ∧ after.Runs clock.now 0 after := by
  cases obeys with
  | runs _ running => exact absurd (idle.symm.trans running) Bool.false_ne_true
  | starts rises _ arms =>
      obtain ⟨kept, started⟩ := arm_starts timer clock _ arms
      refine ⟨isEnabled_iff.2 ?_, started⟩
      rw [kept, stored]
      exact ((rises_iff change).1 rises).1
  | stops =>
      rw [(halt_eq timer clock).1] at runs
      exact absurd runs Bool.false_ne_true
  | kept => exact absurd (idle.symm.trans runs) Bool.false_ne_true

/-- A write that starts a timer enables it and begins its first period. -/
theorem write_starts (idle : timer.isRunning = false) (clock : Clock) (width : Width)
    (address value : UInt32) :
    (timer.write clock width address value).Ensures fun (after, _) => after.isRunning = true →
      after.isEnabled = true ∧ after.Runs clock.now 0 after := by
  refine (timer.write_writes clock width address value).imp ?_
  rintro ⟨after, later⟩ writes runs
  cases writes with
  | missed => exact absurd (idle.symm.trans runs) Bool.false_ne_true
  | control _ here obeys =>
      exact obeys.starts_of_idle (here ▸ Bank.get_put_self _ _ _) idle runs
  | store => exact absurd (idle.symm.trans runs) Bool.false_ne_true

/-! ## Polls of a started timer -/

theorem Runs.index_eq (runs : timer.Runs begun elapsed current) : current.index = timer.index := by
  cases runs <;> rfl

theorem Runs.source_eq (runs : timer.Runs begun elapsed current) :
    current.source = timer.source := by
  cases runs <;> rfl

/-- The timer has latched its registers, and its deadline is where it should be. -/
theorem Runs.regular (runs : timer.Runs begun elapsed current) :
    ∀ start expiry, current.phase = .running start expiry →
      Span.Regular ⟨current.latch, start, expiry⟩ := by
  cases runs with
  | counting goes time =>
      rintro start expiry phase
      cases phase
      refine ⟨(stepCycles_latched timer).2, ?_⟩
      dsimp only
      rw [period_latched_eq, time, Nat.succ_mul, UInt64.ofNat_add]
      congr 1
      grind
  | finished ended =>
      rintro start expiry phase
      contradiction

/-- The deadline lies as far ahead as there are cycles left of the period. -/
theorem distance_expiry {expiry : Deadline} (now : clock.now = begun + UInt64.ofNat elapsed)
    (time : expiry.time
      = begun + UInt64.ofNat ((elapsed / timer.periodCycles + 1) * timer.periodCycles)) :
    clock.distance expiry.time = UInt64.ofNat (timer.left elapsed) := by
  rw [Clock.distance, time, now, ← add_left_eq, UInt64.ofNat_add]
  grind

/-- A poll of a timer whose period is over tells of it once and asks for the interrupt. -/
theorem poll_tells {start : UInt64} {expiry : Deadline}
    (phase : timer.phase = .running start expiry) (reached : clock.hasReached expiry.time = true) :
    (timer.poll clock).Tells fun _ signals =>
      signals.count (.note (.timerExpired timer.index)) = 1 ∧
        timer.source ∈ signals.filterMap Signal.interrupt? := by
  have untold : Signal.note (.timerExpired timer.index) ∉ (timer.turned clock start).signals := by
    intro told
    obtain ⟨missed, same⟩ := turned_signalsOnly timer clock start _ told
    cases same
  have turning : (timer.turned clock start).Tells fun _ signals =>
      signals = (timer.turned clock start).signals := fun _ _ => rfl
  rw [poll_of_reached phase reached]
  refine .bind (.signal _) ?_
  rintro _ _ rfl
  refine .bind turning ?_
  rintro result _ rfl
  refine .bind (.signal _) ?_
  rintro _ _ rfl
  refine .pure ⟨?_, ?_⟩
  · simp [List.count_eq_zero.2 untold]
  · simp [Signal.interrupt?]

/-- What comes of a poll of a timer so many cycles after it was started: the cycles between, by
which the poll is no later than the deadline, and what it tells. -/
structure Polled (timer : Timer) (begun : UInt64) (elapsed cycles : Nat) (after : Timer)
    (signals : List Signal) : Prop where
  runs : timer.Runs begun (elapsed + cycles) after
  expiries : timer.expiries (elapsed + cycles) = timer.expiries elapsed
    ++ List.replicate (signals.count (.note (.timerExpired timer.index))) (elapsed + cycles)
  asks : timer.source ∈ signals.filterMap Signal.interrupt? ↔
    ∃ cycle ∈ timer.expiries (elapsed + cycles), elapsed < cycle

theorem Polled.ofSilent (runs : timer.Runs begun (elapsed + cycles) after)
    (same : timer.expiries (elapsed + cycles) = timer.expiries elapsed) :
    timer.Polled begun elapsed cycles after [] where
  runs := runs
  expiries := by
    rw [same]
    exact (List.append_nil _).symm
  asks := by
    rw [same]
    refine iff_of_false List.not_mem_nil ?_
    rintro ⟨cycle, asked, later⟩
    exact absurd (le_of_mem_expiries asked) (Nat.not_le.2 later)

/-- A poll before the deadline leaves a running timer alone. -/
theorem Runs.stays (runs : timer.Runs begun elapsed current)
    (stays : timer.Goes elapsed → cycles < timer.left elapsed) :
    timer.Runs begun (elapsed + cycles) current ∧
      timer.expiries (elapsed + cycles) = timer.expiries elapsed := by
  cases runs with
  | counting goes time =>
      have same := div_of_stays (stays goes)
      have going := goes.stays (stays goes)
      refine ⟨?_, expiries_of_div same (iff_of_true goes going)⟩
      rw [← same] at time ⊢
      exact .counting going time
  | finished ended =>
      have last := not_goes_add ended cycles
      have once := not_or.1 ended
      refine ⟨.finished last, ?_⟩
      unfold expiries
      rw [if_neg once.1, if_neg once.1, if_pos (Nat.not_lt.1 once.2),
        if_pos (Nat.not_lt.1 (not_or.1 last).2)]

/-- A poll at the deadline ends the period. -/
theorem Passes.ends {posted : UInt32} {start : UInt64} {expiry : Deadline}
    (passes : Passes clock current after posted) (reached : clock.now = expiry.time)
    (running : current = { timer with latch := timer.latched, phase := .running start expiry })
    (time : expiry.time = begun + UInt64.ofNat (elapsed + timer.left elapsed)) :
    timer.Runs begun (elapsed + timer.left elapsed) after := by
  subst running
  have here : clock.hasReached expiry.time = true := by
    simp [Clock.hasReached, reached, Clock.horizon]
  have same : clock.now - expiry.time = 0 := by rw [reached, UInt64.sub_self]
  cases passes with
  | waits ahead =>
      have early := ahead expiry (Multiset.mem_singleton_self expiry)
      exact absurd (here.symm.trans early) (by decide)
  | stops phase _ once => exact .finished (not_goes_of_ends (not_not.2 once))
  | @begins start' period expiry' next phase _ periodic length ends =>
      cases phase
      cases (period_latched_eq timer).symm.trans length
      have whole : (elapsed + timer.left elapsed) / timer.periodCycles * timer.periodCycles
          = elapsed + timer.left elapsed := by
        rw [div_of_ends, add_left_eq]
      have start : begun + UInt64.ofNat (elapsed + timer.left elapsed) = begun + UInt64.ofNat
          ((elapsed + timer.left elapsed) / timer.periodCycles * timer.periodCycles) := by
        rw [whole]
      rw [same, UInt64.zero_div, UInt64.zero_mul, UInt64.add_zero, time, start]
      rw [same, UInt64.zero_div, UInt64.zero_add, UInt64.one_mul, time, UInt64.add_assoc,
        ← UInt64.ofNat_add] at ends
      refine .counting (.inl periodic) ?_
      rw [ends, Nat.succ_mul, whole]

/-- The deadline of the period lies ahead, less than the horizon away. -/
theorem Runs.upcoming (runs : timer.Runs begun elapsed current)
    (now : clock.now = begun + UInt64.ofNat elapsed) :
    ∀ deadline ∈ current.held, clock.Near deadline := by
  intro deadline known
  cases runs with
  | counting goes time =>
      cases Multiset.mem_singleton.1 known
      have short := timer.left_le elapsed
      have size : timer.left elapsed < UInt64.size := short.trans_lt (by decide)
      unfold Clock.Near
      rw [distance_expiry now time, UInt64.lt_iff_toNat_lt, UInt64.lt_iff_toNat_lt,
        UInt64.toNat_ofNat_of_lt' size]
      exact ⟨timer.left_pos elapsed, short.trans_lt (by decide)⟩
  | finished ended => exact absurd known (Multiset.notMem_zero deadline)

theorem Runs.ahead (runs : timer.Runs begun elapsed current)
    (now : clock.now = begun + UInt64.ofNat elapsed) :
    ∀ deadline ∈ current.held, clock.hasReached deadline.time = false := by
  intro deadline known
  obtain ⟨positive, near⟩ := runs.upcoming now deadline known
  exact (Clock.hasReached_eq_false_iff near).2 positive

/-- Between its deadlines a timer is left alone by polls. -/
theorem Runs.poll_eq (runs : timer.Runs begun elapsed current)
    (now : clock.now = begun + UInt64.ofNat elapsed) :
    current.poll clock = pure (current, clock) :=
  poll_of_ahead (runs.ahead now)

/-- A poll of a started timer that is no later than its deadline. -/
theorem Runs.poll (runs : timer.Runs begun elapsed current)
    (now : clock.now = begun + UInt64.ofNat (elapsed + cycles))
    (within : timer.Goes elapsed → cycles ≤ timer.left elapsed) :
    (current.poll clock).Gives fun (after, _) signals =>
      timer.Polled begun elapsed cycles after signals := by
  by_cases early : timer.Goes elapsed → cycles < timer.left elapsed
  · obtain ⟨still, same⟩ := runs.stays early
    rw [still.poll_eq now]
    exact .pure (.ofSilent still same)
  · obtain ⟨goes, late⟩ := Classical.not_imp.1 early
    obtain rfl := (within goes).antisymm (Nat.not_lt.1 late)
    obtain ⟨⟨after, later⟩, done, passes, -, -⟩ := poll_gives current clock runs.regular
    cases runs with
    | finished ended => exact absurd goes ended
    | @counting expiry goes time =>
        rw [← add_left_eq] at time
        have here := now.trans time.symm
        have reached : clock.hasReached expiry.time = true := by
          rw [← here]
          simp [Clock.hasReached, Clock.horizon]
        obtain ⟨once, asks⟩ := poll_tells rfl reached _ done
        have last := expiries_of_ends goes
        have asked : ∃ cycle ∈ timer.expiries (elapsed + timer.left elapsed), elapsed < cycle := by
          refine ⟨elapsed + timer.left elapsed, ?_, Nat.lt_add_of_pos_right (timer.left_pos elapsed)⟩
          rw [last]
          exact List.mem_append_right _ (List.mem_singleton_self _)
        refine ⟨_, done, passes.ends here rfl time, ?_, iff_of_true asks asked⟩
        rw [last, once]
        rfl

/-! ## How a started timer stands -/

theorem Runs.of_goes (runs : timer.Runs begun elapsed current) (goes : timer.Goes elapsed) :
    current.isRunning = true ∧ current.isEnabled = timer.isEnabled ∧ ∃ expiry,
      current.held = {expiry} ∧ expiry.time
        = begun + UInt64.ofNat ((elapsed / timer.periodCycles + 1) * timer.periodCycles) := by
  cases runs with
  | counting _ time => exact ⟨rfl, rfl, _, rfl, time⟩
  | finished ended => exact absurd goes ended

theorem Runs.of_ended (runs : timer.Runs begun elapsed current) (ended : ¬timer.Goes elapsed) :
    current.isRunning = false ∧ current.isEnabled = false ∧ current.held = 0 := by
  cases runs with
  | counting goes => exact absurd goes ended
  | finished =>
      refine ⟨rfl, ?_, rfl⟩
      rw [← Bool.not_eq_true, isEnabled_iff, not_not]
      exact Bank.clearBits_clears timer.bank controlIndex enableBit

/-- The count some cycles after a period began with the stored registers. -/
theorem toNat_countAfter (timer : Timer) (gone : UInt64) :
    (timer.latched.countAfter gone).toNat
      = timer.reload - gone.toNat / (timer.prescale + 1) := by
  have bound : timer.reload < 2 ^ 16 := UInt16.toNat_lt _
  unfold Latch.countAfter
  rw [UInt64.toNat_div, toNat_stepCycles, UInt16.toNat_ofNat_of_lt']
  · rfl
  · exact (Nat.sub_le _ _).trans_lt bound

/-- A started timer shows what it has counted down to, and its stored count when it has stopped. -/
theorem Runs.count_eq (runs : timer.Runs begun elapsed current)
    (now : clock.now = begun + UInt64.ofNat elapsed) :
    (current.count clock).toNat = timer.countAt elapsed := by
  unfold countAt
  cases runs with
  | finished ended =>
      have apart : (timer.bank.clearBits controlIndex enableBit).get countIndex
          = timer.bank.get countIndex :=
        Bank.get_put_of_ne _ (by decide) _
      rw [if_neg ended]
      unfold count
      dsimp only
      rw [apart]
      rfl
  | counting goes time =>
      have used : clock.now - (begun + UInt64.ofNat
          (elapsed / timer.periodCycles * timer.periodCycles))
            = UInt64.ofNat (elapsed % timer.periodCycles) := by
        have parts := congrArg UInt64.ofNat (Nat.div_add_mod' elapsed timer.periodCycles)
        rw [UInt64.ofNat_add] at parts
        rw [now, ← parts]
        grind
      have short := (Nat.mod_lt elapsed timer.periodCycles_pos).trans_le timer.periodCycles_le
      have size : elapsed % timer.periodCycles < UInt64.size := short.trans (by decide)
      rw [if_pos goes]
      unfold Timer.count
      dsimp only
      rw [used, toNat_countAfter, UInt64.toNat_ofNat_of_lt' size]

end Timer

end SocPeripherals
