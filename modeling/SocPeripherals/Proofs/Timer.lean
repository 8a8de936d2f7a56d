import SocPeripherals.Timer
import SocPeripherals.Proofs.Clock.Service
import SocPeripherals.Proofs.Register
import SocPeripherals.Proofs.Run

/-!
# What a timer does

A running timer holds one deadline, the end of its period. `Step` says once what any operation
of a timer may do to the timer and to its clock; every invariant of timers comes from it.
-/

namespace SocPeripherals

namespace Timer

variable {timer between after : Timer} {clock middle later : Clock} {least : UInt64}

/-! ## Lengths of periods -/

theorem div_mul_add_mod (value divisor : UInt64) :
    value / divisor * divisor + value % divisor = value := by
  have whole := Nat.div_add_mod' value.toNat divisor.toNat
  rw [← UInt64.toNat_inj, UInt64.toNat_add, UInt64.toNat_mul, UInt64.toNat_div,
    UInt64.toNat_mod, Nat.mod_add_mod, whole, Nat.mod_eq_of_lt value.toNat_lt]

theorem stepCycles_latched (timer : Timer) :
    1 ≤ timer.latched.stepCycles.toNat ∧ timer.latched.stepCycles.toNat ≤ 256 := by
  have bound := (timer.bank.get controlIndex >>> 8).toUInt8.toNat_lt
  rw [latched]
  dsimp only
  rw [UInt64.toNat_ofNat_of_lt' (by simp only [UInt64.size]; omega)]
  omega

/-- A latch whose steps are as short as the control register can ask for has a period. -/
theorem Latch.period_of_short (latch : Latch) (short : latch.stepCycles.toNat ≤ 256) :
    ∃ period, latch.period = .ok period ∧ 0 < period ∧ period ≤ 0x1000000 := by
  have low : 1 ≤ latch.stepCycles.toNat := by
    have different := latch.stepCycles_ne_zero
    rw [ne_eq, ← UInt64.toNat_inj] at different
    simp only [UInt64.toNat_zero] at different
    omega
  have reload := latch.reload.toNat_lt
  have bound : (latch.reload.toNat + 1) * latch.stepCycles.toNat ≤ 65536 * 256 :=
    Nat.mul_le_mul (by omega) short
  have positive : 0 < (latch.reload.toNat + 1) * latch.stepCycles.toNat :=
    Nat.mul_pos (Nat.succ_pos _) low
  refine ⟨(latch.reload.toUInt64 + 1) * latch.stepCycles, ?_, ?_, ?_⟩
  · rw [Latch.period, if_pos (by simp only [UInt64.size]; omega)]
  · rw [UInt64.lt_iff_toNat_lt, UInt64.toNat_mul, UInt64.toNat_add]
    simp
    omega
  · rw [UInt64.le_iff_toNat_le, UInt64.toNat_mul, UInt64.toNat_add]
    simp
    omega

theorem period_latched (timer : Timer) :
    ∃ period, timer.latched.period = .ok period ∧ 0 < period ∧ period ≤ 0x1000000 :=
  timer.latched.period_of_short (stepCycles_latched timer).2

/-- The period that begins after those that were missed ends after the present. -/
theorem one_le_distance_skipMissed (clock : Clock) (start : UInt64) {period : UInt64}
    (positive : 0 < period) (short : period ≤ 0x1000000) :
    1 ≤ clock.distance ((skipMissed clock.now start period).1 + period) := by
  unfold skipMissed Clock.distance
  dsimp only
  split
  next early =>
    unfold Clock.horizon at early
    grind
  next late =>
    have whole := div_mul_add_mod (clock.now - start) period
    have rest := UInt64.mod_lt (clock.now - start) positive
    generalize (clock.now - start) / period * period = skipped at *
    generalize (clock.now - start) % period = used at *
    grind

/-! ## Steps -/

/-- The deadline that the timer holds. -/
def held (timer : Timer) : Multiset Deadline :=
  match timer.phase with
  | .stopped => 0
  | .running _ expiry => {expiry}

theorem held_of_stopped (stopped : timer.phase = .stopped) : timer.held = 0 := by
  rw [held, stopped]

theorem held_of_running {start : UInt64} {expiry : Deadline}
    (running : timer.phase = .running start expiry) : timer.held = {expiry} := by
  rw [held, running]

theorem held_eq_zero_iff : timer.held = 0 ↔ timer.isRunning = false := by
  unfold held isRunning
  cases timer.phase <;> simp

/-- A period from its start to its deadline. -/
structure Span where
  latch : Latch
  start : UInt64
  expiry : Deadline

/-- The timer stays in its period, leaves it, or begins one of which something is known. -/
inductive Course (begins : Span → Prop) (timer after : Timer) : Prop where
  | kept (phase : after.phase = timer.phase) (latch : after.latch = timer.latch)
  | stopped (phase : after.phase = .stopped)
  | begun (start : UInt64) (expiry : Deadline) (phase : after.phase = .running start expiry)
      (known : begins ⟨after.latch, start, expiry⟩)

/-- The deadline of the period is where it should be, by a latch of the stored registers. -/
structure Span.Regular (span : Span) : Prop where
  short : span.latch.stepCycles.toNat ≤ 256
  length : span.latch.period = .ok (span.expiry.time - span.start)

/-- What becomes of a timer. -/
structure Evolves (begins : Span → Prop) (timer after : Timer) : Prop where
  course : Course begins timer after
  index : after.index = timer.index
  source : after.source = timer.source
  resets : after.bank.resets = timer.bank.resets
  fits : timer.bank.Fits → after.bank.Fits

/-- What an operation does to a timer and its clock. -/
structure Step (least : UInt64) (begins : Span → Prop) (timer : Timer) (clock : Clock)
    (after : Timer) (later : Clock) : Prop extends Evolves begins timer after where
  serves : Clock.Serves least timer.held after.held clock later

variable {begins : Span → Prop}

theorem Course.trans (first : Course begins timer between) (second : Course begins between after) :
    Course begins timer after := by
  cases second with
  | stopped phase => exact .stopped phase
  | begun start expiry phase known => exact .begun start expiry phase known
  | kept phase latch =>
      cases first with
      | kept phaseBefore latchBefore =>
          exact .kept (phase.trans phaseBefore) (latch.trans latchBefore)
      | stopped phaseBefore => exact .stopped (phase.trans phaseBefore)
      | begun start expiry phaseBefore known =>
          exact .begun start expiry (phase.trans phaseBefore) (latch ▸ known)

theorem Course.imp {known : Span → Prop} (course : Course begins timer after)
    (implies : ∀ span, begins span → known span) : Course known timer after := by
  cases course with
  | kept phase latch => exact .kept phase latch
  | stopped phase => exact .stopped phase
  | begun start expiry phase holds => exact .begun start expiry phase (implies _ holds)

theorem Evolves.refl (begins : Span → Prop) (timer : Timer) : Evolves begins timer timer :=
  ⟨.kept rfl rfl, rfl, rfl, rfl, id⟩

theorem Evolves.trans (first : Evolves begins timer between)
    (second : Evolves begins between after) : Evolves begins timer after where
  course := first.course.trans second.course
  index := second.index.trans first.index
  source := second.source.trans first.source
  resets := second.resets.trans first.resets
  fits fits := second.fits (first.fits fits)

theorem Step.trans (first : Step least begins timer clock between middle)
    (second : Step least begins between middle after later) :
    Step least begins timer clock after later where
  toEvolves := first.toEvolves.trans second.toEvolves
  serves := first.serves.trans second.serves

/-- An operation that only stores into the registers. -/
theorem Step.ofBank (least : UInt64) (begins : Span → Prop) (timer : Timer) (clock : Clock)
    {bank : Bank registers} (resets : bank.resets = timer.bank.resets)
    (fits : timer.bank.Fits → bank.Fits) :
    Step least begins timer clock { timer with bank } clock where
  serves := .refl least _ clock
  course := .kept rfl rfl
  index := rfl
  source := rfl
  resets := resets
  fits := fits

theorem Step.refl (least : UInt64) (begins : Span → Prop) (timer : Timer) (clock : Clock) :
    Step least begins timer clock timer clock :=
  .ofBank least begins timer clock rfl id

theorem halt_eq (timer : Timer) (clock : Clock) :
    (timer.halt clock).1 = { timer with phase := .stopped } ∧
      (timer.halt clock).2.now = clock.now := by
  obtain ⟨index, source, bank, latch, phase⟩ := timer
  cases phase <;> exact ⟨rfl, rfl⟩

theorem halt_step (least : UInt64) (begins : Span → Prop) (timer : Timer) (clock : Clock) :
    Step least begins timer clock (timer.halt clock).1 (timer.halt clock).2 ∧
      (timer.halt clock).1.phase = .stopped := by
  unfold halt
  split
  next stopped => exact ⟨.refl least begins timer clock, stopped⟩
  next start expiry running =>
    refine ⟨⟨⟨.stopped rfl, rfl, rfl, rfl, id⟩, ?_⟩, rfl⟩
    rw [held_of_running running]
    exact .drop least clock expiry

theorem place_step (timer : Timer) (clock : Clock) (start : UInt64) {period : UInt64}
    (fitting : timer.latched.period = .ok period) (positive : 0 < period)
    (short : period ≤ 0x1000000) :
    (timer.place clock (skipMissed clock.now start period).1 period).Ensures fun (after, later) =>
      Clock.Serves 1 0 after.held clock later ∧ Course Span.Regular timer after ∧
        after.index = timer.index ∧ after.source = timer.source ∧ after.bank = timer.bank := by
  refine .bind (.except _) ?_
  rintro ⟨expiry, later⟩ placed
  refine .pure ⟨.scheduleAt placed (one_le_distance_skipMissed clock start positive short), ?_,
    rfl, rfl, rfl⟩
  refine .begun _ expiry rfl ⟨(stepCycles_latched timer).2, ?_⟩
  dsimp only
  rw [fitting, (Clock.pending_of_scheduleAt placed).2]
  congr 1
  grind

/-- A period that begins ends after the present, and its deadline is where it should be. -/
theorem arm_step (timer : Timer) (clock : Clock) (start : UInt64) :
    (timer.arm clock start).Ensures fun (after, later) =>
      Clock.Serves 1 0 after.held clock later ∧ Course Span.Regular timer after ∧
        after.index = timer.index ∧ after.source = timer.source ∧ after.bank = timer.bank := by
  unfold arm
  refine .bind (.except _) ?_
  intro period fitting
  obtain ⟨_, found, positive, short⟩ := period_latched timer
  cases fitting.symm.trans found
  have placing := place_step timer clock start fitting positive short
  dsimp only
  split
  next => exact .bind (.trivial _) fun _ _ => placing
  next => exact placing

theorem read_step (timer : Timer) (clock : Clock) (width : Width) (address : UInt32) :
    Step 1 Span.Regular timer clock (timer.read clock width address).value.2 clock := by
  unfold read
  rw [Traced.value_bind, Selection.value_noted]
  split
  next => exact .refl 1 _ timer clock
  next selection _ =>
    split
    next => exact .refl 1 _ timer clock
    next =>
      exact .ofBank 1 _ timer clock (Bank.resets_read _ selection) fun fits => fits.read selection

/-- What a change of the control register leaves of a timer that has stored it, and of its clock. -/
inductive Obeys (timer : Timer) (clock : Clock) (change : Change) : Timer → Clock → Prop where
  | runs (rises : change.rising &&& enableBit ≠ 0) (running : timer.isRunning = true) :
      Obeys timer clock change timer clock
  | starts {after : Timer} {later : Clock} (rises : change.rising &&& enableBit ≠ 0)
      (idle : timer.isRunning = false)
      (arms : (timer.arm clock clock.now).outcome = .ok (after, later)) :
      Obeys timer clock change after later
  | stops (stays : ¬change.rising &&& enableBit ≠ 0) (falls : change.falling &&& enableBit ≠ 0) :
      Obeys timer clock change (timer.halt clock).1 (timer.halt clock).2
  | kept (stays : ¬change.rising &&& enableBit ≠ 0) (keeps : ¬change.falling &&& enableBit ≠ 0) :
      Obeys timer clock change timer clock

theorem controlled_obeys (timer : Timer) (clock : Clock) (change : Change) :
    (timer.controlled clock change).Ensures fun (after, later) =>
      Obeys timer clock change after later := by
  unfold controlled
  split
  next rises =>
    refine .bind (.trivial _) fun _ _ => ?_
    split
    next running => exact .pure (.runs rises running)
    next idle => exact fun _ arms => .starts rises (Bool.eq_false_iff.2 idle) arms
  next stays =>
    split
    next falls => exact .bind (.trivial _) fun _ _ => .pure (.stops stays falls)
    next keeps => exact .pure (.kept stays keeps)

theorem Obeys.step {change : Change} (obeys : Obeys timer clock change after later) :
    Step 1 Span.Regular timer clock after later := by
  cases obeys with
  | runs => exact .refl 1 _ timer clock
  | starts _ idle arms =>
      obtain ⟨serves, course, index, source, bank⟩ := arm_step timer clock clock.now _ arms
      have stopped : timer.held = 0 := held_eq_zero_iff.2 idle
      exact ⟨⟨course, index, source, bank ▸ rfl, bank ▸ id⟩, stopped ▸ serves⟩
  | stops => exact (halt_step 1 _ timer clock).1
  | kept => exact .refl 1 _ timer clock

/-- What a write leaves of a timer and its clock. -/
inductive Writes (timer : Timer) (clock : Clock) (width : Width) (address value : UInt32) :
    Timer → Clock → Prop where
  | missed (none : Selection.find? registers width address = none) :
      Writes timer clock width address value timer clock
  | control {selection : Selection registers} {after : Timer} {later : Clock}
      (found : Selection.find? registers width address = some selection)
      (here : selection.index = controlIndex)
      (obeys : Obeys { timer with bank := (timer.bank.write selection value).2 } clock
        (timer.bank.write selection value).1 after later) :
      Writes timer clock width address value after later
  | store {selection : Selection registers}
      (found : Selection.find? registers width address = some selection)
      (other : selection.index ≠ controlIndex) :
      Writes timer clock width address value
        { timer with bank := (timer.bank.write selection value).2 } clock

theorem write_writes (timer : Timer) (clock : Clock) (width : Width) (address value : UInt32) :
    (timer.write clock width address value).Ensures fun (after, later) =>
      Writes timer clock width address value after later := by
  unfold write
  refine .bind (.traced _) ?_
  rintro _ rfl
  rw [Selection.value_noted]
  split
  next missed => exact .pure (.missed missed)
  next selection found =>
    dsimp only
    split
    next here => exact (controlled_obeys _ clock _).imp fun _ => .control found here
    next other => exact .pure (.store found other)

theorem write_step (timer : Timer) (clock : Clock) (width : Width) (address value : UInt32) :
    (timer.write clock width address value).Ensures fun (after, later) =>
      Step 1 Span.Regular timer clock after later := by
  have stored {selection : Selection registers}
      (found : Selection.find? registers width address = some selection) :
      Step 1 Span.Regular timer clock
        { timer with bank := (timer.bank.write selection value).2 } clock :=
    .ofBank 1 _ timer clock (Bank.resets_write _ selection value) fun fits =>
      fits.write (Selection.proper_of_find? found) value
  refine (timer.write_writes clock width address value).imp ?_
  rintro ⟨after, later⟩ writes
  cases writes with
  | missed => exact .refl 1 _ timer clock
  | control found _ obeys => exact (stored found).trans obeys.step
  | store found => exact stored found

/-! ## Polls -/

/-- The timer after its period: it has begun another one, or has stopped. -/
def turned (timer : Timer) (clock : Clock) (start : UInt64) : Run Signal (Timer × Clock) := do
  if timer.bank.get controlIndex &&& periodicBit ≠ 0 then
    let period ← timer.latch.period
    timer.arm clock (start + period)
  else
    let bank := timer.bank.clearBits controlIndex enableBit
    pure ({ timer with bank, phase := .stopped }, clock)

/-- The deadline that the timer holds lies ahead, if there is one, or the period is over. -/
theorem ahead_or_reached (timer : Timer) (clock : Clock) :
    (∀ deadline ∈ timer.held, clock.hasReached deadline.time = false) ∨
      ∃ start expiry, timer.phase = .running start expiry ∧
        clock.hasReached expiry.time = true := by
  cases phase : timer.phase with
  | stopped =>
      refine .inl fun deadline known => ?_
      rw [held_of_stopped phase] at known
      exact absurd known (Multiset.notMem_zero deadline)
  | running start expiry =>
      cases reached : clock.hasReached expiry.time with
      | true => exact .inr ⟨start, expiry, rfl, reached⟩
      | false =>
          refine .inl fun deadline known => ?_
          rw [held_of_running phase, Multiset.mem_singleton] at known
          rw [known, reached]

/-- Before its deadline a timer is left alone, whether it runs or not. -/
theorem poll_of_ahead
    (ahead : ∀ deadline ∈ timer.held, clock.hasReached deadline.time = false) :
    timer.poll clock = pure (timer, clock) := by
  unfold poll
  split
  next => rfl
  next start expiry phase =>
    have waits := ahead expiry (held_of_running phase ▸ Multiset.mem_singleton_self expiry)
    rw [waits, if_neg Bool.false_ne_true]

/-- The period of a timer is over: it asks for its interrupt after it has turned. -/
theorem poll_of_reached {start : UInt64} {expiry : Deadline}
    (phase : timer.phase = .running start expiry) (reached : clock.hasReached expiry.time = true) :
    timer.poll clock = do
      Run.signal (.note (.timerExpired timer.index))
      let after ← timer.turned clock start
      Run.signal (.interrupt timer.source)
      return after := by
  unfold poll turned
  rw [phase]
  dsimp only
  rw [if_pos reached]
  split
  next => rw [bind_assoc]
  next => rfl

theorem turned_step (timer : Timer) (clock : Clock) (start : UInt64) :
    (timer.turned clock start).Ensures fun (after, later) =>
      Evolves Span.Regular timer after ∧ Clock.Serves 1 0 after.held clock later := by
  unfold turned
  split
  next =>
    refine .bind (.trivial _) fun period _ => (arm_step timer clock (start + period)).imp ?_
    rintro ⟨after, later⟩ ⟨serves, course, index, source, bank⟩
    exact ⟨⟨course, index, source, bank ▸ rfl, bank ▸ id⟩, serves⟩
  next =>
    refine .pure ⟨⟨.stopped rfl, rfl, rfl, rfl, ?_⟩, .refl 1 0 clock⟩
    exact fun fits => fits.clearBits controlIndex enableBit

/-- After a poll the timer's deadline lies ahead. -/
theorem poll_step (timer : Timer) (clock : Clock) :
    (timer.poll clock).Ensures fun (after, later) =>
      Step 1 Span.Regular timer clock after later ∧
        ∀ deadline ∈ after.held, later.hasReached deadline.time = false := by
  rcases timer.ahead_or_reached clock with ahead | ⟨start, expiry, phase, reached⟩
  · rw [poll_of_ahead ahead]
    exact .pure ⟨.refl 1 _ timer clock, ahead⟩
  · rw [poll_of_reached phase reached]
    refine .bind (.trivial _) fun _ _ => .bind (turned_step timer clock start) ?_
    rintro ⟨after, later⟩ ⟨evolves, serves⟩
    have released : Clock.Serves 1 timer.held 0 clock clock := by
      rw [held_of_running phase]
      exact .release 1 reached
    refine .bind (.trivial _) fun _ _ => .pure ⟨⟨evolves, released.trans serves⟩, ?_⟩
    exact serves.hasReached (by decide) fun deadline known =>
      absurd known (Multiset.notMem_zero deadline)

theorem reset_step (timer : Timer) (clock : Clock) :
    Step 1 Span.Regular timer clock (timer.reset clock).1 (timer.reset clock).2 :=
  (halt_step 1 _ timer clock).1.trans
    (.ofBank 1 _ (timer.halt clock).1 (timer.halt clock).2 rfl Bank.Fits.reset)

/-! ## Restored timers -/

/-- The deadline of the saved timer comes at least so many cycles after it is restored. -/
def Snapshot.Ahead (least : UInt64) (saved : Snapshot) : Prop :=
  match saved.remaining with
  | none => least = 0
  | some cycles => least ≤ cycles

theorem Snapshot.ahead_zero (saved : Snapshot) : saved.Ahead 0 := by
  unfold Ahead
  split
  next => rfl
  next => exact UInt64.zero_le

theorem snapshot_ahead (ahead : ∀ deadline ∈ timer.held, clock.hasReached deadline.time = false)
    (running : (timer.snapshot clock).running = true) : (timer.snapshot clock).Ahead 1 := by
  cases phase : timer.phase with
  | stopped => simp [snapshot, isRunning, phase] at running
  | running start expiry =>
      simpa [Snapshot.Ahead, snapshot, phase] using
        Clock.one_le_remaining (ahead expiry (by simp [held_of_running phase]))

/-- The period of a saved timer, seen from the clock on which it goes on. -/
structure Span.Resumed (saved : Snapshot) (clock : Clock) (span : Span) : Prop where
  running : saved.running = true
  reload : span.latch.reload = saved.reload
  stepCycles : span.latch.stepCycles = saved.stepCycles
  start : span.start = clock.now - saved.elapsed
  expiry : ∀ cycles ∈ saved.remaining, span.expiry.time = clock.now + cycles

theorem resume_step (timer : Timer) (clock : Clock) (latch : Latch) (saved : Snapshot)
    (ahead : saved.running = true → saved.Ahead least) (running : saved.running = true)
    (reload : latch.reload = saved.reload) (stepCycles : latch.stepCycles = saved.stepCycles) :
    (timer.resume clock latch saved).Ensures fun (after, later) =>
      Clock.Serves least 0 after.held clock later ∧ Course (Span.Resumed saved clock) timer after ∧
        after.index = timer.index ∧ after.source = timer.source ∧ after.bank = timer.bank := by
  unfold resume
  extract_lets goesOn
  have placing (rest : UInt64) (far : least ≤ rest) (same : ∀ cycles ∈ saved.remaining,
      rest = cycles) : (goesOn rest).Ensures fun (after, later) =>
      Clock.Serves least 0 after.held clock later ∧ Course (Span.Resumed saved clock) timer after ∧
        after.index = timer.index ∧ after.source = timer.source ∧ after.bank = timer.bank := by
    refine .bind (.except _) ?_
    rintro ⟨expiry, later⟩ placed
    have serves := Clock.Serves.scheduleIn placed far
    refine .pure ⟨serves, ?_, rfl, rfl, rfl⟩
    refine .begun _ expiry rfl ⟨running, reload, stepCycles, ?_, fun cycles left => ?_⟩
    · rw [serves.follows.now]
    · rw [(Clock.pending_of_scheduleAt placed).2, same cycles left]
  have far := ahead running
  unfold Snapshot.Ahead at far
  cases left : saved.remaining with
  | none =>
      rw [left] at far
      subst far
      refine .bind (.trivial _) fun _ _ => .bind (.trivial _) fun rest _ => ?_
      exact placing rest UInt64.zero_le (by simp [left])
  | some cycles =>
      rw [left] at far
      exact placing cycles far (by simp [left])

theorem restore_step (timer : Timer) (clock : Clock) (saved : Snapshot)
    (ahead : saved.running = true → saved.Ahead least) :
    (timer.restore clock saved).Ensures fun (_, after, later) =>
      Step least (Span.Resumed saved clock) timer clock after later := by
  unfold restore
  dsimp only
  split
  next present =>
    split
    next => exact .pure (.refl least _ timer clock)
    next bank loaded =>
      obtain ⟨halted, stopped⟩ := halt_step least (Span.Resumed saved clock) timer clock
      generalize timer.halt clock = ended at halted stopped ⊢
      obtain ⟨idle, free⟩ := ended
      have loading : Step least (Span.Resumed saved clock) timer clock { idle with bank } free := by
        refine ⟨⟨.stopped stopped, halted.index, halted.source, ?_, fun fits => ?_⟩, halted.serves⟩
        · exact Bank.resets_of_load? loaded
        · exact fits.load? loaded
      dsimp only
      split
      next running =>
        refine .bind (resume_step _ _ _ saved ahead running rfl rfl) ?_
        rintro ⟨after, later⟩ ⟨serves, course, index, source, kept⟩
        refine .pure (loading.trans ⟨⟨?_, index, source, kept ▸ rfl, kept ▸ id⟩, ?_⟩)
        · refine course.imp fun span resumed => ?_
          exact { resumed with
            start := by rw [resumed.start, halted.serves.follows.now]
            expiry := fun cycles left => by
              rw [resumed.expiry cycles left, halted.serves.follows.now] }
        · have none : ({ idle with bank } : Timer).held = 0 := held_of_stopped stopped
          rw [none]
          exact serves
      next => exact .pure loading
  next => exact .pure (.refl least _ timer clock)

/-! ## Everything a timer does -/

/-- An operation of a timer, with what it leaves. -/
inductive Does (restorable : Snapshot → Prop) (timer : Timer) (clock : Clock) :
    Timer → Clock → Prop where
  | read (width : Width) (address : UInt32) :
      Does restorable timer clock (timer.read clock width address).value.2 clock
  | write {after : Timer} {later : Clock} (width : Width) (address value : UInt32)
      (done : (timer.write clock width address value).outcome = .ok (after, later)) :
      Does restorable timer clock after later
  | poll {after : Timer} {later : Clock} (done : (timer.poll clock).outcome = .ok (after, later)) :
      Does restorable timer clock after later
  | reset : Does restorable timer clock (timer.reset clock).1 (timer.reset clock).2
  | restore {saved : Snapshot} {answer : Except DeviceError Unit} {after : Timer} {later : Clock}
      (own : restorable saved)
      (done : (timer.restore clock saved).outcome = .ok (answer, after, later)) :
      Does restorable timer clock after later

/-- The period is regular, or one of a saved timer. -/
def Span.Known (restorable : Snapshot → Prop) (clock : Clock) (span : Span) : Prop :=
  span.Regular ∨ ∃ saved, restorable saved ∧ span.Resumed saved clock

theorem Step.ofRegular {restorable : Snapshot → Prop} (le : least ≤ 1)
    (step : Step 1 Span.Regular timer clock after later) :
    Step least (Span.Known restorable clock) timer clock after later :=
  { step with
    course := step.course.imp fun _ regular => .inl regular
    serves := step.serves.weaken le }

theorem Does.step {restorable : Snapshot → Prop} (does : Does restorable timer clock after later)
    (le : least ≤ 1)
    (ahead : ∀ saved, restorable saved → saved.running = true → saved.Ahead least) :
    Step least (Span.Known restorable clock) timer clock after later := by
  cases does with
  | read width address => exact .ofRegular le (read_step timer clock width address)
  | write width address value done =>
      exact .ofRegular le (write_step timer clock width address value _ done)
  | poll done => exact .ofRegular le (poll_step timer clock _ done).1
  | reset => exact .ofRegular le (reset_step timer clock)
  | restore own done =>
      have step := restore_step timer clock _ (ahead _ own) _ done
      exact { step with course := step.course.imp fun _ resumed => .inr ⟨_, own, resumed⟩ }

/-- The timer of a number and a source, with registers that fit. -/
structure Sound (number : Nat) (origin : UInt8) (timer : Timer) : Prop where
  index : timer.index = number
  source : timer.source = origin
  resets : timer.bank.resets = (Bank.initial registers).resets
  fits : timer.bank.Fits

theorem Evolves.sound (evolves : Evolves begins timer after) {number : Nat} {origin : UInt8}
    (sound : Sound number origin timer) : Sound number origin after where
  index := evolves.index.trans sound.index
  source := evolves.source.trans sound.source
  resets := evolves.resets.trans sound.resets
  fits := evolves.fits sound.fits

/-! ## Deadlines where they should be -/

/-- A deadline that is still awaited is where it should be. -/
def IsPunctual (timer : Timer) (clock : Clock) : Prop :=
  ∀ start expiry, timer.phase = .running start expiry → clock.Awaits expiry →
    Span.Regular ⟨timer.latch, start, expiry⟩

theorem Evolves.punctual (evolves : Evolves begins timer after)
    (follows : Clock.Follows least clock later)
    (regular : ∀ span, begins span → later.Awaits span.expiry → span.Regular)
    (issued : ∀ deadline ∈ timer.held, deadline.serial < clock.issued)
    (punctual : timer.IsPunctual clock) : after.IsPunctual later := by
  intro start expiry running awaits
  cases evolves.course with
  | kept phase latch =>
      rw [phase] at running
      have old := issued expiry (by simp [held_of_running running])
      rw [latch]
      exact punctual start expiry running (follows.awaits old awaits)
  | stopped phase => exact absurd (phase.symm.trans running) (by simp)
  | begun start' expiry' phase known =>
      cases phase.symm.trans running
      exact regular _ known awaits

/-- What is left of the saved period and what has passed of it make up its length, unless the
period is over. -/
def Snapshot.IsPunctual (saved : Snapshot) : Prop :=
  saved.running = true → ∃ cycles, saved.remaining = some cycles ∧
    (cycles ≠ 0 → saved.stepCycles.toNat ≤ 256 ∧
      ∀ latch : Latch, latch.reload = saved.reload → latch.stepCycles = saved.stepCycles →
        latch.period = .ok (saved.elapsed + cycles))

/-- A period that is over when it is saved comes back with a deadline that is reached at once. -/
theorem Span.Resumed.regular {saved : Snapshot} {span : Span} (resumed : span.Resumed saved clock)
    (punctual : saved.IsPunctual) (now : later.now = clock.now) (awaits : later.Awaits span.expiry) :
    span.Regular := by
  obtain ⟨cycles, left, length⟩ := punctual resumed.running
  have time := resumed.expiry cycles left
  have going : cycles ≠ 0 := by
    rintro rfl
    have reached := awaits.ahead
    rw [time, Clock.hasReached_congr now] at reached
    simp [Clock.hasReached, Clock.horizon] at reached
  obtain ⟨short, period⟩ := length going
  refine ⟨resumed.stepCycles ▸ short, ?_⟩
  rw [period span.latch resumed.reload resumed.stepCycles, time, resumed.start]
  congr 1
  grind

end Timer

end SocPeripherals
