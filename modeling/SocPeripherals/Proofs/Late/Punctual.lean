import SocPeripherals.Block.Command
import SocPeripherals.Proofs.Block.Kept
import SocPeripherals.Proofs.Block.Timely

/-!
# Deadlines where they should be

A host may move the clock past deadlines and poll late, or not at all. As long as the clock waits
for the deadline of a period or of a transfer, that deadline is where it should be. Saving and
restoring keeps to this while the saved periods have not been missed by half of the counter.
-/

namespace SocPeripherals

/-- A deadline that is awaited after a step was awaited before, further ahead than the step. -/
theorem Clock.awaits_of_increment {clock after : Clock} {cycles : UInt64} {reached : Bool}
    {deadline : Deadline} (within : clock.Within)
    (done : clock.increment cycles = .ok (reached, after)) (awaits : after.Awaits deadline) :
    clock.Awaits deadline ∧ after.now = clock.now + cycles ∧
      cycles < clock.distance deadline.time := by
  have short := short_of_increment done
  obtain ⟨pending, ahead⟩ := (pending_of_increment done).1 awaits.pending
  have near := within deadline pending
  rw [increment_of_lt short] at done
  cases done
  have further : cycles < clock.distance deadline.time := by
    refine UInt64.not_le.1 fun le => ?_
    have reached := (hasReached_moved_iff near short).2 le
    exact absurd (reached.symm.trans ahead) (by decide)
  refine ⟨⟨pending, (hasReached_eq_false_iff near).2 ?_⟩, rfl, further⟩
  exact UInt64.lt_of_le_of_lt UInt64.zero_le further

namespace Timer

variable {timer : Timer} {clock later : Clock}

theorem IsPunctual.increment (punctual : timer.IsPunctual clock) (within : clock.Within)
    {cycles : UInt64} {reached : Bool} (done : clock.increment cycles = .ok (reached, later)) :
    timer.IsPunctual later :=
  fun start expiry phase awaits =>
    punctual start expiry phase (Clock.awaits_of_increment within done awaits).1

/-- The deadline of the timer has not been missed by half of the counter. -/
def IsLegible (timer : Timer) (clock : Clock) : Prop :=
  ∀ deadline ∈ timer.held, deadline ∈ clock.pending ∨ clock.hasReached deadline.time = true

theorem snapshot_isPunctual (punctual : timer.IsPunctual clock) (legible : timer.IsLegible clock) :
    (timer.snapshot clock).IsPunctual := by
  intro running
  cases phase : timer.phase with
  | stopped => simp [snapshot, isRunning, phase] at running
  | running start expiry =>
      refine ⟨clock.remaining expiry, by simp [snapshot, phase], fun left => ?_⟩
      have ahead : clock.hasReached expiry.time = false := by
        rw [← Bool.not_eq_true]
        intro reached
        exact left (by rw [Clock.remaining, if_pos reached])
      have known : expiry ∈ timer.held := by simp [held_of_running phase]
      have waits : clock.Awaits expiry := by
        refine ⟨(legible expiry known).resolve_right ?_, ahead⟩
        rw [ahead]
        exact Bool.false_ne_true
      obtain ⟨short, length⟩ := punctual start expiry phase waits
      refine ⟨short, ?_⟩
      rintro ⟨reload, stepCycles⟩ rfl rfl
      have same : clock.now - start + clock.remaining expiry = expiry.time - start := by
        rw [Clock.remaining, ahead, Clock.distance]
        grind
      simp only [snapshot, phase]
      rw [same]
      exact length

end Timer

namespace Dma.Channel

variable {channel : Channel} {clock later : Clock}

theorem IsPunctual.increment (punctual : channel.IsPunctual clock) (within : clock.Within)
    {cycles : UInt64} {reached : Bool}
    (done : clock.increment cycles = .ok (reached, later)) : channel.IsPunctual later := by
  intro transfer active due timed awaits
  obtain ⟨before, now, further⟩ := Clock.awaits_of_increment within done awaits
  obtain ⟨time, early⟩ := punctual transfer active due timed before
  refine ⟨time, ?_⟩
  have left : clock.distance due.time
      = channel.duration transfer.total - (clock.now - transfer.startedAt) := by
    rw [Clock.distance, time]
    grind
  rw [left] at further
  have elapsed : later.now - transfer.startedAt = clock.now - transfer.startedAt + cycles := by
    rw [now]
    grind
  rw [elapsed]
  generalize clock.now - transfer.startedAt = lasted at *
  generalize channel.duration transfer.total = whole at *
  grind

end Dma.Channel

namespace Block

variable {μ : Type} [Bus μ] {block after : Block μ} {settings : Settings}
  {restorable : Snapshot → Prop}

/-- What a block keeps to, however late it is polled. -/
structure Punctual (settings : Settings) (block : Block μ) : Prop where
  sound : Sound settings block
  distinct : block.clock.Distinct block.held
  within : block.clock.Within
  timers : ∀ index : Fin timerCount, block.timers[index].IsPunctual block.clock
  channels : ∀ index : Fin Dma.channelCount, block.dma.channels[index].IsPunctual block.clock

omit [Bus μ] in
theorem punctual_initial (settings : Settings) {clock : Clock} (within : clock.Within)
    (memory : μ) : Punctual settings (initial settings clock memory) where
  sound := sound_initial settings clock memory
  distinct := by
    rw [held_initial]
    exact ⟨Multiset.nodup_zero, fun _ known => absurd known (Multiset.notMem_zero _)⟩
  within := within
  timers index := by
    rw [timer_initial]
    intro start expiry phase
    contradiction
  channels index := by
    rw [channel_initial]
    intro transfer active
    contradiction

omit [Bus μ] in
theorem Punctual.step {least : UInt64} {begins : Timer.Span → Prop}
    (punctual : Punctual settings block) (step : Step least begins block after)
    (regular : ∀ span, begins span → after.clock.Awaits span.expiry → span.Regular) :
    Punctual settings after where
  sound := step.sound punctual.sound
  distinct := by simpa using step.serves.distinct 0 (by simpa using punctual.distinct)
  within := step.serves.follows.within punctual.within
  timers index := (step.timers index).punctual step.serves.follows regular
    (fun deadline known => punctual.distinct.issued deadline (mem_held_of_timer known))
    (punctual.timers index)
  channels index := (step.channels index).punctual
    (fun deadline known => punctual.distinct.issued deadline (mem_held_of_channel known))
    (punctual.channels index)

/-- What can be saved of a block that keeps its deadlines. -/
structure Snapshot.IsPunctual (cyclesPerUnit : UInt64) (saved : Snapshot) : Prop where
  sound : saved.IsSound cyclesPerUnit
  timers : ∀ part ∈ saved.timers, part.IsPunctual

omit [Bus μ] in
theorem Punctual.increment (punctual : Punctual settings block) {cycles : UInt64} {reached : Bool}
    (done : block.increment cycles = .ok (reached, after)) : Punctual settings after := by
  obtain ⟨clock, moving, rfl⟩ := of_increment done
  have issued := Clock.issued_of_increment moving
  exact {
    sound := { punctual.sound with }
    distinct := ⟨punctual.distinct.nodup, fun deadline known =>
      issued ▸ punctual.distinct.issued deadline known⟩
    within := (Clock.upcoming_of_increment punctual.within moving).within
    timers := fun index => (punctual.timers index).increment punctual.within moving
    channels := fun index => (punctual.channels index).increment punctual.within moving }

omit [Bus μ] in
/-- Somebody else uses the clock. -/
theorem Punctual.ofFollows (punctual : Punctual settings block) {clock : Clock}
    (follows : Clock.Follows 0 block.clock clock) : Punctual settings { block with clock } where
  sound := { punctual.sound with }
  distinct := ⟨punctual.distinct.nodup, fun deadline known =>
    (punctual.distinct.issued deadline known).trans_le follows.issued⟩
  within := follows.within punctual.within
  timers index := (Timer.Evolves.refl (fun _ => False) block.timers[index]).punctual follows
    (fun _ never => never.elim)
    (fun deadline known => punctual.distinct.issued deadline (mem_held_of_timer known))
    (punctual.timers index)
  channels index := (Dma.Channel.Evolves.still block.dma.channels[index] follows).punctual
    (fun deadline known => punctual.distinct.issued deadline (mem_held_of_channel known))
    (punctual.channels index)

theorem punctual_lasting (own : ∀ saved, restorable saved → saved.IsPunctual settings.dmaCycles) :
    Lasting (μ := μ) restorable (Punctual settings) where
  act punctual act := by
    have step := act.step UInt64.zero_le (fun saved _ => saved.ahead_zero _)
      (fun saved known => (own saved known).sound) punctual.sound
    refine punctual.step step ?_
    rintro span (regular | ⟨part, ⟨saved, known, listed⟩, resumed⟩) awaits
    · exact regular
    · exact resumed.regular ((own saved known).timers part listed) step.serves.follows.now awaits
  moved punctual done := punctual.increment done

/-- No period of a timer has been missed by half of the counter. -/
def IsLegible (block : Block μ) : Prop :=
  ∀ index : Fin timerCount, block.timers[index].IsLegible block.clock

omit [Bus μ] in
theorem Punctual.snapshot (punctual : Punctual settings block) (legible : block.IsLegible) :
    block.snapshot.IsPunctual settings.dmaCycles := by
  refine ⟨⟨fun part listed => ?_, fun part listed => ?_⟩, fun part listed => ?_⟩
  · obtain ⟨index, rfl⟩ := mem_saved.1 listed
    exact Uart.snapshot_isSilent (punctual.sound.uarts index).silent
  · obtain ⟨index, rfl⟩ := mem_saved.1 listed
    have sound := punctual.sound.channels index
    rw [← sound.cyclesPerUnit]
    exact Dma.Channel.snapshot_isSound sound.sound
  · obtain ⟨index, rfl⟩ := mem_saved.1 listed
    exact Timer.snapshot_isPunctual (punctual.timers index) (legible index)

/-- Every command but restoring keeps to it. -/
theorem Punctual.perform (punctual : Punctual settings block) {command : Command}
    (respects : command.Respects fun saved => saved.IsPunctual settings.dmaCycles) :
    (block.perform command).Ensures fun (_, after) => Punctual settings after := by
  cases command with
  | placeDeadline cycles =>
      refine .bind (.except _) ?_
      rintro ⟨deadline, clock⟩ placed
      exact .pure (punctual.ofFollows (Clock.Serves.scheduleIn placed UInt64.zero_le).follows)
  | _ => exact (punctual_lasting fun _ => id).perform punctual trivial respects

/-- The saved transfers take no longer than a deadline can be placed ahead in a block of the
settings. -/
def Snapshot.Fits (saved : Snapshot) (settings : Settings) : Prop :=
  ∀ part ∈ saved.dma, ∀ transfer ∈ part.transfer,
    Dma.boundedProduct transfer.total.toUInt64 settings.dmaCycles < Clock.horizon

theorem Snapshot.IsPunctual.ofFits {saved : Snapshot} {cyclesPerUnit : UInt64}
    (punctual : saved.IsPunctual cyclesPerUnit) (fits : saved.Fits settings) :
    saved.IsPunctual settings.dmaCycles where
  sound := { punctual.sound with
    dma := fun part listed transfer active =>
      ⟨(punctual.sound.dma part listed transfer active).1, fits part listed transfer active⟩ }
  timers := punctual.timers

/-- What a block of the same settings has saved fits. -/
theorem Snapshot.IsPunctual.fits {saved : Snapshot} (punctual : saved.IsPunctual settings.dmaCycles) :
    saved.Fits settings :=
  fun part listed transfer active => (punctual.sound.dma part listed transfer active).2

/-- A block as its host can leave it, on a clock that others use as well, whether the host polls or
not. What is restored fits, and has been saved from such a block before a period of one of its
timers was missed by half of the counter. -/
inductive Faithful : Settings → Block μ → Prop where
  | create {settings : Settings} {clock : Clock} {memory : μ} {block : Block μ} (used : clock.Used)
      (created : create settings clock memory = .ok block) : Faithful settings block
  | perform {settings : Settings} {block after : Block μ} {response : Response}
      (reached : Faithful settings block) (command : Command)
      (own : command.Respects fun _ => False)
      (done : (block.perform command).outcome = .ok (response, after)) : Faithful settings after
  | restore {settings origin : Settings} {block other after : Block μ} {response : Response}
      (reached : Faithful settings block) (saved : Faithful origin other)
      (legible : other.IsLegible) (fits : other.snapshot.Fits settings)
      (done : (block.perform (.restore other.snapshot)).outcome = .ok (response, after)) :
      Faithful settings after
  | cancel {settings : Settings} {block : Block μ} {deadline : Deadline} {clock : Clock}
      (reached : Faithful settings block) (done : block.clock.cancel deadline = .ok clock) :
      Faithful settings { block with clock }

theorem Faithful.punctual (reached : Faithful settings block) : Punctual settings block := by
  induction reached with
  | create used created =>
      obtain ⟨-, rfl⟩ := of_create created
      exact punctual_initial _ used.within _
  | @perform settings block after response _ command own done punctual =>
      have respects : command.Respects fun saved => saved.IsPunctual settings.dmaCycles := by
        cases command with
        | restore saved => exact own.elim
        | _ => trivial
      exact punctual.perform respects _ done
  | @restore settings origin block other after response _ _ legible fits done punctual source =>
      have own : (Command.restore other.snapshot).Respects fun saved =>
          saved.IsPunctual settings.dmaCycles := (source.snapshot legible).ofFits fits
      exact punctual.perform own _ done
  | @cancel settings block deadline clock _ done punctual =>
      cases Clock.of_cancel done
      exact punctual.ofFollows (Clock.Serves.drop 0 block.clock deadline).follows

/-! ## Timely hosts -/

omit [Bus μ] in
/-- While nothing is overdue, all that the block holds is awaited. -/
theorem Orderly.awaits {alone : Bool} (orderly : Orderly settings alone false block) :
    ∀ deadline ∈ block.held, block.clock.Awaits deadline := by
  intro deadline known
  have ahead := orderly.ahead rfl deadline known
  exact ⟨orderly.keeps deadline known ahead, ahead⟩

/-- A timely host leaves only what any host can leave. -/
theorem Timely.faithful {alone overdue : Bool} (timely : Timely settings alone overdue block) :
    Faithful settings block := by
  induction timely with
  | create used _ created => exact .create used created
  | perform _ command timely done faithful =>
      refine faithful.perform command ?_ done
      cases command with
      | restore saved => exact timely
      | _ => trivial
  | @restore settings origin _ _ _ _ other _ _ _ saved suits done faithful source =>
      refine faithful.restore source (fun index deadline known => ?_) ?_ done
      · exact .inl (saved.orderly.awaits deadline (mem_held_of_timer known)).pending
      · intro part listed transfer active
        by_cases timed : settings.dmaCycles = 0
        · rw [timed, Dma.boundedProduct_zero]
          decide
        · exact (suits timed part listed transfer active).2
  | cancel _ _ done faithful => exact faithful.cancel done

end Block

end SocPeripherals
