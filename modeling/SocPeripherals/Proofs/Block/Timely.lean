import SocPeripherals.Block.Command
import SocPeripherals.Proofs.Block.Poll
import SocPeripherals.Proofs.Block.Reached

/-!
# Timely hosts

A host is timely if it polls after every move of the clock that reached a deadline, before it
moves the clock again. What the block holds is then pending and lies ahead whenever the poll is
done, and on a clock that serves nobody else nothing more is pending.
-/

namespace SocPeripherals

namespace Block

variable {μ : Type} [Bus μ] {block between after : Block μ} {settings : Settings}
  {alone overdue : Bool}

/-- What a timely host finds: `alone` tells that nobody else uses the clock, and `overdue` that a
reached deadline has not been polled for. -/
structure Orderly (settings : Settings) (alone overdue : Bool) (block : Block μ) : Prop where
  sound : Sound settings block
  distinct : block.clock.Distinct block.held
  keeps : block.clock.Keeps block.held
  within : block.clock.Within
  owes : alone = true → block.clock.Owes block.held
  upcoming : alone = true → block.clock.Upcoming
  regular : ∀ index : Fin Dma.channelCount, block.dma.channels[index].IsRegular block.clock
  ahead : overdue = false → ∀ deadline ∈ block.held, block.clock.hasReached deadline.time = false

/-! ## Power-on -/

omit [Bus μ] in
theorem timer_initial (settings : Settings) (clock : Clock) (memory : μ) (index : Fin timerCount) :
    (initial settings clock memory).timers[index]
      = { index := index.val, source := Interrupt.timerSources[index] } := by
  simp [initial]

omit [Bus μ] in
theorem uart_initial (settings : Settings) (clock : Clock) (memory : μ) (index : Fin uartCount) :
    (initial settings clock memory).uarts[index]
      = { index := index.val, source := Interrupt.uartSources[index]
          capacity := settings.uartCapacity } := by
  simp [initial]

omit [Bus μ] in
theorem channel_initial (settings : Settings) (clock : Clock) (memory : μ)
    (index : Fin Dma.channelCount) :
    (initial settings clock memory).dma.channels[index]
      = { index := index.val, source := Interrupt.dmaSources[index]
          cyclesPerUnit := settings.dmaCycles } := by
  simp [initial, Dma.initial]

omit [Bus μ] in
theorem sound_initial (settings : Settings) (clock : Clock) (memory : μ) :
    Sound settings (initial settings clock memory) where
  misc := rfl
  miscFits := ((Bank.fits_initial (by decide)).withReset identityIndex _).withReset
    configurationIndex _
  controllerResets := rfl
  controllerFits := Bank.fits_initial (by decide)
  driven := by
    change false = Interrupt.Controller.demands {}
    decide
  timers index := by
    rw [timer_initial]
    exact ⟨rfl, rfl, rfl, Bank.fits_initial (by decide)⟩
  uarts index := by
    rw [uart_initial]
    exact ⟨rfl, rfl, rfl, rfl, Bank.fits_initial (by decide), Nat.zero_le _, fun _ => rfl⟩
  channels index := by
    rw [channel_initial]
    exact ⟨rfl, rfl, rfl, rfl, Bank.fits_initial (by decide), fun _ active => by contradiction⟩

omit [Bus μ] in
theorem held_initial (settings : Settings) (clock : Clock) (memory : μ) :
    (initial settings clock memory).held = 0 := by
  refine held_eq_zero_iff.2 ⟨fun index => ?_, fun index => ?_, fun index => ?_⟩
  · rw [timer_initial]
    rfl
  · rw [uart_initial]
    rfl
  · rw [channel_initial]
    rfl

omit [Bus μ] in
theorem orderly_initial (settings : Settings) {clock : Clock} (within : clock.Within)
    (free : alone = true → clock.pending = []) (memory : μ) :
    Orderly settings alone false (initial settings clock memory) where
  sound := sound_initial settings clock memory
  distinct := by
    rw [held_initial]
    exact ⟨Multiset.nodup_zero, fun _ known => absurd known (Multiset.notMem_zero _)⟩
  keeps := by
    rw [held_initial]
    exact fun _ known => absurd known (Multiset.notMem_zero _)
  within := within
  owes only deadline placed := by
    change deadline ∈ clock.pending at placed
    simp [free only] at placed
  upcoming only deadline placed := by
    change deadline ∈ clock.pending at placed
    simp [free only] at placed
  regular index := by
    rw [channel_initial]
    exact fun _ active => by contradiction
  ahead _ deadline known := by
    rw [held_initial] at known
    exact absurd known (Multiset.notMem_zero _)

/-! ## Between two moves of the clock -/

variable {begins : Timer.Span → Prop} {restorable : Snapshot → Prop}

omit [Bus μ] in
theorem Orderly.step (orderly : Orderly settings alone overdue block)
    (step : Step 1 begins block after) : Orderly settings alone overdue after where
  sound := step.sound orderly.sound
  distinct := by simpa using step.serves.distinct 0 (by simpa using orderly.distinct)
  keeps := by
    simpa using step.serves.keeps 0 (by simpa using orderly.distinct) (by simpa using orderly.keeps)
  within := step.serves.follows.within orderly.within
  owes only := by simpa using step.serves.owes 0 (by simpa using orderly.owes only)
  upcoming only := step.serves.follows.upcoming (by decide) (orderly.upcoming only)
  regular index := (step.channels index).regular (by decide) (orderly.sound.channels index).sound
    (orderly.regular index)
  ahead polled := step.serves.hasReached (by decide) (orderly.ahead polled)

theorem Orderly.acts (orderly : Orderly settings alone overdue block)
    (ahead : ∀ saved, restorable saved → saved.Ahead 1 settings.dmaCycles)
    (own : ∀ saved, restorable saved → saved.IsSound settings.dmaCycles)
    (acts : Acts restorable block after) : Orderly settings alone overdue after := by
  induction acts with
  | refl => exact orderly
  | tail _ act orderly => exact orderly.step (act.step UInt64.le_rfl ahead own orderly.sound)

/-- A poll makes up for what is overdue. -/
theorem Orderly.poll (orderly : Orderly settings alone overdue block) :
    block.poll.Ensures fun after => Orderly settings alone false after := by
  refine ((poll_acts (fun _ => False) block).and (poll_ahead block)).imp ?_
  rintro after ⟨acts, ahead⟩
  have kept := orderly.acts (fun _ never => never.elim) (fun _ never => never.elim) acts
  exact { kept with ahead := fun _ => ahead }

/-! ## Moving the clock -/

omit [Bus μ] in
/-- While nothing is overdue, what the block holds lies ahead and less than the horizon away. -/
theorem Orderly.near (orderly : Orderly settings alone false block) {deadline : Deadline}
    (known : deadline ∈ block.held) :
    0 < block.clock.distance deadline.time ∧
      block.clock.distance deadline.time < Clock.horizon := by
  have ahead := orderly.ahead rfl deadline known
  have near := orderly.within deadline (orderly.keeps deadline known ahead)
  exact ⟨(Clock.hasReached_eq_false_iff near).1 ahead, near⟩

omit [Bus μ] in
/-- A deadline ahead has not been missed by a step of the clock. -/
theorem Orderly.regular_moved (orderly : Orderly settings alone false block) {cycles : UInt64}
    (short : cycles < Clock.horizon) (index : Fin Dma.channelCount) :
    block.dma.channels[index].IsRegular (block.clock.moved cycles) := by
  intro transfer active
  obtain ⟨due, timed, time, recent⟩ := orderly.regular index transfer active
  have known := mem_held_of_channel (Dma.Channel.mem_held.2 ⟨transfer, active, timed⟩)
  have brief := ((orderly.sound.channels index).sound transfer active).short
  have early := Dma.Channel.Regular.elapsed_lt ⟨due, timed, time, recent⟩ brief timed
    (orderly.near known)
  have moved : (block.clock.moved cycles).now - transfer.startedAt
      = block.clock.now - transfer.startedAt + cycles := by
    unfold Clock.moved
    grind
  refine ⟨due, timed, time, ?_⟩
  rw [UInt64.lt_iff_toNat_lt] at early short
  rw [moved, UInt64.toNat_add]
  exact (Nat.mod_le _ _).trans_lt (Nat.add_lt_add early short)

omit [Bus μ] in
theorem Orderly.increment (orderly : Orderly settings alone false block) {cycles : UInt64}
    {reached : Bool} (done : block.increment cycles = .ok (reached, after)) :
    Orderly settings alone reached after := by
  obtain ⟨clock, moving, rfl⟩ := of_increment done
  have short := Clock.short_of_increment moving
  have upcoming := Clock.upcoming_of_increment orderly.within moving
  rw [Clock.increment_of_lt short] at moving
  cases moving
  have waits : ∀ deadline ∈ block.held, deadline ∈ block.clock.pending := fun deadline known =>
    orderly.keeps deadline known (orderly.ahead rfl deadline known)
  exact {
    sound := { orderly.sound with }
    distinct := ⟨orderly.distinct.nodup, orderly.distinct.issued⟩
    keeps := fun deadline known ahead =>
      List.mem_filter.2 ⟨waits deadline known, by rw [Bool.not_eq_true']; exact ahead⟩
    within := upcoming.within
    owes := fun only deadline placed _ => by
      have before := List.mem_of_mem_filter placed
      have near := orderly.upcoming only deadline before
      exact orderly.owes only deadline before ((Clock.hasReached_eq_false_iff near.2).2 near.1)
    upcoming := fun _ => upcoming
    regular := orderly.regular_moved short
    ahead := fun none deadline known => by
      have quiet := List.any_eq_false.1 none deadline (waits deadline known)
      exact Bool.not_eq_true _ ▸ quiet }

theorem Orderly.tick (orderly : Orderly settings alone false block) (cycles : UInt64) :
    (block.tick cycles).Ensures fun (_, after) => Orderly settings alone false after := by
  unfold Block.tick
  refine .bind (.except _) ?_
  rintro ⟨reached, between⟩ done
  have moved := orderly.increment done
  cases reached with
  | true => exact .bind moved.poll fun after kept => .pure kept
  | false => exact .pure moved

theorem Orderly.hop (orderly : Orderly settings alone false block) (steps : Nat) (left : UInt64)
    (polled : Bool) :
    (Block.hop steps block left polled []).Ensures fun (_, after) =>
      Orderly settings alone false after :=
  hop_keeps Orderly.tick steps orderly left polled

theorem Orderly.advance (orderly : Orderly settings alone false block) (cycles : UInt64) :
    (block.advance cycles).Ensures fun (_, after) => Orderly settings alone false after :=
  orderly.hop _ cycles false

/-! ## Saving and restoring -/

/-- What is saved of an orderly block with channels of so many cycles a unit. -/
structure Snapshot.IsOrderly (cyclesPerUnit : UInt64) (saved : Snapshot) : Prop where
  ahead : saved.Ahead 1 cyclesPerUnit
  sound : saved.IsSound cyclesPerUnit

omit [Bus μ] in
theorem Orderly.snapshot (orderly : Orderly settings alone false block) :
    block.snapshot.IsOrderly settings.dmaCycles := by
  refine ⟨⟨fun part listed running => ?_, fun part listed => ?_, fun part listed => ?_⟩,
    ⟨fun part listed => ?_, fun part listed => ?_⟩⟩
  · obtain ⟨index, rfl⟩ := mem_saved.1 listed
    exact Timer.snapshot_ahead (fun deadline known =>
      orderly.ahead rfl deadline (mem_held_of_timer known)) running
  · obtain ⟨index, rfl⟩ := mem_saved.1 listed
    exact Uart.snapshot_ahead fun deadline known =>
      orderly.ahead rfl deadline (mem_held_of_uart known)
  · obtain ⟨index, rfl⟩ := mem_saved.1 listed
    have sound := orderly.sound.channels index
    rw [← sound.cyclesPerUnit]
    exact Dma.Channel.snapshot_ahead sound.sound (orderly.regular index) fun deadline known =>
      orderly.near (mem_held_of_channel known)
  · obtain ⟨index, rfl⟩ := mem_saved.1 listed
    exact Uart.snapshot_isSilent (orderly.sound.uarts index).silent
  · obtain ⟨index, rfl⟩ := mem_saved.1 listed
    have sound := orderly.sound.channels index
    rw [← sound.cyclesPerUnit]
    exact Dma.Channel.snapshot_isSound sound.sound

/-- The saved transfers have not run yet for as long as they take in a block of the settings, if
transfers take time there, and they take no longer than a deadline can be placed ahead. -/
def Snapshot.Suits (saved : Snapshot) (settings : Settings) : Prop :=
  settings.dmaCycles ≠ 0 → ∀ part ∈ saved.dma, ∀ transfer ∈ part.transfer,
    transfer.elapsed < Dma.boundedProduct transfer.total.toUInt64 settings.dmaCycles ∧
      Dma.boundedProduct transfer.total.toUInt64 settings.dmaCycles < Clock.horizon

theorem Snapshot.IsOrderly.ofSuits {saved : Snapshot} {cyclesPerUnit : UInt64}
    (orderly : saved.IsOrderly cyclesPerUnit) (suits : saved.Suits settings) :
    saved.IsOrderly settings.dmaCycles := by
  refine ⟨{ orderly.ahead with dma := fun part listed timed transfer active => ?_ },
    { orderly.sound with dma := fun part listed transfer active => ?_ }⟩
  · obtain ⟨early, _⟩ := suits timed part listed transfer active
    unfold Dma.TransferSnapshot.rest
    dsimp only
    rw [if_pos early]
    grind
  · refine ⟨(orderly.sound.dma part listed transfer active).1, ?_⟩
    by_cases timed : settings.dmaCycles = 0
    · rw [timed, Dma.boundedProduct_zero]
      decide
    · exact (suits timed part listed transfer active).2

/-- What a block of the same settings has saved suits. -/
theorem Snapshot.IsOrderly.suits {saved : Snapshot} (orderly : saved.IsOrderly settings.dmaCycles) :
    saved.Suits settings := by
  intro timed part listed transfer active
  refine ⟨?_, (orderly.sound.dma part listed transfer active).2⟩
  have left := orderly.ahead.dma part listed timed transfer active
  unfold Dma.TransferSnapshot.rest at left
  dsimp only at left
  split at left
  next early => exact early
  next => exact absurd left (by decide)

theorem Orderly.restore (orderly : Orderly settings alone overdue block) {saved : Snapshot}
    (own : saved.IsOrderly settings.dmaCycles) :
    (block.restore saved).Ensures fun (_, after) => Orderly settings alone overdue after := by
  refine (restore_acts (· = saved) rfl block).imp ?_
  rintro ⟨answer, after⟩ acts
  refine orderly.acts ?_ ?_ acts
  · rintro _ rfl
    exact own.ahead
  · rintro _ rfl
    exact own.sound

/-! ## What a timely host does -/

/-- A timely host may give the command, apart from restoring. Only others place deadlines of their
own. -/
def Command.IsTimely (alone overdue : Bool) : Command → Prop
  | .increment _ | .tick _ | .advance _ => overdue = false
  | .placeDeadline _ => alone = false
  | .restore _ => False
  | _ => True

/-- A reached deadline has not been polled for after the command. -/
def Command.leaves (overdue : Bool) (response : Response) : Command → Bool
  | .poll => false
  | .increment _ =>
      match response with
      | .reached reached => reached
      | _ => overdue
  | _ => overdue

omit [Bus μ] in
/-- Others use the clock. -/
theorem Orderly.ofFollows (orderly : Orderly settings false overdue block) {least : UInt64}
    {clock : Clock} (follows : Clock.Follows least block.clock clock)
    (keeps : ∀ deadline ∈ block.held, deadline ∈ block.clock.pending →
      deadline ∈ clock.pending) : Orderly settings false overdue { block with clock } where
  sound := { orderly.sound with }
  distinct := ⟨orderly.distinct.nodup, fun deadline known =>
    (orderly.distinct.issued deadline known).trans_le follows.issued⟩
  keeps deadline known ahead := by
    refine keeps deadline known (orderly.keeps deadline known ?_)
    rwa [← Clock.hasReached_congr follows.now]
  within := follows.within orderly.within
  owes only := Bool.noConfusion only
  upcoming only := Bool.noConfusion only
  regular index := (orderly.regular index).still follows.now
  ahead polled deadline known := by
    rw [Clock.hasReached_congr follows.now]
    exact orderly.ahead polled deadline known

omit [Bus μ] in
theorem Orderly.placeDeadline (orderly : Orderly settings false overdue block) {cycles : UInt64}
    {deadline : Deadline} {clock : Clock}
    (placed : block.clock.scheduleIn cycles = .ok (deadline, clock)) :
    Orderly settings false overdue { block with clock } := by
  refine orderly.ofFollows (Clock.Serves.scheduleIn placed UInt64.zero_le).follows ?_
  intro other _ before
  rw [(Clock.pending_of_scheduleAt placed).1]
  exact List.mem_cons_of_mem _ before

omit [Bus μ] in
theorem Orderly.cancel (orderly : Orderly settings false overdue block) {deadline : Deadline}
    {clock : Clock} (foreign : deadline ∉ block.held)
    (done : block.clock.cancel deadline = .ok clock) :
    Orderly settings false overdue { block with clock } := by
  cases Clock.of_cancel done
  refine orderly.ofFollows (Clock.Serves.drop 0 block.clock deadline).follows ?_
  intro other known before
  exact Clock.mem_pending_drop.2 ⟨before, fun same => foreign (same ▸ known)⟩

theorem Orderly.perform (orderly : Orderly settings alone overdue block) {command : Command}
    (timely : command.IsTimely alone overdue) :
    (block.perform command).Ensures fun (response, after) =>
      Orderly settings alone (command.leaves overdue response) after := by
  have atOnce (steady : command.IsLocal) (kept : ∀ response, command.leaves overdue response
      = overdue) (respects : command.Respects fun _ => False) :
      (block.perform command).Ensures fun (response, after) =>
        Orderly settings alone (command.leaves overdue response) after := by
    refine (perform_acts (fun _ => False) steady respects block).imp ?_
    rintro ⟨response, after⟩ acts
    dsimp only
    rw [kept]
    exact orderly.acts (fun _ never => never.elim) (fun _ never => never.elim) acts
  cases command with
  | poll => exact .bind orderly.poll fun _ kept => .pure kept
  | increment cycles =>
      cases timely
      refine .bind (.except _) ?_
      rintro ⟨reached, after⟩ done
      exact .pure (orderly.increment done)
  | tick cycles =>
      cases timely
      exact .bind (orderly.tick cycles) fun _ kept => .pure kept
  | advance cycles =>
      cases timely
      exact .bind (orderly.advance cycles) fun _ kept => .pure kept
  | placeDeadline cycles =>
      cases timely
      refine .bind (.except _) ?_
      rintro ⟨deadline, clock⟩ placed
      exact .pure (orderly.placeDeadline placed)
  | restore saved => exact timely.elim
  | _ => exact atOnce trivial (fun _ => rfl) trivial

/-- A block as a timely host leaves it, on a clock that the block alone uses or that others use as
well. What is restored has been saved from a block that a timely host had left with nothing
overdue. -/
inductive Timely : Settings → Bool → Bool → Block μ → Prop where
  | create {settings : Settings} {alone : Bool} {clock : Clock} {memory : μ} {block : Block μ}
      (used : clock.Used) (free : alone = true → clock.pending = [])
      (created : create settings clock memory = .ok block) : Timely settings alone false block
  | perform {settings : Settings} {alone overdue : Bool} {block after : Block μ}
      {response : Response} (reached : Timely settings alone overdue block) (command : Command)
      (timely : command.IsTimely alone overdue)
      (done : (block.perform command).outcome = .ok (response, after)) :
      Timely settings alone (command.leaves overdue response) after
  | restore {settings origin : Settings} {alone aloneOther overdue : Bool}
      {block other after : Block μ} {response : Response}
      (reached : Timely settings alone overdue block)
      (saved : Timely origin aloneOther false other) (suits : other.snapshot.Suits settings)
      (done : (block.perform (.restore other.snapshot)).outcome = .ok (response, after)) :
      Timely settings alone overdue after
  | cancel {settings : Settings} {overdue : Bool} {block : Block μ} {deadline : Deadline}
      {clock : Clock} (reached : Timely settings false overdue block)
      (foreign : deadline ∉ block.held) (done : block.clock.cancel deadline = .ok clock) :
      Timely settings false overdue { block with clock }

theorem Timely.orderly (timely : Timely settings alone overdue block) :
    Orderly settings alone overdue block := by
  induction timely with
  | create used free created =>
      obtain ⟨-, rfl⟩ := of_create created
      exact orderly_initial _ used.within free _
  | perform _ command timely done orderly => exact orderly.perform timely _ done
  | restore _ _ suits done orderly orderlyOther =>
      obtain ⟨⟨answer, restored⟩, doing, same⟩ := Run.outcome_bind_eq_ok.1 done
      cases same
      exact orderly.restore (orderlyOther.snapshot.ofSuits suits) _ doing
  | cancel _ foreign done orderly => exact orderly.cancel foreign done

end Block

end SocPeripherals
