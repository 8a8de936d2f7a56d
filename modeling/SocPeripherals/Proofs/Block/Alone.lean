import SocPeripherals.Bus.Ram
import SocPeripherals.Proofs.Clock.Agenda
import SocPeripherals.Proofs.Late.Punctual
import SocPeripherals.Proofs.Lockstep.Native
import SocPeripherals.Proofs.Lockstep.Twins

/-!
# Alone on a clock

A clock that serves one block, under a timely host, waits for one deadline for each running timer,
each byte in a shifter, each break that is being timed and each transfer under way, and for nothing
else. What the block no longer times has left the clock, and what it still times has not.
-/

namespace SocPeripherals

/-! ## Holders of nothing -/

theorem Deadline.single_eq_zero_iff {holder : Option Deadline} :
    single holder = 0 ↔ holder = none := by
  cases holder <;> simp

theorem Uart.held_eq_zero_iff {uart : Uart} :
    uart.held = 0 ↔ uart.isTransmitting = false ∧ uart.breakDue = none := by
  simp [held, Deadline.single_eq_zero_iff, isTransmitting]

theorem Dma.Channel.held_eq_zero_iff {channel : Channel} {clock : Clock}
    (regular : channel.IsRegular clock) : channel.held = 0 ↔ channel.isActive = false := by
  rw [held, Deadline.single_eq_zero_iff, isActive]
  cases active : channel.transfer with
  | none => simp
  | some transfer =>
      obtain ⟨due, timed, _⟩ := regular transfer active
      simp [timed]

namespace Block

variable {μ : Type} {block : Block μ} {settings : Settings} {alone overdue : Bool}

/-- No timer runs, no byte is being sent, no break is being timed and no transfer is under way. -/
structure IsIdle (block : Block μ) : Prop where
  timers : ∀ index : Fin timerCount, block.timers[index].isRunning = false
  uarts : ∀ index : Fin uartCount,
    block.uarts[index].isTransmitting = false ∧ block.uarts[index].breakDue = none
  channels : ∀ index : Fin Dma.channelCount, block.dma.channels[index].isActive = false

theorem held_eq_zero_iff_isIdle
    (regular : ∀ index : Fin Dma.channelCount, block.dma.channels[index].IsRegular block.clock) :
    block.held = 0 ↔ block.IsIdle := by
  rw [held_eq_zero_iff]
  constructor
  · rintro ⟨timers, uarts, channels⟩
    exact ⟨fun index => Timer.held_eq_zero_iff.1 (timers index),
      fun index => Uart.held_eq_zero_iff.1 (uarts index),
      fun index => (Dma.Channel.held_eq_zero_iff (regular index)).1 (channels index)⟩
  · rintro ⟨timers, uarts, channels⟩
    exact ⟨fun index => Timer.held_eq_zero_iff.2 (timers index),
      fun index => Uart.held_eq_zero_iff.2 (uarts index),
      fun index => (Dma.Channel.held_eq_zero_iff (regular index)).2 (channels index)⟩

variable [Bus μ]

/-! ## What is pending -/

/-- Whoever else uses the clock, it has issued all that it keeps. -/
theorem Timely.isNative (timely : Timely settings alone overdue block) : block.IsNative := by
  induction timely with
  | create used _ created =>
      obtain ⟨-, rfl⟩ := of_create created
      exact isNative_initial used.isOwn _ _
  | perform _ command _ done native => exact native.perform command _ done
  | restore _ _ _ done native _ => exact native.perform _ _ done
  | cancel _ _ done native =>
      obtain ⟨same, own⟩ := native.isOwn.cancel done
      exact native.onClock same own

omit [Bus μ] in
/-- On a clock of its own, the deadlines that a block holds are pending once each, and no others. -/
theorem Orderly.pending_eq_held (orderly : Orderly settings true false block)
    (native : block.IsNative) : (block.clock.pending : Multiset Deadline) = block.held := by
  refine (Multiset.Nodup.ext native.isOwn.distinct.nodup orderly.distinct.nodup).2 fun deadline => ?_
  rw [Multiset.mem_coe, orderly.mem_pending]
  exact and_iff_left_of_imp (orderly.ahead rfl deadline)

/-- The period of a running timer ends after its latched length. -/
theorem Timely.timer_expiry (timely : Timely settings alone false block) {index : Fin timerCount}
    {start : UInt64} {expiry : Deadline}
    (running : block.timers[index].phase = .running start expiry) :
    ∃ period, block.timers[index].latch.period = .ok period ∧ expiry.time = start + period := by
  have known : expiry ∈ block.held :=
    mem_held_of_timer (Timer.held_of_running running ▸ Multiset.mem_singleton_self expiry)
  have awaits := timely.orderly.awaits expiry known
  obtain ⟨_, length⟩ := timely.faithful.punctual.timers index start expiry running awaits
  refine ⟨_, length, ?_⟩
  grind

/-- A transfer ends after the time of its units. -/
theorem Timely.transfer_due (timely : Timely settings alone overdue block)
    {index : Fin Dma.channelCount} {transfer : Transfer}
    (active : block.dma.channels[index].transfer = some transfer) :
    ∃ due, transfer.due = some due ∧
      due.time = transfer.startedAt + transfer.total.toUInt64 * settings.dmaCycles ∧
      transfer.total.toNat * settings.dmaCycles.toNat < Clock.horizon.toNat := by
  have sound := timely.orderly.sound.channels index
  obtain ⟨due, timed, time, _⟩ := timely.orderly.regular index transfer active
  obtain ⟨whole, short⟩ := (sound.sound transfer active).duration_eq
  rw [sound.cyclesPerUnit] at whole short
  exact ⟨due, timed, whole ▸ time, short⟩

/-- The deadlines that wait on the clock are those of the running timers, of the bytes in the
shifters, of the breaks that are timed and of the transfers under way, once each. A timer's comes a
period after its start, a transfer's comes after the time of all its units, and none waits exactly
if the block is idle. -/
theorem pending_of_timely (timely : Timely settings true false block) :
    (block.clock.pending : Multiset Deadline) = block.held ∧
      (∀ (index : Fin timerCount) (start : UInt64) (expiry : Deadline),
        block.timers[index].phase = .running start expiry →
          ∃ period, block.timers[index].latch.period = .ok period ∧
            expiry.time = start + period) ∧
      (∀ (index : Fin Dma.channelCount) (transfer : Transfer),
        block.dma.channels[index].transfer = some transfer →
          ∃ due, transfer.due = some due ∧
            due.time = transfer.startedAt + transfer.total.toUInt64 * settings.dmaCycles ∧
            transfer.total.toNat * settings.dmaCycles.toNat < Clock.horizon.toNat) ∧
      (block.clock.nextDeadline = none ↔ block.IsIdle) := by
  have orderly := timely.orderly
  have pending := orderly.pending_eq_held timely.isNative
  refine ⟨pending, fun _ _ _ => timely.timer_expiry, fun _ _ => timely.transfer_due, ?_⟩
  rw [Clock.nextDeadline_eq_none_iff, ← Multiset.coe_eq_zero, pending]
  exact held_eq_zero_iff_isIdle orderly.regular

/-- A timer that runs, a byte that is being sent and a transfer under way on one clock. -/
theorem pending_of_timely_busy : ∃ block : Block Ram,
    Timely { dmaCycles := 10 } true false block ∧ block.clock.pending.length = 3 ∧
      (block.clock.pending : Multiset Deadline) = block.held ∧ ¬block.IsIdle := by
  have created : Timely { dmaCycles := 10 } true false
      (initial { dmaCycles := 10 } {} Ram.empty) := .create (.fresh 0 0) (fun _ => rfl) rfl
  have counting := created.perform (.write .word 0x1404 20) trivial rfl
  have running := counting.perform (.write .word 0x1400 3) trivial rfl
  have enabled := running.perform (.write .word 0x1800 0x100) trivial rfl
  have sending := enabled.perform (.write .word 0x180c 0x41) trivial rfl
  have busy := sending.perform (.startTransfer 0 0 32 4 0) trivial rfl
  obtain ⟨pending, _, _, idle⟩ := pending_of_timely busy
  exact ⟨_, busy, rfl, pending, fun none => nomatch idle.2 none⟩

/-- A transfer that was saved after running for longer than it takes in the block that takes it
over leaves its deadline behind: a poll ends the transfer, and the clock of the idle block still
waits. -/
theorem pending_unlike_outrun : ∃ slow fast between block : Block Ram,
    Timely { dmaCycles := 10 } true false slow ∧ Timely { dmaCycles := 1 } true false fast ∧
      (fast.perform (.restore slow.snapshot)).outcome = .ok (.accepted (.ok ()), between) ∧
      (between.perform .poll).outcome = .ok (.done, block) ∧
      block.IsIdle ∧ block.clock.nextDeadline = some 0 ∧
      (block.clock.pending : Multiset Deadline) ≠ block.held := by
  have created : Timely { dmaCycles := 10 } true false
      (initial { dmaCycles := 10 } {} Ram.empty) := .create (.fresh 0 0) (fun _ => rfl) rfl
  have started := created.perform (.startTransfer 0 0 32 4 0) trivial rfl
  have slow := started.perform (.tick 20) rfl rfl
  have fast : Timely { dmaCycles := 1 } true false
      (initial { dmaCycles := 1 } {} Ram.empty) := .create (.fresh 0 0) (fun _ => rfl) rfl
  refine ⟨_, _, _, _, slow, fast, rfl, rfl, ⟨?_, ?_, ?_⟩, rfl, ?_⟩
  · decide
  · decide
  · decide
  · intro same
    have waits := congrArg Multiset.card same
    exact absurd waits (by decide)

end Block

end SocPeripherals
