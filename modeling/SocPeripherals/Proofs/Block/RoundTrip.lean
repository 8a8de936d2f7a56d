import SocPeripherals.Bus.Ram
import SocPeripherals.Proofs.Block.Restored

/-!
# What a round trip keeps

A fresh block that takes over what another has saved saves the same again, but for what the
stopped timers had latched in their last periods.
-/

namespace SocPeripherals

/-- What is saved of the timer after it was restored in a fresh one. -/
def Timer.Snapshot.relatched (saved : Snapshot) : Snapshot :=
  if saved.running then saved else { saved with reload := 0, stepCycles := 1 }

/-- What is saved of the block after it was restored in a fresh one. -/
def Block.Snapshot.relatched (saved : Snapshot) : Snapshot :=
  { saved with timers := saved.timers.map Timer.Snapshot.relatched }

variable {lockstep : Clock.Lockstep} {clock other : Clock}

namespace Timer

variable {timer twin : Timer}

/-- A latch as at power-on. -/
abbrev Unlatched (_ latch : Latch) : Prop := latch = {}

theorem snapshot_relatched (alike : Alike lockstep Unlatched timer twin)
    (clocks : lockstep.clocks clock other) :
    twin.snapshot other = (timer.snapshot clock).relatched := by
  cases alike with
  | stopped index source bank unused =>
      cases unused
      rfl
  | running index source bank latch start deadlines =>
      unfold snapshot
      dsimp only
      rw [Clock.Lockstep.elapsed_eq clocks, Clock.Lockstep.remaining_eq clocks deadlines]
      rfl

/-- A round trip keeps a timer that runs, or that has never run. -/
theorem relatched_eq_iff (timer : Timer) (clock : Clock) :
    (timer.snapshot clock).relatched = timer.snapshot clock ↔
      (timer.isRunning = false → timer.latch = {}) := by
  obtain ⟨index, source, bank, ⟨reload, stepCycles, present⟩, phase⟩ := timer
  cases phase with
  | running start expiry => exact ⟨fun _ stopped => Bool.noConfusion stopped, fun _ => rfl⟩
  | stopped =>
      constructor
      · intro same _
        have reloads : (0 : UInt16) = reload := congrArg Snapshot.reload same
        have steps : (1 : UInt64) = stepCycles := congrArg Snapshot.stepCycles same
        subst reloads steps
        rfl
      · intro unlatched
        cases unlatched rfl
        rfl

end Timer

namespace Block

variable {μ : Type} {settings : Settings} {alone : Bool} {block twin fresh : Block μ}

theorem snapshot_alike_relatched (alike : Alike lockstep Timer.Unlatched block twin) :
    twin.snapshot = block.snapshot.relatched := by
  have timers : twin.snapshot.timers = block.snapshot.timers.map Timer.Snapshot.relatched := by
    unfold snapshot
    rw [List.map_map]
    exact Parts.map_toList_congr fun index =>
      Timer.snapshot_relatched (alike.timers index) alike.clocks
  obtain ⟨misc, controller, _, uarts, dma⟩ := snapshot_alike alike
  unfold Snapshot.relatched
  rw [← timers, ← misc, ← controller, ← uarts, ← dma]

theorem snapshot_relatched_eq_iff (block : Block μ) :
    block.snapshot.relatched = block.snapshot ↔ ∀ index : Fin timerCount,
      block.timers[index].isRunning = false → block.timers[index].latch = {} := by
  have parts : block.snapshot.relatched = block.snapshot ↔
      block.snapshot.timers.map Timer.Snapshot.relatched = block.snapshot.timers.map id := by
    rw [List.map_id]
    refine ⟨congrArg Snapshot.timers, fun same => ?_⟩
    unfold Snapshot.relatched
    rw [same]
  rw [parts, List.map_inj_left]
  constructor
  · intro same index
    exact (Timer.relatched_eq_iff _ block.clock).1 (same _ (mem_saved.2 ⟨index, rfl⟩))
  · intro unlatched part listed
    obtain ⟨index, rfl⟩ := mem_saved.1 listed
    exact (Timer.relatched_eq_iff _ block.clock).2 (unlatched index)

/-- What is orderly is so over any memory. -/
theorem Orderly.withMemory {overdue : Bool} (orderly : Orderly settings alone overdue block)
    (memory : μ) : Orderly settings alone overdue { block with memory } :=
  { orderly with sound := { orderly.sound with } }

/-- Restoring in a fresh block succeeds, and saving again at once gives back all that was saved but
for the latches of the stopped timers. So the same is saved again exactly if these were never
used. -/
theorem snapshot_restore [Bus μ] (reached : Timely settings alone false block) {clock : Clock}
    {memory : μ} (created : create settings clock memory = .ok fresh) :
    ∃ after, (fresh.restore block.snapshot).outcome = .ok (.ok (), after) ∧
      after.snapshot = block.snapshot.relatched ∧
      (after.snapshot = block.snapshot ↔ ∀ index : Fin timerCount,
        block.timers[index].isRunning = false → block.timers[index].latch = {}) := by
  obtain ⟨-, rfl⟩ := of_create created
  have unused : ∀ index : Fin timerCount, ∀ latch,
      Timer.Unlatched latch (initial settings clock memory).timers[index].latch := by
    intro index _
    rw [timer_initial]
  obtain ⟨⟨_, after⟩, done, rfl, alike⟩ := restore_snapshot (reached.orderly.withMemory memory)
    (sound_initial settings clock memory) rfl unused
  have saved : after.snapshot = { block with memory }.snapshot.relatched :=
    snapshot_alike_relatched alike
  change after.snapshot = block.snapshot.relatched at saved
  exact ⟨after, done, saved, saved ▸ snapshot_relatched_eq_iff block⟩

/-- A timer that has come to its end and stopped loses what it had latched. -/
theorem snapshot_restore_stopped : ∃ block fresh after : Block Ram, Timely {} true false block ∧
    create {} {} Ram.empty = .ok fresh ∧
      (fresh.restore block.snapshot).outcome = .ok (.ok (), after) ∧
      (block.snapshot.timers.map Timer.Snapshot.reload)[0]? = some 9 ∧
      (after.snapshot.timers.map Timer.Snapshot.reload)[0]? = some 0 := by
  have created : Timely {} true false (initial {} {} Ram.empty) :=
    .create (.fresh 0 0) (fun _ => rfl) rfl
  have counting := created.perform (.write .word 0x1404 9) trivial rfl
  have running := counting.perform (.write .word 0x1400 1) trivial rfl
  have stopped := running.perform (.tick 10) rfl rfl
  obtain ⟨after, done, saved, _⟩ := snapshot_restore stopped (rfl : create {} {} Ram.empty = .ok _)
  refine ⟨_, _, after, stopped, rfl, done, rfl, ?_⟩
  rw [saved]
  rfl

end Block

end SocPeripherals
