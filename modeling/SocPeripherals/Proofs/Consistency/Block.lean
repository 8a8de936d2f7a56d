import SocPeripherals.Bus.Ram
import SocPeripherals.Proofs.Consistency.Devices
import SocPeripherals.Proofs.Restore.Block

/-!
# Blocks whose registers and state agree

Every command leaves the registers of a block in agreement with what its parts are doing, if it
restores nothing that was saved otherwise. Restoring checks the shape of what was saved and stores
it as it is: each part has the outline that was saved of it, and the block is in agreement just if
what was saved is.
-/

namespace SocPeripherals

namespace Block

variable {μ : Type} {settings : Settings} {block after : Block μ} {saved : Snapshot}

/-- The registers of all parts agree with what the parts are doing. -/
structure IsConsistent (block : Block μ) : Prop where
  controller : block.controller.IsConsistent
  timers : ∀ index : Fin timerCount, block.timers[index].IsConsistent
  uarts : ∀ index : Fin uartCount, block.uarts[index].IsConsistent
  channels : ∀ index : Fin Dma.channelCount, block.dma.channels[index].IsConsistent

/-- The registers of all parts were saved in agreement with what the parts were doing. -/
structure Snapshot.IsConsistent (saved : Snapshot) : Prop where
  controller : Interrupt.IsLatched saved.controller.stored
  timers : ∀ part ∈ saved.timers, part.outline.IsConsistent
  uarts : ∀ part ∈ saved.uarts, part.outline.IsConsistent
  dma : ∀ part ∈ saved.dma, part.outline.IsConsistent

instance (saved : Snapshot) : Decidable saved.IsConsistent :=
  decidable_of_iff (Interrupt.IsLatched saved.controller.stored ∧
      (∀ part ∈ saved.timers, part.outline.IsConsistent) ∧
      (∀ part ∈ saved.uarts, part.outline.IsConsistent) ∧
      ∀ part ∈ saved.dma, part.outline.IsConsistent)
    ⟨fun ⟨controller, timers, uarts, dma⟩ => ⟨controller, timers, uarts, dma⟩,
      fun consistent =>
        ⟨consistent.controller, consistent.timers, consistent.uarts, consistent.dma⟩⟩

/-! ## What commands keep -/

theorem isConsistent_initial (settings : Settings) (clock : Clock) (memory : μ) :
    (initial settings clock memory).IsConsistent := by
  constructor
  · have latched : Interrupt.IsLatched ({} : Interrupt.Controller).stored := by decide
    exact latched
  · intro index
    rw [timer_initial]
    have idle : Timer.Outline.IsConsistent {
        control := (Bank.initial Timer.registers).get Timer.controlIndex
        running := false } := by
      decide
    exact idle
  · intro index
    rw [uart_initial]
    apply Uart.isConsistent_of_idle rfl rfl
    have clear : (Bank.initial Uart.registers).get Uart.statusIndex = 0 := by decide
    simp [clear]
  · intro index
    rw [channel_initial, Dma.Channel.isConsistent_iff_of_idle rfl]
    have clear : (Bank.initial Dma.registers).get Dma.controlIndex = 0 := by decide
    simp [Dma.Channel.Shows, clear]

/-- An act of one part keeps the agreement. -/
theorem Act.isConsistent [Bus μ] (act : Act Snapshot.IsConsistent block after)
    (built : Built settings block) (consistent : block.IsConsistent) : after.IsConsistent := by
  cases act with
  | misc resets fits => exact { consistent with }
  | controller does =>
      have controller := does.isConsistent (by
        rintro _ ⟨saved, known, rfl⟩
        exact known.controller) built.controller consistent.controller
      exact { consistent with controller }
  | timer index does =>
      have acts := does.isConsistent (by
        rintro part ⟨saved, known, listed⟩
        exact known.timers part listed) (built.timers index)
      have timers (other : Fin timerCount) :=
        evolves_set (fun timer after : Timer => timer.IsConsistent → after.IsConsistent)
          (fun _ => id) acts other (consistent.timers other)
      exact { consistent with timers }
  | uart index does =>
      have acts := does.isConsistent (by
        rintro part ⟨saved, known, listed⟩
        exact known.uarts part listed) (built.uarts index).bank
      have uarts (other : Fin uartCount) :=
        evolves_set (fun uart after : Uart => uart.IsConsistent → after.IsConsistent)
          (fun _ => id) acts other (consistent.uarts other)
      exact { consistent with uarts }
  | channel index does =>
      have acts := does.isConsistent (by
        rintro part ⟨saved, known, listed⟩
        exact known.dma part listed) (built.channels index).bank
      have channels (other : Fin Dma.channelCount) :=
        evolves_set (fun channel after : Dma.Channel => channel.IsConsistent → after.IsConsistent)
          (fun _ => id) acts other (consistent.channels other)
      exact { consistent with channels }

/-- Commands that restore only what was saved in agreement keep it. -/
theorem consistent_lasting [Bus μ] (settings : Settings) :
    Lasting Snapshot.IsConsistent fun block : Block μ =>
      Built settings block ∧ block.IsConsistent where
  act := by
    rintro block after ⟨built, consistent⟩ act
    exact ⟨(built_lasting settings _).act built act, act.isConsistent built consistent⟩
  moved := by
    rintro block after cycles reached ⟨built, consistent⟩ done
    refine ⟨(built_lasting settings Snapshot.IsConsistent).moved built done, ?_⟩
    obtain ⟨clock, -, rfl⟩ := of_increment done
    exact { consistent with }

/-! ## What restoring brings back -/

/-- Every part has the outline that was saved of it. -/
structure Reproduces (saved : Snapshot) (block : Block μ) : Prop where
  controller : block.controller.stored = saved.controller.stored
  timers : ∀ index : Fin timerCount, ∀ part ∈ saved.timers[index.val]?,
    block.timers[index].outline = part.outline
  uarts : ∀ index : Fin uartCount, ∀ part ∈ saved.uarts[index.val]?,
    block.uarts[index].outline = part.outline
  channels : ∀ index : Fin Dma.channelCount, ∀ part ∈ saved.dma[index.val]?,
    block.dma.channels[index].outline = part.outline

theorem Reproduces.ofHolds (holds : ∀ part, block.Holds saved part) : Reproduces saved block where
  controller := Interrupt.Controller.Holds.stored_eq (holds .controller)
  timers index part listed := Timer.Holds.outline_eq (holds (.timer index) part listed)
  uarts index part listed := Uart.Holds.outline_eq (holds (.uart index) part listed)
  channels index part listed := Dma.Channel.Holds.outline_eq (holds .dma index part listed)

/-- What holds of all parts, by number, and of all that was saved of them. -/
theorem forall_index_iff {α β γ : Type} {count : Nat} {held : Fin count → α} {parts : List β}
    {outline : α → γ} {own : β → γ} (all : parts.length = count)
    (same : ∀ index : Fin count, ∀ part ∈ parts[index.val]?, outline (held index) = own part)
    (holds : γ → Prop) :
    (∀ index, holds (outline (held index))) ↔ ∀ part ∈ parts, holds (own part) := by
  constructor
  · intro known part listed
    obtain ⟨position, found⟩ := List.mem_iff_getElem?.1 listed
    have within : position < count := by
      rw [← all]
      exact (List.getElem?_eq_some_iff.1 found).1
    rw [← same ⟨position, within⟩ part found]
    exact known _
  · intro known index
    have within : index.val < parts.length := by
      rw [all]
      exact index.isLt
    rw [same index _ (List.getElem?_eq_getElem within)]
    exact known _ (List.getElem_mem within)

/-- The block is in agreement just if what was saved of it is. -/
theorem Reproduces.isConsistent_iff (reproduces : Reproduces saved block)
    (shaped : saved.mismatch? = none) : block.IsConsistent ↔ saved.IsConsistent := by
  obtain ⟨-, timerLength, uartLength, dmaLength⟩ := Snapshot.lengths shaped
  have timers := forall_index_iff timerLength reproduces.timers Timer.Outline.IsConsistent
  have uarts := forall_index_iff uartLength reproduces.uarts Uart.Outline.IsConsistent
  have channels := forall_index_iff dmaLength reproduces.channels Dma.Outline.IsConsistent
  constructor
  · intro consistent
    constructor
    · rw [← reproduces.controller]
      exact consistent.controller
    · exact timers.1 consistent.timers
    · exact uarts.1 consistent.uarts
    · exact channels.1 consistent.channels
  · intro consistent
    constructor
    · rw [Interrupt.Controller.IsConsistent, reproduces.controller]
      exact consistent.controller
    · exact timers.2 consistent.timers
    · exact uarts.2 consistent.uarts
    · exact channels.2 consistent.dma

/-- A saved block that is accepted has the shape of one. -/
theorem Built.shaped_of_accepted [Bus μ] (built : Built settings block)
    (accepted : (block.restore saved).outcome = .ok (.ok (), after)) :
    saved.mismatch? = none := by
  have answer := (built.answers saved).answer
  rw [accepted] at answer
  have clear : saved.obstacle? settings = none := Obstacle.eq_of_answer answer.symm
  unfold Snapshot.obstacle? at clear
  split at clear
  next => contradiction
  next shaped => exact shaped

theorem Built.restore_reproduces [Bus μ] (built : Built settings block)
    (accepted : (block.restore saved).outcome = .ok (.ok (), after)) : Reproduces saved after :=
  .ofHolds ((built.answers saved).holds after accepted)

/-- What is saved of the parts, by number. -/
theorem mem_getElem?_map_toList {α β : Type} {count : Nat} {parts : Vector α count} {save : α → β}
    {index : Fin count} {part : β} (listed : part ∈ (parts.toList.map save)[index.val]?) :
    part = save parts[index] := by
  rw [Parts.getElem_fin]
  simpa [eq_comm] using listed

/-- A block holds what it saves. -/
theorem Built.holds_snapshot (built : Built settings block) (part : Part) :
    block.Holds block.snapshot part := by
  cases part with
  | misc => exact Bank.stores_toList built.misc
  | controller => exact Interrupt.Controller.holds_snapshot built.controller.fits
  | timer index =>
      intro part listed
      obtain rfl := mem_getElem?_map_toList listed
      exact Timer.holds_snapshot (built.timers index).fits block.clock
  | uart index =>
      intro part listed
      obtain rfl := mem_getElem?_map_toList listed
      exact Uart.holds_snapshot (built.uarts index).bank.fits block.clock
  | dma =>
      intro index part listed
      obtain rfl := mem_getElem?_map_toList listed
      exact Dma.Channel.holds_snapshot (built.channels index).bank.fits block.clock

/-- Whatever has been done to a block, a saved block that it accepts leaves each of its parts with
the outline that was saved, so that the block is in agreement just if the saved one is. If
nothing has been restored that was saved otherwise, the block is in agreement, and so is what it
saves. -/
theorem restore_consistent_iff [Bus μ] (settings : Settings) (clock : Clock) (memory : μ)
    {commands : List Command} {responses : List Response}
    (done : ((initial settings clock memory).performAll commands).outcome
      = .ok (responses, block)) :
    (∀ saved after, (block.restore saved).outcome = .ok (.ok (), after) →
      Reproduces saved after ∧ (after.IsConsistent ↔ saved.IsConsistent)) ∧
    ((∀ command ∈ commands, command.Respects Snapshot.IsConsistent) →
      block.IsConsistent ∧ block.snapshot.IsConsistent) := by
  have built := built_performAll done
  constructor
  · intro saved after accepted
    have reproduces := built.restore_reproduces accepted
    exact ⟨reproduces, reproduces.isConsistent_iff (built.shaped_of_accepted accepted)⟩
  · intro respects
    have made : Built settings (initial settings clock memory) ∧
        (initial settings clock memory).IsConsistent :=
      ⟨built_initial settings clock memory, isConsistent_initial settings clock memory⟩
    have anyClock {block : Block μ} (clock : Clock)
        (kept : Built settings block ∧ block.IsConsistent) :
        Built settings { block with clock } ∧ IsConsistent { block with clock } :=
      ⟨{ kept.1 with }, { kept.2 with }⟩
    have consistent := ((consistent_lasting settings).performAll anyClock respects made _ done).2
    have saves := Reproduces.ofHolds built.holds_snapshot
    exact ⟨consistent, (saves.isConsistent_iff (mismatch?_snapshot block)).1 consistent⟩

/-- A block whose first timer runs is in agreement, and takes over the block at power-on so. -/
theorem restore_consistent_iff_running : ∃ block after : Block Ram,
    ((initial {} {} Ram.empty).performAll [.write .word 0x1400 1]).outcome.map Prod.snd
        = .ok block ∧
      block.IsConsistent ∧
      (block.restore (initial {} {} Ram.empty).snapshot).outcome = .ok (.ok (), after) ∧
      after.IsConsistent := by
  have reached : ∃ responses block, ((initial {} {} Ram.empty).performAll
      [.write .word 0x1400 1]).outcome = .ok (responses, block) := ⟨_, _, rfl⟩
  obtain ⟨responses, block, done⟩ := reached
  obtain ⟨reproduces, keeps⟩ := restore_consistent_iff {} {} Ram.empty done
  have restored : ∃ after, (block.restore (initial {} {} Ram.empty).snapshot).outcome
      = .ok (.ok (), after) := by
    cases done
    exact ⟨_, rfl⟩
  obtain ⟨after, accepted⟩ := restored
  refine ⟨block, after, by rw [done]; rfl, ?_, accepted, ?_⟩
  · exact (keeps (by simp [Command.Respects])).1
  · exact (reproduces _ after accepted).2.2 (by decide)

/-- A saved block of which each part was saved otherwise than its registers show: bits beyond those
that keep what was written in the vector register, a stopped timer with its enable bit and a
running one without, a disabled interface that sends a byte and times a break of a high line with
unknown status bits, and a start bit without a transfer and a transfer without a start bit that has
moved more than all its units. -/
def Snapshot.torn : Snapshot :=
  let fresh := (initial { dmaCycles := 4 } {} ()).snapshot
  { fresh with
    controller := { regs := [0xffffffff, 0, 0], line := false }
    timers :=
      { regs := [1, 0], running := false, reload := 0, stepCycles := 1, elapsed := 0
        remaining := none } ::
      { regs := [0, 0], running := true, reload := 0, stepCycles := 1, elapsed := 0
        remaining := some 10 } :: fresh.timers.drop 2
    uarts :=
      { regs := [0, 0, 0xffffffff, 0, 0], received := [], sending := some (65, 10), lineLow := false
        breakRemaining := some 10 } :: fresh.uarts.drop 1
    dma :=
      [{ regs := [0, 0, 0, 0x400], transfer := none },
       { regs := [0, 0, 5, 0], transfer := some { total := 1, moved := 2, elapsed := 0 } }] }

/-- It is accepted, and leaves none of its parts in agreement. -/
theorem restore_inconsistent : ∃ after : Block Ram,
    ((initial { dmaCycles := 4 } {} Ram.empty).restore Snapshot.torn).outcome
        = .ok (.ok (), after) ∧
      ¬ after.controller.IsConsistent ∧
      ¬ after.timers[(0 : Fin timerCount)].IsConsistent ∧
      ¬ after.timers[(1 : Fin timerCount)].IsConsistent ∧
      ¬ after.uarts[(0 : Fin uartCount)].IsConsistent ∧
      ¬ after.dma.channels[(0 : Fin Dma.channelCount)].IsConsistent ∧
      ¬ after.dma.channels[(1 : Fin Dma.channelCount)].IsConsistent := by
  have restored : ∃ after : Block Ram,
      ((initial { dmaCycles := 4 } {} Ram.empty).restore Snapshot.torn).outcome
        = .ok (.ok (), after) := ⟨_, rfl⟩
  obtain ⟨after, accepted⟩ := restored
  have built := built_initial { dmaCycles := 4 } {} Ram.empty
  have reproduces := built.restore_reproduces accepted
  refine ⟨after, accepted, ?_, ?_, ?_, ?_, ?_, ?_⟩
  · rw [Interrupt.Controller.IsConsistent, reproduces.controller]
    decide
  · rw [Timer.IsConsistent, reproduces.timers 0 _ rfl]
    decide
  · rw [Timer.IsConsistent, reproduces.timers 1 _ rfl]
    decide
  · rw [Uart.IsConsistent, reproduces.uarts 0 _ rfl]
    decide
  · rw [Dma.Channel.IsConsistent, reproduces.channels 0 _ rfl]
    decide
  · rw [Dma.Channel.IsConsistent, reproduces.channels 1 _ rfl]
    decide

end Block

end SocPeripherals
