import SocPeripherals.Proofs.Dma.Pieces
import SocPeripherals.Proofs.Late.Poll

/-!
# Who asks for an interrupt

A source becomes pending when its interrupt is asked for, and every part of a block asks for
interrupts of its own only.
-/

namespace SocPeripherals

namespace Interrupt

theorem dmaSource_lt : ∀ index : Fin Dma.channelCount, dmaSources[index] < sourceCount := by decide

/-- The source is pending. -/
def Controller.IsPending (controller : Controller) (source : UInt8) : Prop :=
  controller.pending.toNat.testBit source.toNat = true

instance (controller : Controller) (source : UInt8) : Decidable (controller.IsPending source) :=
  inferInstanceAs (Decidable (_ = _))

end Interrupt

/-- A source is among those that are posted if its interrupt is asked for. -/
theorem Signal.testBit_posted {signals : List Signal} {source : UInt8}
    (within : source < Interrupt.sourceCount) :
    (posted signals).toNat.testBit source.toNat = true ↔
      source ∈ signals.filterMap Signal.interrupt? := by
  induction signals with
  | nil => simp [posted]
  | cons signal rest ih =>
      cases signal with
      | interrupt other =>
          rw [posted, UInt32.toNat_or, Nat.testBit_or, Bool.or_eq_true,
            Interrupt.testBit_sourceBit within, ih]
          simp [Signal.interrupt?, eq_comm]
      | note remark => exact ih
      | transmit uart byte => exact ih
      | host call => exact ih

/-- Signals leave pending what was pending, and make pending what they ask for. -/
theorem Interrupt.Controller.Heard.isPending_iff {controller after : Interrupt.Controller}
    {signals : List Signal} {events : List Event} (heard : Heard controller signals after events)
    {source : UInt8} (within : source < Interrupt.sourceCount) :
    after.IsPending source ↔
      controller.IsPending source ∨ source ∈ signals.filterMap Signal.interrupt? := by
  unfold IsPending
  rw [heard.value, pending_raised, UInt32.toNat_or, Nat.testBit_or, Bool.or_eq_true,
    Signal.testBit_posted within]

/-- A timer asks for its own interrupt only. -/
theorem Timer.Passes.asks {clock : Clock} {timer after : Timer} {signals : List Signal}
    (passes : timer.Passes clock after (Signal.posted signals)) {source : UInt8}
    (within : source < Interrupt.sourceCount)
    (asked : source ∈ signals.filterMap Signal.interrupt?) :
    timer.source = source := by
  rw [← Signal.testBit_posted within] at asked
  generalize Signal.posted signals = posted at *
  cases passes with
  | waits => simp at asked
  | stops => exact (Interrupt.testBit_sourceBit within).1 asked
  | begins => exact (Interrupt.testBit_sourceBit within).1 asked

/-- A serial interface asks for its own interrupt only. -/
theorem Uart.poll_asks (uart : Uart) (clock : Clock) {source : UInt8}
    (asked : source ∈ (uart.poll clock).signals.filterMap Signal.interrupt?) :
    uart.source = source := by
  have received (uart : Uart) (asked : source ∈ uart.receiveRequest.filterMap Signal.interrupt?) :
      uart.source = source := by
    unfold receiveRequest at asked
    split at asked
    next => exact (List.mem_singleton.1 asked).symm
    next => contradiction
  have reported (byte : UInt8)
      (asked : source ∈ (uart.report byte).filterMap Signal.interrupt?) : uart.source = source := by
    unfold report at asked
    split at asked
    next => exact (List.mem_singleton.1 asked).symm
    next => contradiction
  have breaking (uart : Uart)
      (asked : source ∈ (uart.pollBreak clock).signals.filterMap Signal.interrupt?) :
      uart.source = source := by
    have breaks := uart.pollBreak_breaks clock
    generalize uart.pollBreak clock = polled at breaks asked
    cases breaks with
    | waits => contradiction
    | breaks => exact received uart asked
  unfold poll at asked
  rw [Traced.signals_bind, List.filterMap_append, List.mem_append] at asked
  have sends := uart.pollShifter_sends clock
  generalize uart.pollShifter clock = polled at sends asked
  cases sends with
  | waits => exact asked.elim (fun none => by contradiction) (breaking uart)
  | @sends byte => exact asked.elim (reported byte) (breaking _)

namespace Block

variable {μ : Type} [Bus μ] {block after : Block μ} {settings : Settings}
  {index : Fin Dma.channelCount}

/-- In a poll only the channel itself asks for its interrupt. -/
theorem Handled.asks_iff {clock : Clock} {asked : Fin timerCount → List Signal}
    {events : List Event} (handled : Handled clock asked block after events)
    (sound : Sound settings block) :
    Interrupt.dmaSources[index] ∈ (block.signals clock asked).filterMap Signal.interrupt? ↔
      Interrupt.dmaSources[index]
        ∈ (block.dma.poll clock block.memory).signals.filterMap Signal.interrupt? := by
  have timerApart : ∀ (timer : Fin timerCount) (index : Fin Dma.channelCount),
      Interrupt.timerSources[timer] ≠ Interrupt.dmaSources[index] := by decide
  have uartApart : ∀ (uart : Fin uartCount) (index : Fin Dma.channelCount),
      Interrupt.uartSources[uart] ≠ Interrupt.dmaSources[index] := by decide
  unfold signals
  rw [List.filterMap_append, List.filterMap_append, List.mem_append, List.mem_append,
    List.filterMap_flatMap, List.filterMap_flatMap]
  refine ⟨fun asks => asks.elim (fun asks => ?_) id, .inr⟩
  rcases asks with asks | asks
  · obtain ⟨timer, _, asks⟩ := List.mem_flatMap.1 asks
    have same := (handled.timers timer).1.asks (Interrupt.dmaSource_lt index) asks
    exact absurd ((sound.timers timer).source.symm.trans same) (timerApart timer index)
  · obtain ⟨uart, _, asks⟩ := List.mem_flatMap.1 asks
    have same := block.uarts[uart].poll_asks clock asks
    exact absurd ((sound.uarts uart).source.symm.trans same) (uartApart uart index)

end Block

end SocPeripherals
