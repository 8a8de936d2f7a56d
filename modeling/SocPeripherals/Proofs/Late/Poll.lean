import SocPeripherals.Proofs.Late.Dma
import SocPeripherals.Proofs.Late.Punctual
import SocPeripherals.Proofs.Late.Timer
import SocPeripherals.Proofs.Late.Uart

/-!
# What a poll makes of a block

Each part passes on its own, whatever the others do, and signals. What is heard of the signals of
all parts comes down to the interrupts that are asked for and the bytes that are sent.
-/

namespace SocPeripherals

open Interrupt.Controller (Heard hearAll_heard)

namespace Block

variable {μ α : Type} {block after : Block μ} {settings : Settings}

theorem relay_gives {controller : Interrupt.Controller} (driven : controller.IsDriven)
    {run : Run Signal α} {holds : α → List Signal → Prop} (gives : run.Gives holds) :
    (controller.relay run).Gives fun (answer, heard) events => ∃ signals,
      holds answer signals ∧ Heard controller signals heard events := by
  obtain ⟨answer, done, known⟩ := gives
  refine ⟨(answer, (controller.hearAll run.signals).value), ?_, run.signals, known,
    hearAll_heard driven run.signals⟩
  unfold Interrupt.Controller.relay
  rw [done]
  rfl

/-- What a timer does is heard. -/
theorem onTimer_gives (driven : block.controller.IsDriven) (index : Fin timerCount)
    {action : Timer → Clock → Run Signal (α × Timer × Clock)}
    (holds : Timer → Clock → List Signal → Prop)
    (gives : (action block.timers[index] block.clock).Gives fun (_, timer, clock) signals =>
      holds timer clock signals) :
    (block.onTimer index action).Gives fun (_, after) events =>
      ∃ timer clock controller signals, holds timer clock signals ∧
        Heard block.controller signals controller events ∧
        after = { block with
          clock, controller, timers := block.timers.set index timer index.isLt } := by
  unfold onTimer
  refine .conclude (relay_gives driven gives) ?_
  rintro ⟨⟨answer, timer, clock⟩, controller⟩ events ⟨signals, known, heard⟩
  exact ⟨_, rfl, timer, clock, controller, signals, known, heard, rfl⟩

/-- What a serial interface does is heard. -/
theorem onUart_gives (driven : block.controller.IsDriven) (index : Fin uartCount)
    {action : Uart → Clock → Run Signal (α × Uart × Clock)}
    (holds : Uart → Clock → List Signal → Prop)
    (gives : (action block.uarts[index] block.clock).Gives fun (_, uart, clock) signals =>
      holds uart clock signals) :
    (block.onUart index action).Gives fun (_, after) events =>
      ∃ uart clock controller signals, holds uart clock signals ∧
        Heard block.controller signals controller events ∧
        after = { block with
          clock, controller, uarts := block.uarts.set index uart index.isLt } := by
  unfold onUart
  refine .conclude (relay_gives driven gives) ?_
  rintro ⟨⟨answer, uart, clock⟩, controller⟩ events ⟨signals, known, heard⟩
  exact ⟨_, rfl, uart, clock, controller, signals, known, heard, rfl⟩

/-- What the engine does is heard. -/
theorem onDma_gives (driven : block.controller.IsDriven)
    {action : Dma.Attached μ → Clock → Run Signal (α × Dma.Attached μ × Clock)}
    (holds : Dma → μ → Clock → List Signal → Prop)
    (gives : (action ⟨block.dma, block.memory⟩ block.clock).Gives fun (_, attached, clock) signals =>
      holds attached.dma attached.memory clock signals) :
    (block.onDma action).Gives fun (_, after) events =>
      ∃ dma memory clock controller signals, holds dma memory clock signals ∧
        Heard block.controller signals controller events ∧
        after = { block with clock, controller, dma, memory } := by
  unfold onDma
  refine .conclude (relay_gives driven gives) ?_
  rintro ⟨⟨answer, attached, clock⟩, controller⟩ events ⟨signals, known, heard⟩
  exact ⟨_, rfl, attached.dma, attached.memory, clock, controller, signals, known, heard, rfl⟩

/-- A timer passes and signals. -/
def TimerPasses (clock : Clock) (timer after : Timer) (signals : List Signal) : Prop :=
  Timer.Passes clock timer after (Signal.posted signals) ∧
    ∀ port, signals.filterMap (Signal.sent? port) = []

/-- The deadline of the timer's period is where it should be. -/
def TimerRegular (timer : Timer) : Prop :=
  ∀ start expiry, timer.phase = .running start expiry →
    Timer.Span.Regular ⟨timer.latch, start, expiry⟩

theorem pollTimer_gives (driven : block.controller.IsDriven) (index : Fin timerCount)
    (regular : TimerRegular block.timers[index]) :
    (block.pollTimer index).Gives fun after events => ∃ timer clock controller signals,
      (TimerPasses block.clock block.timers[index] timer signals ∧ clock.now = block.clock.now) ∧
        Heard block.controller signals controller events ∧
        after = { block with
          clock, controller, timers := block.timers.set index timer index.isLt } := by
  unfold pollTimer
  refine .conclude (onTimer_gives driven index (fun timer clock signals =>
    TimerPasses block.clock block.timers[index] timer signals ∧ clock.now = block.clock.now) ?_) ?_
  · refine .conclude (block.timers[index].poll_gives block.clock regular) ?_
    rintro ⟨timer, clock⟩ signals ⟨passes, now, sent⟩
    exact ⟨_, rfl, ⟨passes, sent⟩, now⟩
  · rintro ⟨_, after⟩ events known
    exact ⟨_, rfl, known⟩

theorem pollUart_gives (driven : block.controller.IsDriven) (index : Fin uartCount) :
    (block.pollUart index).Gives fun after events => ∃ controller,
      Heard block.controller (block.uarts[index].poll block.clock).signals controller events ∧
        after = { block with
          controller
          uarts := block.uarts.set index (block.uarts[index].poll block.clock).value
            index.isLt } := by
  unfold pollUart
  refine .conclude (onUart_gives driven index (fun uart clock signals =>
    uart = (block.uarts[index].poll block.clock).value ∧ clock = block.clock ∧
      signals = (block.uarts[index].poll block.clock).signals) ?_) ?_
  · exact ⟨_, rfl, rfl, rfl, List.append_nil _⟩
  · rintro ⟨_, after⟩ events ⟨_, _, controller, _, ⟨rfl, rfl, rfl⟩, heard, rfl⟩
    exact ⟨_, rfl, controller, heard, rfl⟩

/-- The timers of a list pass one by one, and the others stay as they are. -/
theorem pollTimers_gives (driven : block.controller.IsDriven) {parts : List (Fin timerCount)}
    (different : parts.Nodup) (regular : ∀ index ∈ parts, TimerRegular block.timers[index]) :
    (parts.foldlM pollTimer block).Gives fun after events => ∃ timers clock controller signals,
      (∀ index ∈ parts,
        TimerPasses block.clock block.timers[index] timers[index] (signals index)) ∧
      (∀ index, index ∉ parts → timers[index] = block.timers[index]) ∧
      clock.now = block.clock.now ∧
      Heard block.controller (parts.flatMap signals) controller events ∧
      after = { block with clock, controller, timers } := by
  induction parts generalizing block with
  | nil =>
      refine .pure ⟨block.timers, block.clock, block.controller, fun _ => [], ?_, ?_, rfl, ?_, rfl⟩
      · exact fun index listed => absurd listed List.not_mem_nil
      · exact fun _ _ => rfl
      · exact .refl driven
  | cons part rest ih =>
      obtain ⟨apart, different⟩ := List.nodup_cons.1 different
      rw [List.foldlM_cons]
      refine .bind (pollTimer_gives driven part (regular part List.mem_cons_self)) ?_
      rintro _ events ⟨timer, clock, controller, posted, ⟨passes, now⟩, heard, rfl⟩
      have others (index : Fin timerCount) (other : index ≠ part) :
          (block.timers.set part timer part.isLt)[index] = block.timers[index] :=
        Parts.getElem_set_of_ne _ _ other.symm
      have distinct (index : Fin timerCount) (listed : index ∈ rest) : index ≠ part :=
        fun same => apart (same ▸ listed)
      refine (ih heard.isDriven different fun index listed => ?_).imp ?_
      · dsimp only
        rw [others index (distinct index listed)]
        exact regular index (List.mem_cons_of_mem _ listed)
      rintro _ further ⟨timers, later, last, signals, passed, stayed, nowLater, heardRest, rfl⟩
      refine ⟨timers, later, last, Function.update signals part posted, ?_, ?_,
        nowLater.trans now, ?_, rfl⟩
      · rintro index (_ | ⟨_, listed⟩)
        · rw [stayed part apart, Function.update_self]
          simpa using passes
        · have passed := passed index listed
          dsimp only at passed
          rw [others index (distinct index listed)] at passed
          rw [Function.update_of_ne (distinct index listed)]
          exact ⟨passed.1.congr now.symm, passed.2⟩
      · intro index unlisted
        obtain ⟨other, unlisted⟩ := not_or.1 (mt List.mem_cons.2 unlisted)
        rw [stayed index unlisted]
        exact others index other
      · have same : rest.flatMap (Function.update signals part posted) = rest.flatMap signals :=
          List.flatMap_congr fun index listed => Function.update_of_ne (distinct index listed) _ _
        rw [List.flatMap_cons, same, Function.update_self]
        exact heard.trans driven heardRest

/-- The serial interfaces of a list are polled one by one, and the others stay as they are. -/
theorem pollUarts_gives (driven : block.controller.IsDriven) {parts : List (Fin uartCount)}
    (different : parts.Nodup) :
    (parts.foldlM pollUart block).Gives fun after events => ∃ uarts controller,
      (∀ index ∈ parts, uarts[index] = (block.uarts[index].poll block.clock).value) ∧
      (∀ index, index ∉ parts → uarts[index] = block.uarts[index]) ∧
      Heard block.controller
        (parts.flatMap fun index => (block.uarts[index].poll block.clock).signals)
        controller events ∧
      after = { block with controller, uarts } := by
  induction parts generalizing block with
  | nil =>
      refine .pure ⟨block.uarts, block.controller, ?_, fun _ _ => rfl, .refl driven, rfl⟩
      exact fun index listed => absurd listed List.not_mem_nil
  | cons part rest ih =>
      obtain ⟨apart, different⟩ := List.nodup_cons.1 different
      rw [List.foldlM_cons]
      refine .bind (pollUart_gives driven part) ?_
      rintro _ events ⟨controller, heard, rfl⟩
      have others (index : Fin uartCount) (other : index ≠ part) :
          (block.uarts.set part (block.uarts[part].poll block.clock).value part.isLt)[index]
            = block.uarts[index] :=
        Parts.getElem_set_of_ne _ _ other.symm
      have distinct (index : Fin uartCount) (listed : index ∈ rest) : index ≠ part :=
        fun same => apart (same ▸ listed)
      refine (ih heard.isDriven different).imp ?_
      rintro _ further ⟨uarts, last, passed, stayed, heardRest, rfl⟩
      refine ⟨uarts, last, ?_, ?_, ?_, rfl⟩
      · rintro index (_ | ⟨_, listed⟩)
        · rw [stayed part apart]
          simp
        · have passed := passed index listed
          dsimp only at passed
          rw [others index (distinct index listed)] at passed
          exact passed
      · intro index unlisted
        obtain ⟨other, unlisted⟩ := not_or.1 (mt List.mem_cons.2 unlisted)
        rw [stayed index unlisted]
        exact others index other
      · have same : rest.flatMap (fun index =>
            ((block.uarts.set part (block.uarts[part].poll block.clock).value part.isLt)[index].poll
              block.clock).signals)
            = rest.flatMap fun index => (block.uarts[index].poll block.clock).signals :=
          List.flatMap_congr fun index listed => by rw [others index (distinct index listed)]
        rw [List.flatMap_cons, ← same]
        exact heard.trans driven heardRest

variable [Bus μ]

theorem pollDma_gives (driven : block.controller.IsDriven) :
    (block.onDma Device.poll).Gives fun (_, after) events => ∃ clock controller,
      clock.now = block.clock.now ∧
      Heard block.controller (block.dma.poll block.clock block.memory).signals controller events ∧
      after = { block with
        clock, controller
        dma := (block.dma.poll block.clock block.memory).value.1
        memory := (block.dma.poll block.clock block.memory).value.2.2 } := by
  refine (onDma_gives driven (fun dma memory clock signals =>
    dma = (block.dma.poll block.clock block.memory).value.1 ∧
      memory = (block.dma.poll block.clock block.memory).value.2.2 ∧
      clock = (block.dma.poll block.clock block.memory).value.2.1 ∧
      signals = (block.dma.poll block.clock block.memory).signals) ?_).imp ?_
  · exact ⟨_, rfl, rfl, rfl, rfl, List.append_nil _⟩
  · rintro ⟨_, after⟩ events ⟨_, _, _, controller, _, ⟨rfl, rfl, rfl, rfl⟩, heard, rfl⟩
    exact ⟨_, controller, (pollDma_ahead block.dma block.clock block.memory).1, heard, rfl⟩

/-- A poll comes to its end if the deadlines of the timers are where they should be. -/
theorem poll_succeeds (driven : block.controller.IsDriven)
    (regular : ∀ index : Fin timerCount, TimerRegular block.timers[index]) :
    block.poll.Succeeds fun _ => True := by
  unfold poll
  refine (pollTimers_gives driven (by decide) fun index _ => regular index).succeeds.bind ?_
  rintro _ ⟨timers, clock, controller, asked, -, -, -, heardTimers, rfl⟩
  refine (pollUarts_gives heardTimers.isDriven (by decide)).succeeds.bind ?_
  rintro _ ⟨uarts, controller, -, -, heardUarts, rfl⟩
  exact (pollDma_gives heardUarts.isDriven).succeeds.bind fun _ _ => .pure trivial

/-- What the parts signal in a poll at the cycle of a clock, given what the timers do. -/
def signals (block : Block μ) (clock : Clock) (asked : Fin timerCount → List Signal) :
    List Signal :=
  [0, 1, 2, 3].flatMap asked
    ++ [0, 1].flatMap (fun index : Fin uartCount => (block.uarts[index].poll clock).signals)
    ++ (block.dma.poll clock block.memory).signals

/-- What a poll at the cycle of a clock makes of a block. -/
structure Handled (clock : Clock) (asked : Fin timerCount → List Signal) (block after : Block μ)
    (events : List Event) : Prop where
  now : after.clock.now = clock.now
  misc : after.misc = block.misc
  timers : ∀ index : Fin timerCount,
    TimerPasses clock block.timers[index] after.timers[index] (asked index)
  uarts : ∀ index : Fin uartCount, after.uarts[index] = (block.uarts[index].poll clock).value
  dma : after.dma = (block.dma.poll clock block.memory).value.1
  memory : after.memory = (block.dma.poll clock block.memory).value.2.2
  heard : Heard block.controller (block.signals clock asked) after.controller events

/-- What is said of a block before it is polled late. -/
structure Pollable (block : Block μ) : Prop where
  driven : block.controller.IsDriven
  regular : ∀ index : Fin timerCount, TimerRegular block.timers[index]
  lone : ∃ index, block.dma.IsLone index ∧ block.dma.channels[index].IsSound

theorem poll_handles (pollable : Pollable block) :
    block.poll.Gives fun after events => ∃ asked, Handled block.clock asked block after events := by
  obtain ⟨driven, regular, index, lone, sound⟩ := pollable
  have allTimers : ∀ index : Fin timerCount, index ∈ [0, 1, 2, 3] := by decide
  have allUarts : ∀ index : Fin uartCount, index ∈ [0, 1] := by decide
  unfold poll
  refine .bind (pollTimers_gives driven (by decide) fun index _ => regular index) ?_
  rintro _ first ⟨timers, clock, controller, asked, passed, _, now, heardTimers, rfl⟩
  refine .bind (pollUarts_gives heardTimers.isDriven (by decide)) ?_
  rintro _ second ⟨uarts, controller, polled, _, heardUarts, rfl⟩
  refine .bind (pollDma_gives heardUarts.isDriven) ?_
  rintro ⟨_, _⟩ third ⟨later, controller, nowLater, heardDma, rfl⟩
  refine .pure ⟨asked, ?_⟩
  obtain ⟨sameSignals, sameDma, sameMemory⟩ := Dma.poll_congr lone sound now block.memory
  have all := (heardTimers.trans driven heardUarts).trans driven heardDma
  dsimp only at *
  refine ⟨nowLater.trans now, rfl, fun index => passed index (allTimers index), fun index => ?_,
    sameDma.symm, sameMemory.symm, ?_⟩
  · rw [polled index (allUarts index), Uart.poll_congr now]
  · have same : (fun index : Fin uartCount => (block.uarts[index].poll clock).signals)
        = fun index => (block.uarts[index].poll block.clock).signals := by
      funext index
      rw [Uart.poll_congr now]
    rw [same, ← sameSignals] at all
    simp only [List.append_nil, ← List.append_assoc]
    exact all

/-- Before the deadlines that it holds a block is left alone. -/
theorem handled_of_ahead (pollable : Pollable block) {clock : Clock}
    (now : block.clock.now = clock.now)
    (ahead : ∀ deadline ∈ block.held, clock.hasReached deadline.time = false) :
    Handled clock (fun _ => []) block block [] := by
  obtain ⟨driven, regular, index, lone, sound⟩ := pollable
  have uarts (index : Fin uartCount) : block.uarts[index].poll clock = pure block.uarts[index] :=
    Uart.poll_of_ahead fun deadline known => ahead deadline (mem_held_of_uart known)
  have dma : block.dma.poll clock block.memory = pure (block.dma, clock, block.memory) :=
    Dma.poll_of_ahead lone (fun deadline known => ahead deadline (mem_held_of_channel known)) _
  have silent : block.signals clock (fun _ => []) = [] := by
    have quiet : (fun index : Fin uartCount => (block.uarts[index].poll clock).signals)
        = fun _ => [] := funext fun index => congrArg Traced.signals (uarts index)
    unfold signals
    rw [quiet, dma]
    rfl
  refine ⟨now, rfl, fun index => ⟨.waits fun deadline known => ?_, fun _ => rfl⟩, fun index => ?_,
    ?_, ?_, ?_⟩
  · exact ahead deadline (mem_held_of_timer known)
  · rw [uarts]
    rfl
  · rw [dma]
    rfl
  · rw [dma]
    rfl
  · rw [silent]
    exact .refl driven

end Block

end SocPeripherals
