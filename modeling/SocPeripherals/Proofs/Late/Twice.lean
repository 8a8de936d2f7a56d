import SocPeripherals.Proofs.Late.Poll

/-!
# A block polled on the way

A settled block is one that has handled all its deadlines so far, with at most one memory transfer
under way. Whether it is polled on the way to a cycle or only there makes no difference to what it
is there, to the levels that the line takes, or to the bytes that are sent on each port.
-/

namespace SocPeripherals

open Interrupt.Controller (Heard)

namespace Block

variable {μ : Type} {block between after coarse : Block μ} {settings : Settings}

/-- All that the block holds is awaited, and at most one memory transfer is under way. -/
structure Settled (settings : Settings) (block : Block μ) : Prop where
  punctual : Punctual settings block
  awaits : ∀ deadline ∈ block.held, block.clock.Awaits deadline
  lone : ∃ index, block.dma.IsLone index

theorem Settled.near (settled : Settled settings block) {deadline : Deadline}
    (known : deadline ∈ block.held) : block.clock.distance deadline.time < Clock.horizon :=
  settled.punctual.within deadline (settled.awaits deadline known).pending

theorem Settled.pollable (settled : Settled settings block) : Pollable block where
  driven := settled.punctual.sound.driven
  regular index start expiry phase := by
    have known : expiry ∈ block.timers[index].held :=
      Timer.held_of_running phase ▸ Multiset.mem_singleton_self expiry
    exact settled.punctual.timers index start expiry phase
      (settled.awaits expiry (mem_held_of_timer known))
  lone := by
    obtain ⟨index, lone⟩ := settled.lone
    exact ⟨index, lone, (settled.punctual.sound.channels index).sound⟩

theorem Settled.onTime (settled : Settled settings block) (index : Fin Dma.channelCount) :
    block.dma.channels[index].IsOnTime block.clock := by
  intro transfer active due timed
  have known := mem_held_of_channel (Dma.Channel.mem_held.2 ⟨transfer, active, timed⟩)
  exact ⟨settled.near known,
    settled.punctual.channels index transfer active due timed (settled.awaits due known)⟩

/-- The blocks are the same to whoever looks at them, but for what their clocks wait for. -/
structure SameState (first second : Block μ) : Prop where
  now : second.clock.now = first.clock.now
  saved : second.snapshot = first.snapshot
  memory : second.memory = first.memory
  controller : second.controller = first.controller

/-- The requests of the parts of a kind, if each of them asks for what it asks for in two polls. -/
theorem posted_flatMap {ι : Type} {asked more whole : ι → List Signal} {parts : List ι}
    (both : ∀ part ∈ parts,
      Signal.posted (whole part) = Signal.posted (asked part) ||| Signal.posted (more part)) :
    Signal.posted (parts.flatMap whole)
      = Signal.posted (parts.flatMap asked) ||| Signal.posted (parts.flatMap more) := by
  induction parts with
  | nil => exact UInt32.or_self.symm
  | cons part rest ih =>
      rw [List.flatMap_cons, List.flatMap_cons, List.flatMap_cons, Signal.posted_append,
        Signal.posted_append, Signal.posted_append, both part List.mem_cons_self,
        ih fun part listed => both part (List.mem_cons_of_mem _ listed)]
      ac_rfl

variable [Bus μ] {first again late : Clock} {before rest : UInt64}
  {asked more total : Fin timerCount → List Signal} {events further heard : List Event}

/-- Each serial interface sends on its own port, and nobody else sends. -/
theorem sent_signals (sound : Sound settings block) (lone : ∃ index, block.dma.IsLone index)
    (handled : Handled first asked block after events) (port : Nat) :
    (block.signals first asked).filterMap (Signal.sent? port)
      = if port = 0 then
          (block.uarts[(0 : Fin uartCount)].poll first).signals.filterMap (Signal.sent? port)
        else
          (block.uarts[(1 : Fin uartCount)].poll first).signals.filterMap (Signal.sent? port) := by
  obtain ⟨index, lone⟩ := lone
  have timers : ([0, 1, 2, 3].flatMap asked).filterMap (Signal.sent? port) = [] := by
    rw [List.filterMap_flatMap]
    exact List.flatMap_eq_nil_iff.2 fun index _ => (handled.timers index).2 port
  have quiet (index : Fin uartCount) (apart : index.val ≠ port) :
      (block.uarts[index].poll first).signals.filterMap (Signal.sent? port) = [] :=
    Uart.sent_poll_of_ne ((sound.uarts index).index.trans_ne apart) first
  unfold signals
  rw [List.filterMap_append, List.filterMap_append, timers, Dma.sent_poll lone, List.append_nil,
    List.nil_append, List.flatMap_cons, List.flatMap_cons, List.flatMap_nil, List.append_nil,
    List.filterMap_append]
  split
  next same =>
    rw [quiet 1 (by rw [same]; decide), List.append_nil]
  next apart =>
    rw [quiet 0 (Ne.symm apart), List.nil_append]

omit [Bus μ] in
/-- What the two polls of a serial interface come to. -/
theorem uart_twice (settled : Settled settings block)
    (passed : Clock.Passed block.clock first again before rest) (now : late.now = again.now)
    (index : Fin uartCount)
    (polled : between.uarts[index] = (block.uarts[index].poll first).value) :
    (block.uarts[index].poll late).value = (between.uarts[index].poll again).value ∧
      Signal.posted (block.uarts[index].poll late).signals
        = Signal.posted (block.uarts[index].poll first).signals
          ||| Signal.posted (between.uarts[index].poll again).signals ∧
      ∀ port, (block.uarts[index].poll late).signals.filterMap (Signal.sent? port)
        = (block.uarts[index].poll first).signals.filterMap (Signal.sent? port)
          ++ (between.uarts[index].poll again).signals.filterMap (Signal.sent? port) := by
  have near : ∀ deadline ∈ block.uarts[index].held,
      block.clock.distance deadline.time < Clock.horizon := fun deadline known =>
    settled.near (mem_held_of_uart known)
  obtain ⟨value, posted, sent⟩ := Uart.poll_twice passed near
  rw [Uart.poll_congr now, polled]
  refine ⟨value, ?_, fun port => ?_⟩
  · rw [posted, Traced.signals_bind, Signal.posted_append]
  · rw [sent, Traced.signals_bind, List.filterMap_append]

/-- What the two polls of the engine come to. -/
theorem dma_twice (settled : Settled settings block)
    (passed : Clock.Passed block.clock first again before rest) (now : late.now = again.now)
    (polled : between.dma = (block.dma.poll first block.memory).value.1)
    (memory : between.memory = (block.dma.poll first block.memory).value.2.2) :
    (block.dma.poll late block.memory).value.1 = (between.dma.poll again between.memory).value.1 ∧
      (block.dma.poll late block.memory).value.2.2
        = (between.dma.poll again between.memory).value.2.2 ∧
      Signal.posted (block.dma.poll late block.memory).signals
        = Signal.posted (block.dma.poll first block.memory).signals
          ||| Signal.posted (between.dma.poll again between.memory).signals := by
  obtain ⟨index, lone⟩ := settled.lone
  obtain ⟨signals, dma, memories⟩ := Dma.poll_twice passed lone
    (settled.punctual.sound.channels index).sound (settled.onTime index) rfl now block.memory
  rw [polled, memory]
  refine ⟨dma.symm, memories.symm, ?_⟩
  rw [← signals, Traced.signals_bind, Signal.posted_append]

/-- A poll on the way makes no difference. -/
theorem Handled.twice (settled : Settled settings block) (settledBetween : Settled settings between)
    (passed : Clock.Passed block.clock first again before rest) (now : late.now = again.now)
    (one : Handled first asked block between events)
    (two : Handled again more between after further) (whole : Handled late total block coarse heard) :
    SameState after coarse ∧
      heard.filterMap Event.level? = (events ++ further).filterMap Event.level? ∧
      ∀ port, heard.filterMap (Event.sent? port)
        = (events ++ further).filterMap (Event.sent? port) := by
  have sound := settled.punctual.sound
  have timers (index : Fin timerCount) := Timer.Passes.twice passed
    (fun deadline known => settled.near (mem_held_of_timer known)) (one.timers index).1
    (two.timers index).1 now (whole.timers index).1
  have uarts (index : Fin uartCount) :=
    uart_twice settled passed now index (one.uarts index)
  obtain ⟨dma, memory, postedDma⟩ := dma_twice settled passed now one.dma one.memory
  have nowSame : coarse.clock.now = after.clock.now := by rw [whole.now, two.now, now]
  have posted : Signal.posted (block.signals late total)
      = Signal.posted (block.signals first asked ++ between.signals again more) := by
    unfold signals
    simp only [Signal.posted_append]
    rw [posted_flatMap fun index _ => (timers index).2,
      posted_flatMap fun index _ => (uarts index).2.1, postedDma]
    ac_rfl
  have both := one.heard.trans sound.driven two.heard
  have controllers : coarse.controller = after.controller := by
    rw [whole.heard.value, both.value, posted]
  have savedTimers : coarse.snapshot.timers = after.snapshot.timers :=
    Parts.map_toList_congr fun index => by
      rw [Timer.snapshot_now whole.now, Timer.snapshot_now two.now]
      exact (timers index).1
  have savedUarts : coarse.snapshot.uarts = after.snapshot.uarts :=
    Parts.map_toList_congr fun index => by
      rw [Uart.snapshot_now nowSame, whole.uarts, two.uarts, (uarts index).1]
  have savedDma : coarse.snapshot.dma = after.snapshot.dma := by
    unfold snapshot
    dsimp only
    rw [Dma.snapshot_now nowSame, whole.dma, two.dma, dma]
  have misc : coarse.misc = after.misc := by rw [whole.misc, two.misc, one.misc]
  refine ⟨⟨nowSame, ?_, ?_, controllers⟩, ?_, fun port => ?_⟩
  · unfold snapshot at *
    dsimp only at *
    rw [savedTimers, savedUarts, savedDma, misc, controllers]
  · rw [whole.memory, two.memory, memory]
  · rw [whole.heard.levels, both.levels, controllers]
  · rw [whole.heard.sent, both.sent, List.filterMap_append, sent_signals sound settled.lone whole,
      sent_signals sound settled.lone one,
      sent_signals settledBetween.punctual.sound settledBetween.lone two]
    split
    next => exact (uarts 0).2.2 port
    next => exact (uarts 1).2.2 port

end Block

end SocPeripherals
