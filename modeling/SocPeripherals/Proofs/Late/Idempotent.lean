import SocPeripherals.Proofs.Late.Arrival
import SocPeripherals.Proofs.Late.Dma
import SocPeripherals.Proofs.Late.Uart

/-!
# Polling twice at a cycle

A poll handles whatever is due, however late, and places new deadlines ahead only. So it leaves
nothing for another poll at the same cycle to do: that one changes nothing and is not heard. The
only poll that does not come to its end is that of a block with a timer that is lost.
-/

namespace SocPeripherals

namespace Dma

variable {μ : Type} [Bus μ] {dma : Dma} {clock : Clock}

/-- Before the deadlines of both channels the engine is left alone. -/
theorem poll_of_both_ahead (ahead : ∀ index : Fin channelCount,
      ∀ deadline ∈ dma.channels[index].held, clock.hasReached deadline.time = false)
    (memory : μ) : dma.poll clock memory = pure (dma, clock, memory) := by
  unfold poll
  rw [pollChannel_of_ahead (ahead 0), pure_bind]
  exact pollChannel_of_ahead (ahead 1) memory

end Dma

namespace Block

variable {μ : Type} {block : Block μ}

/-! ## Polls with nothing to do -/

theorem pollTimer_of_ahead {index : Fin timerCount}
    (ahead : ∀ deadline ∈ block.timers[index].held,
      block.clock.hasReached deadline.time = false) :
    block.pollTimer index = pure block := by
  have polls : (Device.poll block.timers[index] block.clock : Run Signal (Unit × Timer × Clock))
      = pure ((), block.timers[index], block.clock) := by
    simp only [Device.poll, Timer.poll_of_ahead ahead, pure_bind]
  unfold pollTimer onTimer
  rw [polls]
  change pure { block with
    timers := block.timers.set index block.timers[index] index.isLt } = _
  rw [Parts.set_getElem]

theorem pollUart_of_ahead {index : Fin uartCount}
    (ahead : ∀ deadline ∈ block.uarts[index].held,
      block.clock.hasReached deadline.time = false) :
    block.pollUart index = pure block := by
  have polls : (Device.poll block.uarts[index] block.clock : Run Signal (Unit × Uart × Clock))
      = pure ((), block.uarts[index], block.clock) := by
    simp only [Device.poll, Uart.poll_of_ahead ahead]
    rfl
  unfold pollUart onUart
  rw [polls]
  change pure { block with
    uarts := block.uarts.set index block.uarts[index] index.isLt } = _
  rw [Parts.set_getElem]

theorem foldlM_of_still {ι : Type} {step : Block μ → ι → Run Event (Block μ)}
    (still : ∀ part, step block part = pure block) (parts : List ι) :
    parts.foldlM step block = pure block := by
  induction parts with
  | nil => rfl
  | cons part rest ih => rw [List.foldlM_cons, still part, pure_bind, ih]

variable [Bus μ]

/-- Before the deadlines that it holds a poll of the block does nothing. -/
theorem poll_of_ahead
    (ahead : ∀ deadline ∈ block.held, block.clock.hasReached deadline.time = false) :
    block.poll = pure block := by
  have engine : block.dma.poll block.clock block.memory
      = pure (block.dma, block.clock, block.memory) :=
    Dma.poll_of_both_ahead (fun _ deadline known => ahead deadline (mem_held_of_channel known)) _
  have polls : Device.poll (Dma.Attached.mk block.dma block.memory) block.clock
      = pure ((), Dma.Attached.mk block.dma block.memory, block.clock) := by
    simp only [Device.poll, engine]
    rfl
  unfold poll
  rw [foldlM_of_still (fun _ => pollTimer_of_ahead fun deadline known =>
      ahead deadline (mem_held_of_timer known)), pure_bind,
    foldlM_of_still (fun _ => pollUart_of_ahead fun deadline known =>
      ahead deadline (mem_held_of_uart known)), pure_bind]
  unfold onDma
  rw [polls]
  rfl

/-! ## Polls that fail -/

omit [Bus μ] in
theorem pollTimer_of_isLost {index : Fin timerCount}
    (lost : block.timers[index].IsLost block.clock) :
    (block.pollTimer index).outcome = .error .deadlineTooFar := by
  have polled : (Device.poll block.timers[index] block.clock :
      Run Signal (Unit × Timer × Clock)).outcome = .error .deadlineTooFar :=
    congrArg Run.outcome (Run.bind_of_error (Timer.poll_of_isLost lost) _)
  have relayed : (block.controller.relay (Device.poll block.timers[index] block.clock :
      Run Signal (Unit × Timer × Clock))).outcome = .error .deadlineTooFar := by
    unfold Interrupt.Controller.relay
    rw [polled]
    rfl
  unfold pollTimer onTimer
  rw [Run.bind_of_error relayed]
  rfl

omit [Bus μ] in
/-- Polling the timers in turn fails at the first that is lost. -/
theorem foldlM_pollTimer_of_isLost (parts : List (Fin timerCount)) (short : block.IsShort)
    (lost : ∃ part ∈ parts, block.timers[part].IsLost block.clock) :
    (parts.foldlM pollTimer block).outcome = .error .deadlineTooFar := by
  induction parts generalizing block with
  | nil =>
      obtain ⟨part, listed, -⟩ := lost
      exact absurd listed List.not_mem_nil
  | cons first rest ih =>
      rw [List.foldlM_cons]
      by_cases here : block.timers[first].IsLost block.clock
      · exact congrArg Run.outcome (Run.bind_of_error (pollTimer_of_isLost here) _)
      · obtain ⟨between, done, shortToo, -, others, now, -⟩ :=
          pollTimer_succeeds (short first) here
        obtain ⟨part, listed, missing⟩ := lost
        have apart : part ≠ first := fun same => here (same ▸ missing)
        have later : part ∈ rest := (List.mem_cons.1 listed).resolve_left apart
        have stays : between.timers[part].IsLost between.clock := by
          rw [others part apart]
          exact missing.congr now
        have again : between.IsShort := by
          intro other
          by_cases same : other = first
          · exact same ▸ shortToo
          · exact others other same ▸ short other
        rw [Run.bind_of_ok done]
        exact ih again ⟨part, later, stays⟩

/-- A poll fails exactly if a timer is lost. -/
theorem poll_outcome (short : block.IsShort) :
    (block.poll.Succeeds (Polled block) ∧
      ∀ index : Fin timerCount, ¬ block.timers[index].IsLost block.clock) ∨
    (block.poll.outcome = .error .deadlineTooFar ∧
      ∃ index : Fin timerCount, block.timers[index].IsLost block.clock) := by
  by_cases lost : ∃ index : Fin timerCount, block.timers[index].IsLost block.clock
  · refine .inr ⟨?_, lost⟩
    obtain ⟨index, lost⟩ := lost
    have allTimers : ∀ index : Fin timerCount, index ∈ [0, 1, 2, 3] := by decide
    exact congrArg Run.outcome
      (Run.bind_of_error (foldlM_pollTimer_of_isLost _ short ⟨index, allTimers index, lost⟩) _)
  · have found := not_exists.1 lost
    have ready : CanPoll block := fun index => ⟨short index, found index⟩
    exact .inl ⟨ready.poll, found⟩

/-! ## Polling again -/

/-- A poll of a block settles all that is due, so that another one at the same cycle does nothing
and is not heard, even if something has happened to the interrupt controller in between. It comes to
its end unless one of the timers is lost, and fails if one is. -/
theorem poll_idempotent (hosted : block.Hosted) :
    ((∃ after, block.poll.outcome = .ok after) ↔
      ∀ index : Fin timerCount, ¬ block.timers[index].IsLost block.clock) ∧
    (∀ reason, block.poll.outcome = .error reason → reason = .deadlineTooFar) ∧
    ∀ after, block.poll.outcome = .ok after →
      after.clock.now = block.clock.now ∧
      (∀ deadline ∈ after.held, after.clock.hasReached deadline.time = false) ∧
      ∀ controller,
        ({ after with controller } : Block μ).poll = pure { after with controller } := by
  rcases poll_outcome hosted.isShort with ⟨⟨polled, done, kept⟩, found⟩ | ⟨failed, lost⟩
  · refine ⟨iff_of_true ⟨polled, done⟩ found, ?_, ?_⟩
    · intro reason failed
      exact absurd (done.symm.trans failed) (by simp)
    · intro after ran
      cases done.symm.trans ran
      have ahead := poll_ahead block polled done
      exact ⟨kept.now, ahead, fun controller => poll_of_ahead ahead⟩
  · refine ⟨iff_of_false ?_ (not_forall_not.2 lost), ?_, ?_⟩
    · rintro ⟨after, ran⟩
      exact absurd (ran.symm.trans failed) (by simp)
    · intro reason ran
      cases failed.symm.trans ran
      rfl
    · intro after ran
      exact absurd (ran.symm.trans failed) (by simp)

/-- A periodic timer that is polled after it has missed a period. -/
theorem poll_idempotent_overdue : ∃ block after : Block Ram, block.Hosted ∧
    block.held.map (fun deadline => block.clock.now - deadline.time) = {15} ∧
    block.poll.outcome = .ok after ∧
    (∀ deadline ∈ after.held, after.clock.hasReached deadline.time = false) ∧
    after.poll = pure after := by
  have created : Hosted (initial {} {} Ram.empty) :=
    .create (.fresh 0 0) (rfl : create {} {} Ram.empty = _)
  have counting := created.perform (.write .word 0x1404 9) trivial rfl
  have running := counting.perform (.write .word 0x1400 3) trivial rfl
  have missed := running.perform (.increment 25) trivial rfl
  obtain ⟨-, ahead, again⟩ := (poll_idempotent missed).2.2 _ rfl
  exact ⟨_, _, missed, rfl, rfl, ahead, again _⟩

/-- A timer that is due at the present cycle, and whose block cannot be polled there: it has come
back with a deadline at once after it was left alone for longer than the horizon. -/
theorem poll_fails_lost : ∃ block : Block Ram, block.Hosted ∧
    block.held.map (fun deadline => block.clock.now - deadline.time) = {0} ∧
    block.poll.outcome = .error .deadlineTooFar := by
  have created : Hosted (initial {} {} Ram.empty) :=
    .create (.fresh 0 0) (rfl : create {} {} Ram.empty = _)
  have counting := created.perform (.write .halfWord 0x1404 9) trivial rfl
  have running := counting.perform (.write .word 0x1400 3) trivial rfl
  have missed := running.perform (.increment 0x4000000000000000) trivial rfl
  have restored := missed.restore missed rfl
  have later := restored.perform (.increment 0x400000000000000f) trivial rfl
  have lost := later.restore later rfl
  exact ⟨_, lost, rfl, rfl⟩

end Block

end SocPeripherals
