import SocPeripherals.Proofs.Block.Invariant

/-!
# After a poll

A poll handles every deadline that has been reached, so that afterwards all that the block holds
lie ahead.
-/

namespace SocPeripherals

namespace Block

variable {μ : Type} [Bus μ] {block after : Block μ} {α : Type}

/-- Nothing that the parts of a kind hold has been reached. -/
def AllAhead {count : Nat} (held : α → Multiset Deadline) (clock : Clock) (parts : Vector α count)
    (index : Fin count) : Prop :=
  ∀ deadline ∈ held parts[index], clock.hasReached deadline.time = false

theorem allAhead_set {count : Nat} {held : α → Multiset Deadline} {clock later : Clock}
    (parts : Vector α count) (index : Fin count) {part : α} (now : later.now = clock.now)
    (ahead : ∀ deadline ∈ held part, later.hasReached deadline.time = false) :
    AllAhead held later (parts.set index part index.isLt) index ∧
      ∀ other, AllAhead held clock parts other →
        AllAhead held later (parts.set index part index.isLt) other := by
  have here : AllAhead held later (parts.set index part index.isLt) index := by
    intro deadline known
    exact ahead deadline (by simpa using known)
  refine ⟨here, fun other before deadline known => ?_⟩
  by_cases same : index = other
  · subst same
    exact here deadline known
  · rw [Parts.getElem_set_of_ne _ _ same] at known
    rw [Clock.hasReached_congr now]
    exact before deadline known

/-- The timers have been polled. -/
abbrev TimerAhead (block : Block μ) : Fin timerCount → Prop :=
  AllAhead Timer.held block.clock block.timers

/-- The serial interfaces have been polled. -/
abbrev UartAhead (block : Block μ) : Fin uartCount → Prop :=
  AllAhead Uart.held block.clock block.uarts

omit [Bus μ] in
theorem pollTimer_ahead (block : Block μ) (index : Fin timerCount) :
    (block.pollTimer index).Ensures fun after =>
      after.TimerAhead index ∧ ∀ other, block.TimerAhead other → after.TimerAhead other := by
  refine (pollTimer_ensures block index).imp ?_
  rintro _ ⟨timer, clock, signals, polled, rfl⟩
  obtain ⟨step, ahead⟩ := block.timers[index].poll_step block.clock (timer, clock) polled
  exact allAhead_set block.timers index step.serves.follows.now ahead

omit [Bus μ] in
theorem pollUart_ahead (block : Block μ) (index : Fin uartCount) :
    (block.pollUart index).Ensures fun after =>
      (∀ other, block.TimerAhead other → after.TimerAhead other) ∧
        after.UartAhead index ∧ ∀ other, block.UartAhead other → after.UartAhead other := by
  refine (pollUart_ensures block index).imp ?_
  rintro _ ⟨signals, rfl⟩
  exact ⟨fun _ => id,
    allAhead_set block.uarts index rfl (block.uarts[index].poll_step block.clock).2⟩

omit [Bus μ] in
/-- Steps over a list of parts, each of which settles its part and leaves the settled ones
settled. -/
theorem foldlM_settles {ι : Type} {step : Block μ → ι → Run Event (Block μ)}
    {settled : Block μ → ι → Prop}
    (settles : ∀ block part, (step block part).Ensures fun after =>
      settled after part ∧ ∀ other, settled block other → settled after other)
    (parts : List ι) (block : Block μ) :
    (parts.foldlM step block).Ensures fun after =>
      (∀ part ∈ parts, settled after part) ∧
        ∀ other, settled block other → settled after other := by
  induction parts generalizing block with
  | nil => exact .pure ⟨fun _ listed => absurd listed List.not_mem_nil, fun _ => id⟩
  | cons part rest ih =>
      rw [List.foldlM_cons]
      refine .bind (settles block part) fun between first => ?_
      refine (ih between).imp fun after second => ⟨?_, fun other before => ?_⟩
      · rintro other (_ | ⟨_, listed⟩)
        · exact second.2 part first.1
        · exact second.1 other listed
      · exact second.2 other (first.2 other before)

omit [Bus μ] in
/-- Steps over a list of parts, each of which keeps something. -/
theorem foldlM_keeps {ι : Type} {step : Block μ → ι → Run Event (Block μ)} {kept : Block μ → Prop}
    (keeps : ∀ block part, kept block → (step block part).Ensures kept) (parts : List ι)
    {block : Block μ} (start : kept block) : (parts.foldlM step block).Ensures kept := by
  induction parts generalizing block with
  | nil => exact .pure start
  | cons part rest ih =>
      rw [List.foldlM_cons]
      exact .bind (keeps block part start) fun between known => ih known

theorem pollDma_ahead (dma : Dma) (clock : Clock) (memory : μ) :
    (dma.poll clock memory).value.2.1.now = clock.now ∧
      ∀ index, AllAhead Dma.Channel.held (dma.poll clock memory).value.2.1
        (dma.poll clock memory).value.1.channels index := by
  obtain ⟨stepFirst, aheadFirst⟩ := dma.channels[0].poll_step clock memory
  obtain ⟨here, _⟩ := allAhead_set dma.channels 0 stepFirst.serves.follows.now aheadFirst
  obtain ⟨stepSecond, aheadSecond⟩ :=
    (dma.pollChannel clock memory 0).value.1.channels[1].poll_step
      (dma.pollChannel clock memory 0).value.2.1 (dma.pollChannel clock memory 0).value.2.2
  obtain ⟨there, kept⟩ := allAhead_set (dma.pollChannel clock memory 0).value.1.channels 1
    stepSecond.serves.follows.now aheadSecond
  refine ⟨stepSecond.serves.follows.now.trans stepFirst.serves.follows.now, fun index => ?_⟩
  match index with
  | 0 => exact kept 0 here
  | 1 => exact there

/-- After a poll everything that the block holds lies ahead. -/
theorem poll_ahead (block : Block μ) :
    block.poll.Ensures fun after =>
      ∀ deadline ∈ after.held, after.clock.hasReached deadline.time = false := by
  have allTimers : ∀ index : Fin timerCount, index ∈ [0, 1, 2, 3] := by decide
  have allUarts : ∀ index : Fin uartCount, index ∈ [0, 1] := by decide
  unfold poll
  refine .bind (foldlM_settles pollTimer_ahead _ block) fun first timers => ?_
  have aheadTimers : ∀ index, first.TimerAhead index := fun index =>
    timers.1 index (allTimers index)
  have keepsTimers (block : Block μ) (part : Fin uartCount)
      (ahead : ∀ index, block.TimerAhead index) :
      (block.pollUart part).Ensures fun after => ∀ index, after.TimerAhead index :=
    (pollUart_ahead block part).imp fun _ kept index => kept.1 index (ahead index)
  refine .bind (Run.Ensures.and (foldlM_settles (fun block part =>
    (pollUart_ahead block part).imp fun _ => And.right) _ first)
    (foldlM_keeps keepsTimers _ aheadTimers)) fun second known => ?_
  obtain ⟨uarts, aheadTimers⟩ := known
  have aheadUarts : ∀ index, second.UartAhead index := fun index =>
    uarts.1 index (allUarts index)
  refine .bind (onDma_ensures (fun dma memory clock => clock.now = second.clock.now ∧
    ∀ index, AllAhead Dma.Channel.held clock dma.channels index) ?_) ?_
  · refine .bind (.traced _) ?_
    rintro _ rfl
    exact .pure (pollDma_ahead second.dma second.clock second.memory)
  · rintro ⟨_, _⟩ ⟨dma, memory, clock, ⟨now, aheadChannels⟩, rfl⟩
    refine .pure fun deadline known => ?_
    rcases Multiset.mem_add.1 known with known | known
    · rw [Clock.hasReached_congr now]
      rcases Multiset.mem_add.1 known with known | known
      · obtain ⟨index, known⟩ := Deadline.mem_all.1 known
        exact aheadTimers index deadline known
      · obtain ⟨index, known⟩ := Deadline.mem_all.1 known
        exact aheadUarts index deadline known
    · obtain ⟨index, known⟩ := Deadline.mem_all.1 known
      exact aheadChannels index deadline known

end Block

end SocPeripherals
