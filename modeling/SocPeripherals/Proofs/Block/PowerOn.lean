import SocPeripherals.Proofs.Block.Kept
import SocPeripherals.Proofs.Block.Timely

/-!
# Power-on and reset

A fresh block is one at power-on, whatever its timers have once latched. Its registers read their
listed values, and it holds no deadline. A reset makes every block a fresh one.
-/

namespace SocPeripherals

/-! ## What the registers of fresh parts read -/

/-- What a bus read of the whole register shows after a reset. The status of a serial interface
tells that nothing is being sent. -/
def Register.shown (register : Register) : UInt32 :=
  register.stored ||| if register.name = "USTAT" then 0x20 else 0

theorem Timer.distinct_registers : Selection.IsDistinct registers := by decide

theorem Uart.distinct_registers : Selection.IsDistinct registers := by decide

theorem Dma.distinct_registers : Selection.IsDistinct registers := by decide

theorem Block.distinct_registers : Selection.IsDistinct miscRegisters := by decide

theorem Timer.read_fresh (number : Nat) (source : UInt8) (latch : Latch) (clock : Clock)
    (index : Fin registers.length) :
    (({ index := number, source, latch } : Timer).read clock (registers.get index).width
      (registers.get index).offset).value.1 = (registers.get index).shown := by
  have stopped : ({ index := number, source, latch } : Timer).count clock = 0 := by
    unfold count
    rw [Bank.get_initial]
    rfl
  have shown : ∀ index : Fin registers.length,
      (registers.get index).stored = (registers.get index).shown := by decide
  unfold read
  rw [Traced.value_bind, Selection.value_noted, distinct_registers index]
  dsimp only
  split
  next counts =>
    cases counts
    rw [stopped]
    rfl
  next => exact (Bank.read_initial (Bank.fits_initial (by decide)) index).trans (shown index)

theorem Uart.read_fresh (number : Nat) (source : UInt8) (capacity : Nat)
    (index : Fin registers.length) :
    (({ index := number, source, capacity } : Uart).read (registers.get index).width
      (registers.get index).offset).value.1 = (registers.get index).shown := by
  have empty : ({ index := number, source, capacity } : Uart).takeReceived.1 = 0 := rfl
  have idle : ({ index := number, source, capacity } : Uart).liveStatus = 0x20 := by
    simp [liveStatus, isTransmitting]
  have shown : ∀ index : Fin registers.length, ((registers.get index).stored
      ||| if index = statusIndex then (Selection.whole registers index).lane.extract 0x20 else 0)
        = (registers.get index).shown := by decide
  unfold read
  rw [Traced.value_bind, Selection.value_noted, distinct_registers index]
  dsimp only
  split
  next receives =>
    cases receives
    rw [empty]
    split <;> rfl
  next =>
    rw [idle, ← shown index, ← Bank.read_initial (Bank.fits_initial (by decide)) index]
    rfl

theorem Dma.Channel.read_fresh {μ : Type} [Bus μ] (number : Nat) (source : UInt8)
    (cyclesPerUnit : UInt64) (clock : Clock) (memory : μ) (index : Fin registers.length) :
    (({ index := number, source, cyclesPerUnit } : Channel).read clock memory
      (registers.get index).width (registers.get index).offset).value.1
      = (registers.get index).shown := by
  have shown : ∀ index : Fin registers.length,
      (registers.get index).stored = (registers.get index).shown := by decide
  unfold read catchUp
  rw [Traced.value_bind]
  dsimp only
  rw [Traced.value_bind, Selection.value_noted, distinct_registers index]
  exact (Bank.read_initial (Bank.fits_initial (by decide)) index).trans (shown index)

theorem Interrupt.Controller.read_fresh : ∀ index : Fin registers.length,
    (({} : Controller).read (registers.get index).width (registers.get index).offset).value.1
      = (registers.get index).shown := by
  decide

namespace Block

variable {μ : Type} {settings : Settings} {block : Block μ} {α : Type}

/-! ## Fresh blocks -/

/-- The timer of a number is as at power-on, but for what it has latched. -/
def FreshTimer (timer : Timer) (index : Fin timerCount) : Prop :=
  ∃ latch, timer = { index := index.val, source := Interrupt.timerSources[index], latch }

/-- The serial interface of a number is as at power-on. -/
def FreshUart (settings : Settings) (uart : Uart) (index : Fin uartCount) : Prop :=
  uart = { index := index.val, source := Interrupt.uartSources[index]
           capacity := settings.uartCapacity }

/-- The channel of a number is as at power-on. -/
def FreshChannel (settings : Settings) (channel : Dma.Channel) (index : Fin Dma.channelCount) :
    Prop :=
  channel = { index := index.val, source := Interrupt.dmaSources[index]
              cyclesPerUnit := settings.dmaCycles }

/-- The block is as at power-on, but for what its timers have latched. -/
structure IsFresh (settings : Settings) (block : Block μ) : Prop where
  misc : block.misc = (initial settings block.clock block.memory).misc
  controller : block.controller = {}
  timers : ∀ index : Fin timerCount, FreshTimer block.timers[index] index
  uarts : ∀ index : Fin uartCount, FreshUart settings block.uarts[index] index
  channels : ∀ index : Fin Dma.channelCount,
    FreshChannel settings block.dma.channels[index] index

theorem IsFresh.held (fresh : IsFresh settings block) : block.held = 0 := by
  refine held_eq_zero_iff.2 ⟨fun index => ?_, fun index => ?_, fun index => ?_⟩
  · obtain ⟨latch, stopped⟩ := fresh.timers index
    rw [stopped]
    rfl
  · rw [fresh.uarts index]
    rfl
  · rw [fresh.channels index]
    rfl

theorem isFresh_initial (settings : Settings) (clock : Clock) (memory : μ) :
    IsFresh settings (initial settings clock memory) where
  misc := rfl
  controller := rfl
  timers index := ⟨{}, timer_initial settings clock memory index⟩
  uarts := uart_initial settings clock memory
  channels := channel_initial settings clock memory

/-! ## Reading the registers of a fresh block -/

theorem relay_answers (controller : Interrupt.Controller) {run : Run Signal α} {holds : α → Prop}
    (succeeds : run.Succeeds holds) :
    (controller.relay run).Succeeds fun (answer, _) => holds answer := by
  obtain ⟨outcome, signals⟩ := run
  obtain ⟨answer, done, known⟩ := succeeds
  cases done
  exact ⟨(answer, _), rfl, known⟩

theorem onTimer_answers {index : Fin timerCount}
    {action : Timer → Clock → Run Signal (α × Timer × Clock)} (holds : α → Prop)
    (succeeds : (action block.timers[index] block.clock).Succeeds fun (answer, _) => holds answer) :
    (block.onTimer index action).Succeeds fun (answer, _) => holds answer :=
  (relay_answers block.controller succeeds).bind fun _ known => .pure known

theorem onUart_answers {index : Fin uartCount}
    {action : Uart → Clock → Run Signal (α × Uart × Clock)} (holds : α → Prop)
    (succeeds : (action block.uarts[index] block.clock).Succeeds fun (answer, _) => holds answer) :
    (block.onUart index action).Succeeds fun (answer, _) => holds answer :=
  (relay_answers block.controller succeeds).bind fun _ known => .pure known

theorem onDma_answers {action : Dma.Attached μ → Clock → Run Signal (α × Dma.Attached μ × Clock)}
    (holds : α → Prop) (succeeds : (action ⟨block.dma, block.memory⟩ block.clock).Succeeds
      fun (answer, _) => holds answer) :
    (block.onDma action).Succeeds fun (answer, _) => holds answer :=
  (relay_answers block.controller succeeds).bind fun _ known => .pure known

/-- The address is in the window, and a part answers there. -/
def Lies (address : UInt32) (part : Part) (offset : UInt32) : Prop :=
  address < windowSize ∧ route? address = some (part, offset)

instance (address : UInt32) (part : Part) (offset : UInt32) :
    Decidable (Lies address part offset) :=
  inferInstanceAs (Decidable (_ ∧ _))

variable [Bus μ]

/-- A bus read of the whole register shows what it should after a reset. -/
def Shows (block : Block μ) (register : Register) : Prop :=
  (block.read register.width register.offset).Succeeds fun (answer, _) =>
    answer = .ok register.shown

theorem shows_of_lies {register : Register} {part : Part} {offset : UInt32}
    (lies : Lies register.offset part offset)
    (answers : (block.readPart register.width offset part).Succeeds fun (value, _) =>
      value = register.shown) : block.Shows register := by
  unfold Shows read
  rw [if_neg (UInt32.not_le.2 lies.1), lies.2]
  refine answers.bind ?_
  rintro ⟨value, after⟩ rfl
  exact .pure rfl

/-- The registers of a part show what they should at their places in the window. -/
theorem shows_placed {base : UInt32} {table : List Register} {part : Part}
    {offset : Fin table.length → UInt32}
    (lies : ∀ index, Lies (base + (table.get index).offset) part (offset index))
    (answers : ∀ index, (block.readPart (table.get index).width (offset index) part).Succeeds
      fun (value, _) => value = (table.get index).shown) :
    ∀ register ∈ placed base table, block.Shows register := by
  intro register listed
  obtain ⟨original, known, rfl⟩ := List.mem_map.1 listed
  obtain ⟨index, rfl⟩ := List.mem_iff_get.1 known
  exact shows_of_lies (lies index) (answers index)

omit [Bus μ] in
theorem misc_initial_reset (settings : Settings) (clock : Clock) (memory : μ) :
    (initial settings clock memory).misc.reset = (initial settings clock memory).misc := by
  simp [initial, Bank.reset, Bank.withReset, Bank.initial]

omit [Bus μ] in
/-- The identification registers store their power-on values, which fit them. -/
theorem IsFresh.stores_misc (fresh : IsFresh settings block) :
    block.misc.Fits ∧ block.misc.reset = block.misc := by
  rw [fresh.misc]
  constructor
  · exact (sound_initial settings block.clock block.memory).miscFits
  · exact misc_initial_reset settings block.clock block.memory

theorem IsFresh.shows_misc (fresh : IsFresh settings block) :
    ∀ register ∈ block.miscMap, block.Shows register := by
  have lies : ∀ index : Fin miscRegisters.length,
      Lies (miscRegisters.get index).offset .misc (miscRegisters.get index).offset := by decide
  have plain : ∀ index : Fin miscRegisters.length,
      (miscRegisters.get index).access ≠ .writeOnly ∧ (miscRegisters.get index).name ≠ "USTAT" := by
    decide
  obtain ⟨fits, reset⟩ := fresh.stores_misc
  intro register listed
  obtain ⟨index, _, rfl⟩ := List.mem_map.1 listed
  obtain ⟨readable, other⟩ := plain index
  have reads : (block.misc.read (Selection.whole miscRegisters index)).1
      = block.misc.resetValue index := by
    rw [Bank.read_whole fits, if_neg readable]
    conv_lhs => rw [← reset]
    exact Bank.get_reset block.misc index
  refine shows_of_lies (lies index) (.traced ?_)
  unfold readMisc Register.shown Register.stored
  rw [Traced.value_bind, Selection.value_noted, if_neg other, if_neg readable]
  dsimp only
  rw [distinct_registers index, UInt32.or_zero]
  exact reads

theorem IsFresh.shows_controller (fresh : IsFresh settings block) :
    ∀ register ∈ placed controllerBase Interrupt.registers, block.Shows register := by
  have lies : ∀ index : Fin Interrupt.registers.length,
      Lies (controllerBase + (Interrupt.registers.get index).offset) .controller
        (Interrupt.registers.get index).offset := by decide
  refine shows_placed lies fun index => .traced ?_
  unfold onController
  rw [fresh.controller]
  exact Interrupt.Controller.read_fresh index

theorem IsFresh.shows_timer (fresh : IsFresh settings block) (index : Fin timerCount) :
    ∀ register ∈ placed (timerBase + Timer.stride * UInt32.ofNat index.val) Timer.registers,
      block.Shows register := by
  have lies : ∀ (index : Fin timerCount) (register : Fin Timer.registers.length),
      Lies (timerBase + Timer.stride * UInt32.ofNat index.val
          + (Timer.registers.get register).offset) (.timer index)
        (Timer.registers.get register).offset := by decide
  refine shows_placed (lies index) fun register => ?_
  unfold readPart
  dsimp only
  refine onTimer_answers (· = (Timer.registers.get register).shown) ?_
  obtain ⟨latch, stopped⟩ := fresh.timers index
  rw [stopped]
  exact ⟨_, rfl, Timer.read_fresh _ _ latch block.clock register⟩

theorem IsFresh.shows_uart (fresh : IsFresh settings block) (index : Fin uartCount) :
    ∀ register ∈ placed (uartBase + Uart.stride * UInt32.ofNat index.val) Uart.registers,
      block.Shows register := by
  have lies : ∀ (index : Fin uartCount) (register : Fin Uart.registers.length),
      Lies (uartBase + Uart.stride * UInt32.ofNat index.val
          + (Uart.registers.get register).offset) (.uart index)
        (Uart.registers.get register).offset := by decide
  refine shows_placed (lies index) fun register => ?_
  unfold readPart
  dsimp only
  refine onUart_answers (· = (Uart.registers.get register).shown) ?_
  rw [fresh.uarts index]
  exact ⟨_, rfl, Uart.read_fresh _ _ _ register⟩

theorem IsFresh.shows_channel (fresh : IsFresh settings block) (index : Fin Dma.channelCount) :
    ∀ register ∈ placed (dmaBase + Dma.stride * UInt32.ofNat index.val) Dma.registers,
      block.Shows register := by
  have lies : ∀ (index : Fin Dma.channelCount) (register : Fin Dma.registers.length),
      Lies (dmaBase + Dma.stride * UInt32.ofNat index.val + (Dma.registers.get register).offset)
        .dma (Dma.stride * UInt32.ofNat index.val + (Dma.registers.get register).offset) := by
    decide
  have routes : ∀ (index : Fin Dma.channelCount) (register : Fin Dma.registers.length),
      Dma.route? (Dma.stride * UInt32.ofNat index.val + (Dma.registers.get register).offset)
        = some (index, (Dma.registers.get register).offset) := by
    decide
  refine shows_placed (lies index) fun register => ?_
  unfold readPart
  dsimp only
  have reads : (block.dma.read block.clock block.memory (Dma.registers.get register).width
      (Dma.stride * UInt32.ofNat index.val + (Dma.registers.get register).offset)).value.1
        = (Dma.registers.get register).shown := by
    unfold Dma.read
    rw [routes index register]
    dsimp only
    rw [fresh.channels index]
    exact Dma.Channel.read_fresh _ _ _ block.clock block.memory register
  exact onDma_answers (· = (Dma.registers.get register).shown) ⟨_, rfl, reads⟩

/-- Every register of a fresh block reads its listed value. -/
theorem IsFresh.shows (fresh : IsFresh settings block) :
    ∀ register ∈ block.registerMap, block.Shows register := by
  intro register listed
  simp only [registerMap, List.mem_append, List.mem_flatMap, List.mem_range] at listed
  rcases listed with (((listed | listed) | listed) | listed) | listed
  · exact fresh.shows_misc register listed
  · exact fresh.shows_controller register listed
  · obtain ⟨number, within, listed⟩ := listed
    exact fresh.shows_channel ⟨number, within⟩ register listed
  · obtain ⟨number, within, listed⟩ := listed
    exact fresh.shows_timer ⟨number, within⟩ register listed
  · obtain ⟨number, within, listed⟩ := listed
    exact fresh.shows_uart ⟨number, within⟩ register listed

end Block

/-! ## Reset -/

theorem Timer.Sound.reset_fresh {timer : Timer} {number : Nat} {origin : UInt8}
    (sound : Timer.Sound number origin timer) (clock : Clock) :
    ∃ latch, (timer.reset clock).1 = { index := number, source := origin, latch } := by
  obtain ⟨index, source, bank, latch, phase⟩ := timer
  obtain ⟨rfl, rfl, resets, _⟩ := sound
  refine ⟨latch, ?_⟩
  unfold reset halt
  cases phase <;> simp [Bank.reset_eq_initial resets]

theorem Uart.Sound.reset_fresh {uart : Uart} {number room : Nat} {origin : UInt8}
    (sound : Uart.Sound number origin room uart) (clock : Clock) :
    (uart.reset clock).1 = { index := number, source := origin, capacity := room } := by
  obtain ⟨index, source, capacity, bank, received, shifter, lineLow, breakDue⟩ := uart
  obtain ⟨rfl, rfl, rfl, resets, _⟩ := sound
  simp [reset, abandon, abandonByte, abandonBreak, Bank.reset_eq_initial resets]

theorem Dma.Channel.Sound.reset_fresh {channel : Channel} {number : Nat} {origin : UInt8}
    {speed : UInt64} (sound : Channel.Sound number origin speed channel) (clock : Clock) :
    (channel.reset clock).1 = { index := number, source := origin, cyclesPerUnit := speed } := by
  obtain ⟨index, source, cyclesPerUnit, bank, transfer⟩ := channel
  obtain ⟨rfl, rfl, rfl, resets, _⟩ := sound
  simp [reset, Bank.reset_eq_initial resets]

namespace Block

variable {μ : Type} [Bus μ] {settings : Settings} {block : Block μ}

theorem sound_lasting (settings : Settings) :
    Lasting (μ := μ) (fun _ => False) (Sound settings) where
  act sound act :=
    (act.step UInt64.le_rfl (fun _ never => never.elim) (fun _ never => never.elim) sound).sound
      sound
  moved sound done := by
    obtain ⟨clock, -, rfl⟩ := of_increment done
    exact { sound with }

omit [Bus μ] in
/-- Steps over a list of parts, each of which succeeds, settles its part and leaves the settled ones
settled. -/
theorem foldlM_succeeds {ι : Type} {step : Block μ → ι → Run Event (Block μ)}
    {kept : Block μ → Prop} (settled : Block μ → ι → Prop)
    (settles : ∀ {block} part, kept block → (step block part).Succeeds fun after =>
      kept after ∧ settled after part ∧ ∀ other, settled block other → settled after other)
    (parts : List ι) (known : kept block) :
    (parts.foldlM step block).Succeeds fun after =>
      kept after ∧ (∀ part ∈ parts, settled after part) ∧
        ∀ other, settled block other → settled after other := by
  induction parts generalizing block with
  | nil => exact .pure ⟨known, fun _ listed => absurd listed List.not_mem_nil, fun _ => id⟩
  | cons part rest ih =>
      rw [List.foldlM_cons]
      refine (settles part known).bind ?_
      rintro between ⟨known, here, before⟩
      refine (ih known).imp ?_
      rintro after ⟨known, there, later⟩
      refine ⟨known, ?_, fun other settled => later other (before other settled)⟩
      rintro other (_ | ⟨_, listed⟩)
      · exact later part here
      · exact there other listed

/-- A part that is replaced by one that holds leaves the others as they are. -/
theorem holds_set {α : Type} {count : Nat} (holds : α → Fin count → Prop)
    (parts : Vector α count) {index : Fin count} {part : α} (known : holds part index) :
    holds (parts.set index part index.isLt)[index] index ∧ ∀ other, holds parts[other] other →
      holds (parts.set index part index.isLt)[other] other := by
  have here : holds (parts.set index part index.isLt)[index] index := by
    rwa [Parts.getElem_set_self]
  refine ⟨here, fun other before => ?_⟩
  by_cases same : index = other
  · subst same
    exact here
  · rwa [Parts.getElem_set_of_ne _ _ same]

omit [Bus μ] in
theorem resetTimer_eq (block : Block μ) (index : Fin timerCount) :
    block.resetTimer index = pure { block with
      clock := (block.timers[index].reset block.clock).2
      timers := block.timers.set index (block.timers[index].reset block.clock).1 index.isLt } :=
  rfl

omit [Bus μ] in
theorem resetUart_eq (block : Block μ) (index : Fin uartCount) :
    block.resetUart index = pure { block with
      clock := (block.uarts[index].reset block.clock).2
      uarts := block.uarts.set index (block.uarts[index].reset block.clock).1 index.isLt } :=
  rfl

theorem resetTimer_settles {memory : μ} (index : Fin timerCount)
    (kept : Sound settings block ∧ block.memory = memory) :
    (block.resetTimer index).Succeeds fun after =>
      (Sound settings after ∧ after.memory = memory) ∧ FreshTimer after.timers[index] index ∧
        ∀ other : Fin timerCount, FreshTimer block.timers[other] other →
          FreshTimer after.timers[other] other := by
  obtain ⟨sound, same⟩ := kept
  have acts := resetTimer_acts (fun _ => False) block index
  rw [resetTimer_eq] at acts ⊢
  refine .pure ⟨⟨(sound_lasting settings).acts sound (acts _ rfl), same⟩, ?_⟩
  exact holds_set FreshTimer block.timers ((sound.timers index).reset_fresh block.clock)

theorem resetUart_settles {memory : μ} (index : Fin uartCount)
    (kept : Sound settings block ∧ block.memory = memory ∧
      ∀ timer : Fin timerCount, FreshTimer block.timers[timer] timer) :
    (block.resetUart index).Succeeds fun after =>
      (Sound settings after ∧ after.memory = memory ∧
        ∀ timer : Fin timerCount, FreshTimer after.timers[timer] timer) ∧
          FreshUart settings after.uarts[index] index ∧
            ∀ other : Fin uartCount, FreshUart settings block.uarts[other] other →
              FreshUart settings after.uarts[other] other := by
  obtain ⟨sound, same, timers⟩ := kept
  have acts := resetUart_acts (fun _ => False) block index
  rw [resetUart_eq] at acts ⊢
  refine .pure ⟨⟨(sound_lasting settings).acts sound (acts _ rfl), same, timers⟩, ?_⟩
  exact holds_set (FreshUart settings) block.uarts
    ((sound.uarts index).reset_fresh block.clock)

omit [Bus μ] in
theorem Sound.misc_reset (sound : Sound settings block) (clock : Clock) (memory : μ) :
    block.misc.reset = (initial settings clock memory).misc := by
  have same : block.misc.reset = (initial settings clock memory).misc.reset := by
    unfold Bank.reset
    rw [sound.misc]
    rfl
  rw [same, misc_initial_reset]

omit [Bus μ] in
theorem Sound.controller_reset (sound : Sound settings block) :
    block.controller.reset.value = {} := by
  have quiet : Interrupt.Controller.demands {} = false := by decide
  unfold Interrupt.Controller.reset
  rw [Interrupt.Controller.value_drive, Bank.reset_eq_initial sound.controllerResets]
  exact congrArg (fun line => ({ line } : Interrupt.Controller)) quiet

theorem resetDma_eq (block : Block μ) :
    block.onDma Device.reset = pure ((), { block with
      clock := (block.dma.reset block.clock).2
      dma := (block.dma.reset block.clock).1 }) :=
  rfl

omit [Bus μ] in
theorem resetDma_fresh (sound : Sound settings block) (index : Fin Dma.channelCount) :
    FreshChannel settings (block.dma.reset block.clock).1.channels[index] index := by
  let last : Fin Dma.channelCount := 1
  have kept : (block.dma.resetChannel block.clock 0).1.channels[last] = block.dma.channels[last] :=
    Parts.getElem_set_of_ne _ _ (by decide)
  have first := holds_set (FreshChannel settings) block.dma.channels
    ((sound.channels 0).reset_fresh block.clock)
  have next := sound.channels last
  rw [← kept] at next
  have second := holds_set (FreshChannel settings) (block.dma.resetChannel block.clock 0).1.channels
    (next.reset_fresh (block.dma.resetChannel block.clock 0).2)
  match index with
  | 0 => exact second.2 0 first.1
  | 1 => exact second.1

/-- A reset makes the block a fresh one. -/
theorem reset_fresh (sound : Sound settings block) :
    block.reset.Succeeds fun after => IsFresh settings after ∧ after.memory = block.memory := by
  have allTimers : ∀ index : Fin timerCount, index ∈ [0, 1, 2, 3] := by decide
  have allUarts : ∀ index : Fin uartCount, index ∈ [0, 1] := by decide
  unfold reset
  refine (foldlM_succeeds (fun after (index : Fin timerCount) =>
    FreshTimer after.timers[index] index) resetTimer_settles _ ⟨sound, rfl⟩).bind ?_
  rintro first ⟨⟨sound, same⟩, timers, _⟩
  have timers (index : Fin timerCount) := timers index (allTimers index)
  refine (foldlM_succeeds (fun after (index : Fin uartCount) =>
    FreshUart settings after.uarts[index] index) resetUart_settles _ ⟨sound, same, timers⟩).bind ?_
  rintro second ⟨⟨sound, same, timers⟩, uarts, _⟩
  have uarts (index : Fin uartCount) := uarts index (allUarts index)
  rw [resetDma_eq, pure_bind]
  refine ⟨_, rfl, ?_, same⟩
  exact {
    misc := sound.misc_reset _ _
    controller := sound.controller_reset
    timers := timers
    uarts := uarts
    channels := resetDma_fresh sound }

end Block

end SocPeripherals
