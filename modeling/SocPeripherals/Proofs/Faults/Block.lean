import SocPeripherals.Bus.Ram
import SocPeripherals.Proofs.Block.Kept
import SocPeripherals.Proofs.Block.Timely
import SocPeripherals.Proofs.Faults.Bounds
import SocPeripherals.Proofs.Faults.Devices
import SocPeripherals.Proofs.Late.Poll
import SocPeripherals.Proofs.Stepping

/-!
# How a block can fail

Whatever is read and written, polled, reset and waited for, a block goes on, unless a memory transfer
begins that takes so long that no deadline can be placed at its end. The note of that transfer is
then the last thing that is heard.
-/

namespace SocPeripherals

/-- The event is the note of a transfer that takes too long for a deadline, at so many cycles a
unit. -/
def Event.IsOverlong (cyclesPerUnit : UInt64) : Event → Prop
  | .note remark => remark.IsOverlong cyclesPerUnit
  | _ => False

variable {cyclesPerUnit : UInt64}

/-- If a transfer of the greatest count is short enough, every transfer is. -/
theorem Event.not_isOverlong (event : Event)
    (short : 0xffffffff * cyclesPerUnit.toNat < Clock.horizon.toNat) :
    ¬event.IsOverlong cyclesPerUnit := by
  unfold Event.IsOverlong Note.IsOverlong
  split
  next =>
    split
    next count _ _ _ =>
      have bound := Nat.mul_le_mul_right cyclesPerUnit.toNat (Nat.le_pred_of_lt count.toNat_lt)
      exact Nat.not_le.2 (bound.trans_lt short)
    next => exact id
  next => exact id

theorem Event.IsOfController.not_isOverlong {event : Event} (of : event.IsOfController) :
    ¬event.IsOverlong cyclesPerUnit := by
  cases event with
  | note remark =>
      cases remark with
      | transferStarted => exact False.elim of
      | _ => exact id
  | _ => exact id

/-! ## What is heard -/

namespace Interrupt.Controller

variable {α : Type}

theorem drive_isHarmless (controller : Controller) :
    controller.drive.IsHarmless (Event.IsOverlong cyclesPerUnit) :=
  controller.drive_signalsOnly.isHarmless fun _ => Event.IsOfController.not_isOverlong

theorem hear_isHarmless (controller : Controller) {signal : Signal}
    (harmless : ¬signal.IsOverlong cyclesPerUnit) :
    (controller.hear signal).IsHarmless (Event.IsOverlong cyclesPerUnit) := by
  cases signal with
  | note remark =>
      intro event heard
      rw [List.mem_singleton.1 heard]
      exact harmless
  | interrupt source => exact drive_isHarmless _
  | transmit uart byte => simp [hear, Traced.IsHarmless, Event.IsOverlong]
  | host call => simp [hear, Traced.IsHarmless, Event.IsOverlong]

theorem hearAll_isHarmless (controller : Controller) {signals : List Signal}
    (harmless : ∀ signal ∈ signals, ¬signal.IsOverlong cyclesPerUnit) :
    (controller.hearAll signals).IsHarmless (Event.IsOverlong cyclesPerUnit) := by
  induction signals generalizing controller with
  | nil => exact .pure _
  | cons signal rest ih =>
      refine .bind (hear_isHarmless controller (harmless signal List.mem_cons_self)) ?_
      exact ih _ fun other listed => harmless other (List.mem_cons_of_mem _ listed)

/-- What is heard of a device that fails at a transfer ends with the note of that transfer. -/
theorem relay_failsOnlyAt (controller : Controller) {run : Run Signal α}
    (fails : run.FailsAtTransfers cyclesPerUnit) : (controller.relay run).FailsOnlyAt
      .deadlineTooFar (Event.IsOverlong cyclesPerUnit) := by
  cases fails with
  | ends harmless => exact .ends (hearAll_isHarmless controller harmless)
  | @fails signals last harmless deadly =>
      cases last with
      | note remark =>
          have heard : (controller.hearAll (signals ++ [.note remark])).signals
              = (controller.hearAll signals).signals ++ [.note remark] := by
            rw [hearAll_append]
            rfl
          unfold relay
          dsimp only
          rw [heard]
          exact .fails (hearAll_isHarmless controller harmless) deadly
      | _ => exact deadly.elim

theorem read_isHarmless (controller : Controller) (width : Width) (address : UInt32) :
    (controller.read width address).IsHarmless (Event.IsOverlong cyclesPerUnit) :=
  (controller.read_signalsOnly width address).isHarmless fun _ =>
    Event.IsOfController.not_isOverlong

theorem write_isHarmless (controller : Controller) (width : Width) (address value : UInt32) :
    (controller.write width address value).IsHarmless (Event.IsOverlong cyclesPerUnit) :=
  (controller.write_signalsOnly width address value).isHarmless fun _ =>
    Event.IsOfController.not_isOverlong

end Interrupt.Controller

namespace Dma

variable {μ : Type} [Bus μ]

/-- Every channel takes so many cycles a unit. -/
def HasSpeed (cyclesPerUnit : UInt64) (dma : Dma) : Prop :=
  ∀ index : Fin channelCount, dma.channels[index].cyclesPerUnit = cyclesPerUnit

theorem read_hasNoTransfer (dma : Dma) (clock : Clock) (memory : μ) (width : Width)
    (address : UInt32) : (dma.read clock memory width address).HasNoTransfer cyclesPerUnit := by
  unfold read
  split
  next => exact .bind (.signal id) (.pure _)
  next index offset _ =>
    exact .bind (dma.channels[index].read_hasNoTransfer clock memory width offset) (.pure _)

theorem poll_hasNoTransfer (dma : Dma) (clock : Clock) (memory : μ) :
    (dma.poll clock memory).HasNoTransfer cyclesPerUnit := by
  refine .bind (.bind (Channel.poll_hasNoTransfer _ clock memory) (.pure _)) ?_
  exact .bind (Channel.poll_hasNoTransfer _ _ _) (.pure _)

theorem write_failsAtTransfers {dma : Dma} (speed : dma.HasSpeed cyclesPerUnit) (clock : Clock)
    (memory : μ) (width : Width) (address value : UInt32) :
    (dma.write clock memory width address value).FailsAtTransfers cyclesPerUnit := by
  unfold write
  split
  next => exact .bind (.signal id) (.trivial _) fun _ _ => .pure _
  next index offset _ =>
    exact .bind (Channel.write_failsAtTransfers (speed index) clock memory width offset value)
      (.trivial _) fun _ _ => .pure _

theorem start_failsAtTransfers {dma : Dma} (speed : dma.HasSpeed cyclesPerUnit) (clock : Clock)
    (memory : μ) (number : Nat) (source target count control : UInt32) :
    (dma.start clock memory number source target count control).FailsAtTransfers
      cyclesPerUnit := by
  unfold start
  split
  next => exact .pure _
  next index _ =>
    refine .bind ?_ (.trivial _) fun _ _ => .pure _
    exact Channel.start_failsAtTransfers (speed index) clock memory source target count control

end Dma

namespace Block

variable {μ α : Type} {block after : Block μ} {settings : Settings}

/-- The operation fails only where a transfer begins that takes too long for a deadline. -/
abbrev FailsAtTransfers (settings : Settings) (run : Run Event α) : Prop :=
  run.FailsOnlyAt .deadlineTooFar (Event.IsOverlong settings.dmaCycles)

/-! ## Letting a part act -/

theorem onTimer_failsAtTransfers {index : Fin timerCount}
    {action : Timer → Clock → Run Signal (α × Timer × Clock)}
    (fails : (action block.timers[index] block.clock).FailsAtTransfers settings.dmaCycles) :
    FailsAtTransfers settings (block.onTimer index action) :=
  .bind (block.controller.relay_failsOnlyAt fails) (.trivial _) fun _ _ => .pure _

theorem onUart_failsAtTransfers {index : Fin uartCount}
    {action : Uart → Clock → Run Signal (α × Uart × Clock)}
    (fails : (action block.uarts[index] block.clock).FailsAtTransfers settings.dmaCycles) :
    FailsAtTransfers settings (block.onUart index action) :=
  .bind (block.controller.relay_failsOnlyAt fails) (.trivial _) fun _ _ => .pure _

theorem onUartAt_failsAtTransfers (number : Nat)
    {action : Uart → Clock → Run Signal (Unit × Uart × Clock)}
    (fails : ∀ index : Fin uartCount,
      (action block.uarts[index] block.clock).FailsAtTransfers settings.dmaCycles) :
    FailsAtTransfers settings (block.onUartAt number action) := by
  unfold onUartAt
  split
  next => exact .pure _
  next index _ => exact .bind (onUart_failsAtTransfers (fails index)) (.trivial _) fun _ _ => .pure _

theorem onDma_failsAtTransfers
    {action : Dma.Attached μ → Clock → Run Signal (α × Dma.Attached μ × Clock)}
    (fails : (action ⟨block.dma, block.memory⟩ block.clock).FailsAtTransfers settings.dmaCycles) :
    FailsAtTransfers settings (block.onDma action) :=
  .bind (block.controller.relay_failsOnlyAt fails) (.trivial _) fun _ _ => .pure _

variable [Bus μ]

/-! ## Blocks that go on -/

/-- The parts of the block are sound, and the periods of its timers end where they should. -/
structure IsFit (settings : Settings) (block : Block μ) : Prop where
  sound : Sound settings block
  timers : ∀ index : Fin timerCount, TimerRegular block.timers[index]

omit [Bus μ] in
theorem isFit_initial (settings : Settings) (clock : Clock) (memory : μ) :
    IsFit settings (initial settings clock memory) where
  sound := sound_initial settings clock memory
  timers index := by
    rw [timer_initial]
    intro start expiry running
    contradiction

/-- Whatever is done without restoring anything, the block stays fit. -/
theorem isFit_lasting (settings : Settings) :
    Lasting (μ := μ) (fun _ => False) (IsFit settings) where
  act := by
    intro block after fit act
    have step := act.step UInt64.le_rfl (fun _ never => never.elim) (fun _ never => never.elim)
      fit.sound
    refine ⟨step.sound fit.sound, fun index start expiry running => ?_⟩
    cases (step.timers index).course with
    | kept phase latch =>
        rw [latch]
        exact fit.timers index start expiry (phase.symm.trans running)
    | stopped phase => exact absurd (phase.symm.trans running) (by simp)
    | begun start' expiry' phase known =>
        cases phase.symm.trans running
        rcases known with regular | ⟨part, ⟨saved, never, _⟩, _⟩
        · exact regular
        · exact never.elim
  moved := by
    intro block after cycles reached fit done
    obtain ⟨clock, -, rfl⟩ := of_increment done
    exact ⟨{ fit.sound with }, fit.timers⟩

omit [Bus μ] in
theorem IsFit.speed (fit : IsFit settings block) : block.dma.HasSpeed settings.dmaCycles :=
  fun index => (fit.sound.channels index).cyclesPerUnit

omit [Bus μ] in
/-- Steps over a list of parts, each of which fails at most at a transfer and keeps what the others
need. -/
theorem foldlM_failsAtTransfers {ι : Type} {step : Block μ → ι → Run Event (Block μ)}
    {kept : Block μ → Prop}
    (fails : ∀ {block} part, kept block → FailsAtTransfers settings (step block part))
    (keeps : ∀ {block} part, kept block → (step block part).Ensures kept)
    (parts : List ι) (known : kept block) :
    FailsAtTransfers settings (parts.foldlM step block) := by
  induction parts generalizing block with
  | nil => exact .pure _
  | cons part rest ih =>
      rw [List.foldlM_cons]
      exact .bind (fails part known) (keeps part known) fun between known => ih known

omit [Bus μ] in
theorem pollTimer_failsAtTransfers (index : Fin timerCount) (fit : IsFit settings block) :
    FailsAtTransfers settings (block.pollTimer index) := by
  refine .bind (onTimer_failsAtTransfers ?_) (.trivial _) fun _ _ => .pure _
  refine .bind ?_ (.trivial _) fun _ _ => .pure _
  exact Timer.poll_failsAtTransfers block.clock (fit.timers index)

omit [Bus μ] in
theorem pollUart_failsAtTransfers (index : Fin uartCount) :
    FailsAtTransfers settings (block.pollUart index) := by
  refine .bind (onUart_failsAtTransfers ?_) (.trivial _) fun _ _ => .pure _
  refine .bind (.traced ?_) (.trivial _) fun _ _ => .pure _
  exact Uart.poll_hasNoTransfer block.uarts[index] block.clock

theorem poll_failsAtTransfers (fit : IsFit settings block) :
    FailsAtTransfers settings block.poll := by
  have timersKeep {block : Block μ} (index : Fin timerCount) (fit : IsFit settings block) :
      (block.pollTimer index).Ensures (IsFit settings) :=
    (pollTimer_acts _ block index).imp fun _ acts => (isFit_lasting settings).acts fit acts
  have uartsKeep {block : Block μ} (index : Fin uartCount) (fit : IsFit settings block) :
      (block.pollUart index).Ensures (IsFit settings) :=
    (pollUart_acts _ block index).imp fun _ acts => (isFit_lasting settings).acts fit acts
  have timers := foldlM_failsAtTransfers pollTimer_failsAtTransfers timersKeep [0, 1, 2, 3] fit
  refine .bind timers ((foldlM_acts _ (pollTimer_acts _) _ block).imp fun _ acts =>
    (isFit_lasting settings).acts fit acts) fun first fit => ?_
  have uartsFail {block : Block μ} (index : Fin uartCount) (_ : IsFit settings block) :
      FailsAtTransfers settings (block.pollUart index) := pollUart_failsAtTransfers index
  refine .bind (foldlM_failsAtTransfers uartsFail uartsKeep [0, 1] fit) (.trivial _)
    fun second _ => ?_
  refine .bind (onDma_failsAtTransfers ?_) (.trivial _) fun _ _ => .pure _
  refine .bind (.traced ?_) (.trivial _) fun _ _ => .pure _
  exact Dma.poll_hasNoTransfer second.dma second.clock second.memory

theorem reset_failsAtTransfers (block : Block μ) : FailsAtTransfers settings block.reset := by
  have timers {block : Block μ} (index : Fin timerCount) (_ : True) :
      FailsAtTransfers settings (block.resetTimer index) :=
    .bind (onTimer_failsAtTransfers (.pure _)) (.trivial _) fun _ _ => .pure _
  have uarts {block : Block μ} (index : Fin uartCount) (_ : True) :
      FailsAtTransfers settings (block.resetUart index) :=
    .bind (onUart_failsAtTransfers (.pure _)) (.trivial _) fun _ _ => .pure _
  unfold reset
  refine .bind (foldlM_failsAtTransfers timers (fun _ _ => .trivial _) _ trivial) (.trivial _)
    fun first _ => ?_
  refine .bind (foldlM_failsAtTransfers uarts (fun _ _ => .trivial _) _ trivial) (.trivial _)
    fun second _ => ?_
  refine .bind (onDma_failsAtTransfers (.pure _)) (.trivial _) fun _ _ => ?_
  refine .bind (.traced (.bind (.bind ?_ (.pure _)) (.pure _))) (.trivial _) fun _ _ => .pure _
  exact Interrupt.Controller.drive_isHarmless _

/-! ## Bus accesses -/

omit [Bus μ] in
theorem readMisc_isHarmless (block : Block μ) (width : Width) (offset : UInt32) :
    (block.readMisc width offset).IsHarmless (Event.IsOverlong cyclesPerUnit) :=
  (block.readMisc_signalsOnly width offset).isHarmless fun _ => Event.IsOfController.not_isOverlong

omit [Bus μ] in
theorem writeMisc_isHarmless (block : Block μ) (width : Width) (offset value : UInt32) :
    (block.writeMisc width offset value).IsHarmless (Event.IsOverlong cyclesPerUnit) :=
  (block.writeMisc_signalsOnly width offset value).isHarmless fun _ =>
    Event.IsOfController.not_isOverlong

theorem readPart_failsAtTransfers (block : Block μ) (width : Width) (offset : UInt32) (part : Part) :
    FailsAtTransfers settings (block.readPart width offset part) := by
  cases part with
  | misc => exact .traced (readMisc_isHarmless block width offset)
  | controller =>
      exact .traced (.bind (block.controller.read_isHarmless width offset) (.pure _))
  | dma =>
      rw [readPart]
      refine onDma_failsAtTransfers ?_
      refine .bind (.traced ?_) (.trivial _) fun _ _ => .pure _
      exact Dma.read_hasNoTransfer block.dma block.clock block.memory width offset
  | timer index =>
      rw [readPart]
      refine onTimer_failsAtTransfers ?_
      refine .bind (.traced ?_) (.trivial _) fun _ _ => .pure _
      exact Timer.read_hasNoTransfer block.timers[index] block.clock width offset
  | uart index =>
      rw [readPart]
      refine onUart_failsAtTransfers ?_
      refine .bind (.traced ?_) (.trivial _) fun _ _ => .pure _
      exact Uart.read_hasNoTransfer block.uarts[index] width offset

/-- A write to anything but the engine begins no transfer. -/
theorem writePart_failsAtTransfers_of_ne (block : Block μ) (width : Width) (offset value : UInt32)
    {part : Part} (other : part ≠ .dma) :
    FailsAtTransfers settings (block.writePart width offset value part) := by
  cases part with
  | misc =>
      exact .bind (.traced (writeMisc_isHarmless block width offset value)) (.trivial _)
        fun _ _ => .pure _
  | controller =>
      refine .traced (.bind (.bind ?_ (.pure _)) (.pure _))
      exact block.controller.write_isHarmless width offset value
  | dma => exact absurd rfl other
  | timer index =>
      rw [writePart]
      refine onTimer_failsAtTransfers ?_
      refine .bind ?_ (.trivial _) fun _ _ => .pure _
      exact Timer.write_failsAtTransfers block.timers[index] block.clock width offset value
  | uart index =>
      rw [writePart]
      refine onUart_failsAtTransfers ?_
      refine .bind ?_ (.trivial _) fun _ _ => .pure _
      exact Uart.write_failsAtTransfers block.uarts[index] block.clock width offset value

theorem writePart_failsAtTransfers (fit : IsFit settings block) (width : Width)
    (offset value : UInt32) (part : Part) :
    FailsAtTransfers settings (block.writePart width offset value part) := by
  by_cases engine : part = .dma
  · rw [engine, writePart]
    refine onDma_failsAtTransfers ?_
    refine .bind ?_ (.trivial _) fun _ _ => .pure _
    exact Dma.write_failsAtTransfers fit.speed block.clock block.memory width offset value
  · exact writePart_failsAtTransfers_of_ne block width offset value engine

theorem read_failsAtTransfers (block : Block μ) (width : Width) (address : UInt32) :
    FailsAtTransfers settings (block.read width address) := by
  unfold read
  split
  next => exact .bind (.signal id) (.trivial _) fun _ _ => .pure _
  next =>
    split
    next => exact .bind (.signal id) (.trivial _) fun _ _ => .pure _
    next part offset _ =>
      exact .bind (readPart_failsAtTransfers block width offset part) (.trivial _)
        fun _ _ => .pure _

theorem write_failsAtTransfers (fit : IsFit settings block) (width : Width)
    (address value : UInt32) : FailsAtTransfers settings (block.write width address value) := by
  unfold write
  split
  next => exact .bind (.signal id) (.trivial _) fun _ _ => .pure _
  next =>
    split
    next => exact .bind (.signal id) (.trivial _) fun _ _ => .pure _
    next part offset _ =>
      exact .bind (writePart_failsAtTransfers fit width offset value part) (.trivial _)
        fun _ _ => .pure _

/-! ## Moves of the clock -/

omit [Bus μ] in
theorem increment_ok (block : Block μ) {cycles : UInt64} (short : cycles < Clock.horizon) :
    ∃ result, block.increment cycles = .ok result := by
  unfold increment
  rw [Clock.increment_of_lt short]
  exact ⟨_, rfl⟩

theorem tick_failsAtTransfers (fit : IsFit settings block) {cycles : UInt64}
    (short : cycles < Clock.horizon) : FailsAtTransfers settings (block.tick cycles) := by
  obtain ⟨result, moved⟩ := block.increment_ok short
  refine .bind (.except moved) ((isFit_lasting settings).increment fit cycles) ?_
  rintro ⟨reached, between⟩ fit
  cases reached with
  | true => exact .bind (poll_failsAtTransfers fit) (.trivial _) fun _ _ => .pure _
  | false => exact .pure _

/-- A tick begins no transfer, and so does not fail at all. -/
theorem IsFit.tick_succeeds (fit : IsFit settings block) {cycles : UInt64}
    (short : cycles < Clock.horizon) :
    (block.tick cycles).Succeeds fun (_, after) => IsFit settings after := by
  obtain ⟨⟨reached, moved⟩, done⟩ := block.increment_ok short
  have later := (isFit_lasting settings).moved fit done
  have ticks : (block.tick cycles).Succeeds fun _ => True := by
    refine (Run.Succeeds.except done rfl).bind ?_
    rintro _ rfl
    cases reached with
    | true => exact (poll_succeeds later.sound.driven later.timers).bind fun _ _ => .pure trivial
    | false => exact .pure trivial
  exact (ticks.and ((isFit_lasting settings).tick fit cycles)).imp fun _ known => known.2

theorem hop_failsAtTransfers (steps : Nat) (fit : IsFit settings block) {left : UInt64}
    (short : left < Clock.horizon) (polled : Bool) :
    FailsAtTransfers settings (hop steps block left polled []) := by
  induction steps generalizing block left polled with
  | zero => exact .pure _
  | succ steps ih =>
      have le : block.nextStep left ≤ left := by
        obtain ⟨_, last | ⟨less, _⟩⟩ := nextStep_cases block left
        · exact UInt64.le_of_eq last
        · exact UInt64.le_of_lt less
      rw [hop_succ]
      refine .bind (tick_failsAtTransfers fit (UInt64.lt_of_le_of_lt le short))
        ((isFit_lasting settings).tick fit _) ?_
      rintro ⟨reached, between⟩ fit
      dsimp only
      split
      next => exact .pure _
      next =>
        refine ih fit (UInt64.lt_of_le_of_lt ?_ short) _
        rw [UInt64.le_iff_toNat_le, UInt64.toNat_sub_of_le _ _ le]
        exact Nat.sub_le _ _

/-! ## Commands -/

/-- The command is not about somebody else who uses the clock, restores nothing, and does not move the
clock further than it can tell from a step backwards. -/
def Command.IsBrief : Command → Prop
  | .increment cycles | .tick cycles | .advance cycles => cycles < Clock.horizon
  | .placeDeadline _ | .restore _ => False
  | _ => True

theorem Command.IsBrief.isOwn {command : Command} (brief : command.IsBrief) : command.IsOwn := by
  cases command with
  | placeDeadline cycles => exact brief
  | _ => trivial

theorem Command.IsBrief.respects {command : Command} (brief : command.IsBrief) :
    command.Respects fun _ => False := by
  cases command with
  | restore saved => exact brief
  | _ => trivial

theorem perform_failsAtTransfers (fit : IsFit settings block) {command : Command}
    (brief : command.IsBrief) : FailsAtTransfers settings (block.perform command) := by
  cases command with
  | read width address =>
      exact .bind (read_failsAtTransfers block width address) (.trivial _) fun _ _ => .pure _
  | write width address value =>
      exact .bind (write_failsAtTransfers fit width address value) (.trivial _) fun _ _ => .pure _
  | poll => exact .bind (poll_failsAtTransfers fit) (.trivial _) fun _ _ => .pure _
  | reset => exact .bind (reset_failsAtTransfers block) (.trivial _) fun _ _ => .pure _
  | increment cycles =>
      obtain ⟨result, moved⟩ := block.increment_ok brief
      exact .bind (.except moved) (.trivial _) fun _ _ => .pure _
  | tick cycles => exact .bind (tick_failsAtTransfers fit brief) (.trivial _) fun _ _ => .pure _
  | advance cycles =>
      exact .bind (hop_failsAtTransfers _ fit brief false) (.trivial _) fun _ _ => .pure _
  | raiseInterrupt source =>
      refine .bind (.traced (.bind (.bind ?_ (.pure _)) (.pure _))) (.trivial _) fun _ _ => .pure _
      exact .bind (Interrupt.Controller.drive_isHarmless _) (.pure _)
  | receive uart byte =>
      refine .bind (onUartAt_failsAtTransfers uart fun index => ?_) (.trivial _) fun _ _ => .pure _
      refine .bind (.traced ?_) (.trivial _) fun _ _ => .pure _
      exact Uart.receive_hasNoTransfer block.uarts[index] byte
  | setLine uart high =>
      refine .bind (onUartAt_failsAtTransfers uart fun index => ?_) (.trivial _) fun _ _ => .pure _
      obtain ⟨result, done⟩ := block.uarts[index].setLine_ok block.clock high
      exact .bind (.except done) (.trivial _) fun _ _ => .pure _
  | startTransfer channel source target count control =>
      refine .bind (onDma_failsAtTransfers ?_) (.trivial _) fun _ _ => .pure _
      refine .bind ?_ (.trivial _) fun _ _ => .pure _
      exact Dma.start_failsAtTransfers fit.speed block.clock block.memory channel source target count
        control
  | placeDeadline cycles => exact brief.elim
  | restore saved => exact brief.elim

/-- Commands one after the other fail at most at a transfer. -/
theorem performAll_failsAtTransfers (fit : IsFit settings block) {commands : List Command}
    (brief : ∀ command ∈ commands, command.IsBrief) :
    FailsAtTransfers settings (block.performAll commands) := by
  induction commands generalizing block with
  | nil => exact .pure _
  | cons command rest ih =>
      have first := brief command List.mem_cons_self
      refine .bind (perform_failsAtTransfers fit first)
        ((isFit_lasting settings).perform fit first.isOwn first.respects) ?_
      rintro ⟨response, between⟩ fit
      refine .bind (ih fit fun other listed => brief other (List.mem_cons_of_mem _ listed))
        (.trivial _) fun _ _ => .pure _

/-- How a run of commands on a block of the settings goes. -/
structure Endures (settings : Settings) (run : Run Event (List Response × Block μ)) : Prop where
  /-- The run comes to its end exactly if no transfer begins that takes too long for a deadline. -/
  ends_iff : (∃ result, run.outcome = .ok result) ↔
    ∀ event ∈ run.signals, ¬event.IsOverlong settings.dmaCycles
  /-- Otherwise such a transfer is the last thing that is heard. -/
  fails : ∀ fault, run.outcome = .error fault → fault = .deadlineTooFar ∧
    ∃ earlier last, run.signals = earlier ++ [last] ∧ last.IsOverlong settings.dmaCycles
  /-- There is none if a transfer of the greatest count is short enough. -/
  ends_of_short : 0xffffffff * settings.dmaCycles.toNat < Clock.horizon.toNat →
    ∃ result, run.outcome = .ok result
  /-- Any deadline that the block could cancel was issued by its clock. -/
  cancels : ∀ responses after, run.outcome = .ok (responses, after) → ∀ deadline ∈ after.held,
    after.clock.cancel deadline = .ok (after.clock.drop deadline)

/-- Whatever is done to a block but to restore it, without moving the clock further than it can tell
from a step backwards, fails only where a transfer begins that takes too long for a deadline. Every
access stays within its bank and its word, and leads to a part that there is. -/
theorem performAll_endures (settings : Settings) {clock : Clock} (used : clock.Used) (memory : μ)
    {commands : List Command} (brief : ∀ command ∈ commands, command.IsBrief) :
    Endures settings ((initial settings clock memory).performAll commands) ∧
      (∀ (table : List Register) (bank : Bank table) (width : Width) (address value : UInt32)
        (selection : Selection table), Selection.find? table width address = some selection →
          bank.readChecked selection.index selection.lane = .ok (bank.read selection) ∧
            bank.writeChecked selection.index selection.lane value
              = .ok (bank.write selection value)) ∧
      ∀ (address offset : UInt32) (part : Part), route? address = some (part, offset) →
        (∀ index, part = .timer index →
          index.val = ((address - timerBase) / Timer.stride).toNat) ∧
        ∀ index, part = .uart index → index.val = ((address - uartBase) / Uart.stride).toNat := by
  have fails := performAll_failsAtTransfers (isFit_initial settings clock memory) brief
  have native := (isNative_initial used.isOwn settings memory).performAll commands
  refine ⟨?_, ?_, fun _ _ _ => number_of_route?⟩
  · exact {
      ends_iff := fails.ends_iff
      fails := fails.reason_eq
      ends_of_short := fun short => fails.ends_iff.2 fun event _ => event.not_isOverlong short
      cancels := fun responses after done _ => (native (responses, after) done).cancel_ok }
  · intro table bank width address value selection found
    exact Bank.checked_of_find? found bank value

/-- A program that asks for one unit, on a board where that unit takes half of the counter. -/
theorem performAll_endures_overlong :
    (∀ command ∈ [Command.write .word 0x1008 1, .write .word 0x100c 0x400], command.IsBrief) ∧
      ((initial { dmaCycles := 0x7fffffffffffffff } {} Ram.empty).performAll
        [.write .word 0x1008 1, .write .word 0x100c 0x400]).outcome = .error .deadlineTooFar ∧
      ∃ event ∈ ((initial { dmaCycles := 0x7fffffffffffffff } {} Ram.empty).performAll
        [.write .word 0x1008 1, .write .word 0x100c 0x400]).signals,
          event.IsOverlong 0x7fffffffffffffff := by
  have brief : ∀ command ∈ [Command.write .word 0x1008 1, .write .word 0x100c 0x400],
      command.IsBrief := by
    simp [Command.IsBrief]
  have failed : ((initial { dmaCycles := 0x7fffffffffffffff } {} Ram.empty).performAll
      [.write .word 0x1008 1, .write .word 0x100c 0x400]).outcome = .error .deadlineTooFar := rfl
  obtain ⟨endures, _, _⟩ :=
    performAll_endures { dmaCycles := 0x7fffffffffffffff } (.fresh 0 0) Ram.empty brief
  obtain ⟨_, earlier, last, signals, overlong⟩ := endures.fails _ failed
  refine ⟨brief, failed, last, ?_, overlong⟩
  rw [signals]
  exact List.mem_append_right _ (List.mem_singleton_self last)

end Block

end SocPeripherals
