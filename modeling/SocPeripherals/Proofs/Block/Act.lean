import SocPeripherals.Block.Command
import SocPeripherals.Proofs.Dma.Channel
import SocPeripherals.Proofs.Dma.Engine
import SocPeripherals.Proofs.Interrupt
import SocPeripherals.Proofs.Timer
import SocPeripherals.Proofs.Uart
import Mathlib.Logic.Relation

/-!
# What the block does at one cycle

Between two moves of its clock a block lets its parts act one after the other. `Act` lists what
one part does, so that whatever every act preserves, every command preserves.
-/

namespace SocPeripherals

namespace Block

variable {μ : Type} [Bus μ]

/-- One part of the block acts. Only what is saved in a restorable snapshot is restored. -/
inductive Act (restorable : Snapshot → Prop) (block : Block μ) : Block μ → Prop where
  | misc {misc : Bank miscRegisters} (resets : misc.resets = block.misc.resets)
      (fits : block.misc.Fits → misc.Fits) : Act restorable block { block with misc }
  | controller {controller : Interrupt.Controller}
      (does : Interrupt.Controller.Does (fun part => ∃ saved, restorable saved ∧
        part = saved.controller) block.controller controller) :
      Act restorable block { block with controller }
  | timer (index : Fin timerCount) {timer : Timer} {clock : Clock}
      (does : Timer.Does (fun part => ∃ saved, restorable saved ∧ part ∈ saved.timers)
        block.timers[index] block.clock timer clock) :
      Act restorable block { block with clock, timers := block.timers.set index timer index.isLt }
  | uart (index : Fin uartCount) {uart : Uart} {clock : Clock}
      (does : Uart.Does (fun part => ∃ saved, restorable saved ∧ part ∈ saved.uarts)
        block.uarts[index] block.clock uart clock) :
      Act restorable block { block with clock, uarts := block.uarts.set index uart index.isLt }
  | channel (index : Fin Dma.channelCount) {channel : Dma.Channel} {clock : Clock} {memory : μ}
      (does : Dma.Channel.Does (fun part => ∃ saved, restorable saved ∧ part ∈ saved.dma)
        block.dma.channels[index] block.clock block.memory channel clock memory) :
      Act restorable block { block with clock, memory, dma := block.dma.set index channel }

/-- Some acts, one after the other. -/
abbrev Acts (restorable : Snapshot → Prop) : Block μ → Block μ → Prop :=
  Relation.ReflTransGen (Act restorable)

variable (restorable : Snapshot → Prop) {block after : Block μ} {α : Type}

/-! ## Letting a part act -/

omit [Bus μ] in
/-- A timer that acts changes itself, the clock and the controller. -/
theorem onTimer_ensures (index : Fin timerCount)
    {action : Timer → Clock → Run Signal (α × Timer × Clock)} (holds : Timer → Clock → Prop)
    (ensured : (action block.timers[index] block.clock).Ensures fun (_, timer, clock) =>
      holds timer clock) :
    (block.onTimer index action).Ensures fun (_, after) => ∃ timer clock,
      holds timer clock ∧ after = { block with
        clock
        controller :=
          (block.controller.hearAll (action block.timers[index] block.clock).signals).value
        timers := block.timers.set index timer index.isLt } := by
  unfold onTimer
  refine .bind (block.controller.relay_ensures ensured) ?_
  rintro ⟨⟨answer, timer, clock⟩, _⟩ ⟨did, rfl⟩
  exact .pure ⟨timer, clock, did, rfl⟩

omit [Bus μ] in
/-- A serial interface that acts changes itself, the clock and the controller. -/
theorem onUart_ensures (index : Fin uartCount)
    {action : Uart → Clock → Run Signal (α × Uart × Clock)} (holds : Uart → Clock → Prop)
    (ensured : (action block.uarts[index] block.clock).Ensures fun (_, uart, clock) =>
      holds uart clock) :
    (block.onUart index action).Ensures fun (_, after) => ∃ uart clock,
      holds uart clock ∧ after = { block with
        clock
        controller :=
          (block.controller.hearAll (action block.uarts[index] block.clock).signals).value
        uarts := block.uarts.set index uart index.isLt } := by
  unfold onUart
  refine .bind (block.controller.relay_ensures ensured) ?_
  rintro ⟨⟨answer, uart, clock⟩, _⟩ ⟨did, rfl⟩
  exact .pure ⟨uart, clock, did, rfl⟩

omit [Bus μ] in
/-- The engine that acts changes itself, its memory, the clock and the controller. -/
theorem onDma_ensures {action : Dma.Attached μ → Clock → Run Signal (α × Dma.Attached μ × Clock)}
    (holds : Dma → μ → Clock → Prop)
    (ensured : (action ⟨block.dma, block.memory⟩ block.clock).Ensures fun (_, attached, clock) =>
      holds attached.dma attached.memory clock) :
    (block.onDma action).Ensures fun (_, after) => ∃ dma memory clock,
      holds dma memory clock ∧ after = { block with
        clock, dma, memory
        controller := (block.controller.hearAll
          (action ⟨block.dma, block.memory⟩ block.clock).signals).value } := by
  unfold onDma
  refine .bind (block.controller.relay_ensures ensured) ?_
  rintro ⟨⟨answer, attached, clock⟩, _⟩ ⟨did, rfl⟩
  exact .pure ⟨attached.dma, attached.memory, clock, did, rfl⟩

theorem onTimer_acts (index : Fin timerCount)
    {action : Timer → Clock → Run Signal (α × Timer × Clock)}
    (does : (action block.timers[index] block.clock).Ensures fun (_, timer, clock) =>
      Timer.Does (fun part => ∃ saved, restorable saved ∧ part ∈ saved.timers)
        block.timers[index] block.clock timer clock) :
    (block.onTimer index action).Ensures fun (_, after) => Acts restorable block after := by
  refine (onTimer_ensures index _ does).imp ?_
  rintro ⟨answer, _⟩ ⟨timer, clock, did, rfl⟩
  exact .tail (.single (.timer index did)) (.controller (.hear _))

theorem onUart_acts (index : Fin uartCount)
    {action : Uart → Clock → Run Signal (α × Uart × Clock)}
    (does : (action block.uarts[index] block.clock).Ensures fun (_, uart, clock) =>
      Uart.Does (fun part => ∃ saved, restorable saved ∧ part ∈ saved.uarts)
        block.uarts[index] block.clock uart clock) :
    (block.onUart index action).Ensures fun (_, after) => Acts restorable block after := by
  refine (onUart_ensures index _ does).imp ?_
  rintro ⟨answer, _⟩ ⟨uart, clock, did, rfl⟩
  exact .tail (.single (.uart index did)) (.controller (.hear _))

/-- The block with another engine, memory and clock. -/
def withDma (block : Block μ) (dma : Dma) (memory : μ) (clock : Clock) : Block μ :=
  { block with clock, memory, dma }

theorem onDma_acts {action : Dma.Attached μ → Clock → Run Signal (α × Dma.Attached μ × Clock)}
    (does : (action ⟨block.dma, block.memory⟩ block.clock).Ensures fun (_, attached, clock) =>
      Acts restorable block (block.withDma attached.dma attached.memory clock)) :
    (block.onDma action).Ensures fun (_, after) => Acts restorable block after := by
  refine (onDma_ensures (fun dma memory clock =>
    Acts restorable block (block.withDma dma memory clock)) does).imp ?_
  rintro ⟨answer, _⟩ ⟨dma, memory, clock, did, rfl⟩
  exact .tail did (.controller (.hear _))

/-! ## The engine -/

theorem dmaPoll_acts (block : Block μ) :
    Acts restorable block (block.withDma (block.dma.poll block.clock block.memory).value.1
      (block.dma.poll block.clock block.memory).value.2.2
      (block.dma.poll block.clock block.memory).value.2.1) :=
  .tail (.single (.channel 0 .poll)) (.channel 1 .poll)

theorem dmaReset_acts (block : Block μ) :
    Acts restorable block (block.withDma (block.dma.reset block.clock).1 block.memory
      (block.dma.reset block.clock).2) :=
  .tail (.single (.channel 0 .reset)) (.channel 1 .reset)

theorem dmaRead_acts (block : Block μ) (width : Width) (address : UInt32) :
    Acts restorable block
      (block.withDma (block.dma.read block.clock block.memory width address).value.2.1
        (block.dma.read block.clock block.memory width address).value.2.2.2
        (block.dma.read block.clock block.memory width address).value.2.2.1) := by
  unfold Dma.read
  split
  next => exact .refl
  next index offset _ => exact .single (.channel index (.read width offset))

theorem dmaWrite_acts (block : Block μ) (width : Width) (address value : UInt32) :
    (block.dma.write block.clock block.memory width address value).Ensures
      fun (dma, clock, memory) => Acts restorable block (block.withDma dma memory clock) := by
  unfold Dma.write
  split
  next => exact .bind (.trivial _) fun _ _ => .pure .refl
  next index offset _ =>
    rintro ⟨dma, clock, memory⟩ done
    obtain ⟨⟨channel, later, memory'⟩, wrote, same⟩ := Run.outcome_bind_eq_ok.1 done
    cases same
    exact .single (.channel index (.write width offset value wrote))

theorem dmaStart_acts (block : Block μ) (number : Nat) (source target count control : UInt32) :
    (block.dma.start block.clock block.memory number source target count control).Ensures
      fun (_, dma, clock, memory) => Acts restorable block (block.withDma dma memory clock) := by
  unfold Dma.start
  split
  next => exact .pure .refl
  next index _ =>
    rintro ⟨answer, dma, clock, memory⟩ done
    obtain ⟨⟨answer', channel, later, memory'⟩, started, same⟩ := Run.outcome_bind_eq_ok.1 done
    cases same
    exact .single (.channel index (.start source target count control started))

theorem dmaRestoreChannel_acts {saved : Snapshot} (own : restorable saved) {part : Dma.Snapshot}
    (listed : part ∈ saved.dma) (index : Fin Dma.channelCount) {dma : Dma} {clock : Clock}
    {answer : Except DeviceError Unit}
    (done : block.dma.restoreChannel block.clock index part = .ok (answer, dma, clock)) :
    Acts restorable block (block.withDma dma block.memory clock) := by
  obtain ⟨channel, restored, rfl⟩ := Dma.of_restoreChannel done
  exact .single (.channel index (.restore ⟨saved, own, listed⟩ restored))

theorem dmaRestore_acts {saved : Snapshot} (own : restorable saved) {dma : Dma} {clock : Clock}
    {answer : Except DeviceError Unit}
    (done : block.dma.restore block.clock saved.dma = .ok (answer, dma, clock)) :
    Acts restorable block (block.withDma dma block.memory clock) := by
  obtain ⟨-, rfl, rfl⟩ | ⟨first, second, parts, taken⟩ := Dma.of_restore done
  · exact .refl
  have listed : first ∈ saved.dma := parts ▸ List.mem_cons_self
  have listedNext : second ∈ saved.dma := parts ▸ List.mem_cons_of_mem _ List.mem_cons_self
  obtain ⟨_, rfl, refused⟩ | ⟨between, middle, restored, done⟩ := taken
  · exact dmaRestoreChannel_acts restorable own listed 0 refused
  · refine (dmaRestoreChannel_acts restorable own listed 0 restored).trans ?_
    exact dmaRestoreChannel_acts restorable own listedNext 1 done

/-! ## Commands -/

/-- Steps over a list of parts, each of which is some acts. -/
theorem foldlM_acts {ι : Type} {step : Block μ → ι → Run Event (Block μ)}
    (acts : ∀ block part, (step block part).Ensures fun after => Acts restorable block after)
    (parts : List ι) (block : Block μ) :
    (parts.foldlM step block).Ensures fun after => Acts restorable block after := by
  induction parts generalizing block with
  | nil => exact .pure .refl
  | cons part rest ih =>
      rw [List.foldlM_cons]
      refine .bind (acts block part) fun between first => ?_
      exact (ih between).imp fun _ second => first.trans second

omit [Bus μ] in
theorem pollTimer_ensures (block : Block μ) (index : Fin timerCount) :
    (block.pollTimer index).Ensures fun after => ∃ timer clock signals,
      (block.timers[index].poll block.clock).outcome = .ok (timer, clock) ∧
        after = { block with
          clock
          controller := (block.controller.hearAll signals).value
          timers := block.timers.set index timer index.isLt } := by
  refine .bind (onTimer_ensures index (fun timer clock =>
    (block.timers[index].poll block.clock).outcome = .ok (timer, clock)) ?_) ?_
  · refine .bind (.own _) ?_
    rintro ⟨timer, clock⟩ done
    exact .pure done
  · rintro ⟨_, _⟩ ⟨timer, clock, polled, rfl⟩
    exact .pure ⟨timer, clock, _, polled, rfl⟩

omit [Bus μ] in
theorem pollUart_ensures (block : Block μ) (index : Fin uartCount) :
    (block.pollUart index).Ensures fun after => ∃ signals,
      after = { block with
        controller := (block.controller.hearAll signals).value
        uarts := block.uarts.set index (block.uarts[index].poll block.clock).value
          index.isLt } := by
  refine .bind (onUart_ensures index (fun uart clock =>
    uart = (block.uarts[index].poll block.clock).value ∧ clock = block.clock) ?_) ?_
  · refine .bind (.traced _) ?_
    rintro _ rfl
    exact .pure ⟨rfl, rfl⟩
  · rintro ⟨_, _⟩ ⟨uart, clock, ⟨rfl, rfl⟩, rfl⟩
    exact .pure ⟨_, rfl⟩

theorem pollTimer_acts (block : Block μ) (index : Fin timerCount) :
    (block.pollTimer index).Ensures fun after => Acts restorable block after := by
  refine (pollTimer_ensures block index).imp ?_
  rintro _ ⟨timer, clock, signals, polled, rfl⟩
  exact .tail (.single (.timer index (.poll polled))) (.controller (.hear signals))

theorem pollUart_acts (block : Block μ) (index : Fin uartCount) :
    (block.pollUart index).Ensures fun after => Acts restorable block after := by
  refine (pollUart_ensures block index).imp ?_
  rintro _ ⟨signals, rfl⟩
  exact .tail (.single (.uart index .poll)) (.controller (.hear signals))

theorem poll_acts (block : Block μ) :
    block.poll.Ensures fun after => Acts restorable block after := by
  unfold poll
  refine .bind (foldlM_acts restorable (pollTimer_acts restorable) _ block) fun first timers => ?_
  refine .bind (foldlM_acts restorable (pollUart_acts restorable) _ first) fun second uarts => ?_
  refine .bind (onDma_acts restorable ?_) fun _ channels =>
    .pure ((timers.trans uarts).trans channels)
  refine .bind (.traced _) ?_
  rintro _ rfl
  exact .pure (dmaPoll_acts restorable second)

theorem resetTimer_acts (block : Block μ) (index : Fin timerCount) :
    (block.resetTimer index).Ensures fun after => Acts restorable block after :=
  .bind (onTimer_acts restorable index (.pure .reset)) fun _ acts => .pure acts

theorem resetUart_acts (block : Block μ) (index : Fin uartCount) :
    (block.resetUart index).Ensures fun after => Acts restorable block after :=
  .bind (onUart_acts restorable index (.pure .reset)) fun _ acts => .pure acts

theorem reset_acts (block : Block μ) :
    block.reset.Ensures fun after => Acts restorable block after := by
  unfold reset
  refine .bind (foldlM_acts restorable (resetTimer_acts restorable) _ block) fun first timers => ?_
  refine .bind (foldlM_acts restorable (resetUart_acts restorable) _ first) fun second uarts => ?_
  refine .bind (onDma_acts restorable (.pure (dmaReset_acts restorable second))) ?_
  rintro ⟨_, third⟩ channels
  refine .bind (.traced _) ?_
  rintro _ rfl
  have cleared : Act restorable third { third with misc := third.misc.reset } :=
    .misc rfl Bank.Fits.reset
  exact .pure ((((timers.trans uarts).trans channels).tail cleared).tail
    (.controller .reset))

theorem readMisc_acts (block : Block μ) (width : Width) (offset : UInt32) :
    Acts restorable block (block.readMisc width offset).value.2 := by
  unfold readMisc
  rw [Traced.value_bind, Selection.value_noted]
  split
  next => exact .refl
  next selection _ =>
    exact .single (.misc (Bank.resets_read _ selection) fun fits => fits.read selection)

theorem writeMisc_acts (block : Block μ) (width : Width) (offset value : UInt32) :
    Acts restorable block (block.writeMisc width offset value).value := by
  unfold writeMisc
  rw [Traced.value_bind, Selection.value_noted]
  split
  next => exact .refl
  next selection found =>
    exact .single (.misc (Bank.resets_write _ selection value) fun fits =>
      fits.write (Selection.proper_of_find? found) value)

theorem readPart_acts (block : Block μ) (width : Width) (offset : UInt32) (part : Part) :
    (block.readPart width offset part).Ensures fun (_, after) => Acts restorable block after := by
  cases part with
  | misc =>
      refine (Run.Ensures.traced _).imp ?_
      rintro _ rfl
      exact readMisc_acts restorable block width offset
  | controller =>
      refine (Run.Ensures.traced _).imp ?_
      rintro _ rfl
      exact .single (.controller (.read width offset))
  | dma =>
      refine onDma_acts restorable (.bind (.traced _) ?_)
      rintro _ rfl
      exact .pure (dmaRead_acts restorable block width offset)
  | timer index =>
      refine onTimer_acts restorable index (.bind (.traced _) ?_)
      rintro _ rfl
      exact .pure (.read width offset)
  | uart index =>
      refine onUart_acts restorable index (.bind (.traced _) ?_)
      rintro _ rfl
      exact .pure (.read width offset)

theorem writePart_acts (block : Block μ) (width : Width) (offset value : UInt32) (part : Part) :
    (block.writePart width offset value part).Ensures fun (_, after) =>
      Acts restorable block after := by
  cases part with
  | misc =>
      refine .bind (.traced _) ?_
      rintro _ rfl
      exact .pure (writeMisc_acts restorable block width offset value)
  | controller =>
      refine (Run.Ensures.traced _).imp ?_
      rintro _ rfl
      exact .single (.controller (.write width offset value))
  | dma =>
      refine onDma_acts restorable (.bind (dmaWrite_acts restorable block width offset value) ?_)
      rintro ⟨dma, clock, memory⟩ acts
      exact .pure acts
  | timer index =>
      refine onTimer_acts restorable index (.bind (.own _) ?_)
      rintro ⟨timer, clock⟩ done
      exact .pure (.write width offset value done)
  | uart index =>
      refine onUart_acts restorable index (.bind (.own _) ?_)
      rintro ⟨uart, clock⟩ done
      exact .pure (.write width offset value done)

theorem read_acts (block : Block μ) (width : Width) (address : UInt32) :
    (block.read width address).Ensures fun (_, after) => Acts restorable block after := by
  unfold read
  split
  next => exact .bind (.trivial _) fun _ _ => .pure .refl
  next =>
    split
    next => exact .bind (.trivial _) fun _ _ => .pure .refl
    next part offset _ =>
      exact .bind (readPart_acts restorable block width offset part) fun _ acts => .pure acts

theorem write_acts (block : Block μ) (width : Width) (address value : UInt32) :
    (block.write width address value).Ensures fun (_, after) => Acts restorable block after := by
  unfold write
  split
  next => exact .bind (.trivial _) fun _ _ => .pure .refl
  next =>
    split
    next => exact .bind (.trivial _) fun _ _ => .pure .refl
    next part offset _ =>
      exact .bind (writePart_acts restorable block width offset value part) fun _ acts =>
        .pure acts

theorem onUartAt_acts (number : Nat) {action : Uart → Clock → Run Signal (Unit × Uart × Clock)}
    (does : ∀ index : Fin uartCount,
      (action block.uarts[index] block.clock).Ensures fun (_, uart, clock) =>
        Uart.Does (fun part => ∃ saved, restorable saved ∧ part ∈ saved.uarts)
          block.uarts[index] block.clock uart clock) :
    (block.onUartAt number action).Ensures fun (_, after) => Acts restorable block after := by
  unfold onUartAt
  split
  next => exact .pure .refl
  next index _ =>
    exact .bind (onUart_acts restorable index (does index)) fun _ acts => .pure acts

theorem receive_acts (block : Block μ) (number : Nat) (byte : UInt8) :
    (block.receive number byte).Ensures fun (_, after) => Acts restorable block after := by
  refine onUartAt_acts restorable number fun index => .bind (.traced _) ?_
  rintro _ rfl
  exact .pure (.receive byte)

theorem setLine_acts (block : Block μ) (number : Nat) (high : Bool) :
    (block.setLine number high).Ensures fun (_, after) => Acts restorable block after := by
  refine onUartAt_acts restorable number fun index => .bind (.except _) ?_
  rintro ⟨uart, clock⟩ done
  exact .pure (.setLine high done)

theorem startTransfer_acts (block : Block μ) (channel : Nat)
    (source target count control : UInt32) :
    (block.startTransfer channel source target count control).Ensures fun (_, after) =>
      Acts restorable block after := by
  refine onDma_acts restorable
    (.bind (dmaStart_acts restorable block channel source target count control) ?_)
  rintro ⟨answer, dma, clock, memory⟩ acts
  exact .pure acts

theorem raiseInterrupt_acts (block : Block μ) (source : UInt8) :
    Acts restorable block (block.raiseInterrupt source).value :=
  .single (.controller (.hear [.interrupt source]))

/-! ## Restoring -/

theorem restoreAll_acts {steps : List (Restoration μ)}
    (acts : ∀ step ∈ steps, ∀ block, (step block).Ensures fun (_, after) =>
      Acts restorable block after) (block : Block μ) :
    (restoreAll steps block).Ensures fun (_, after) => Acts restorable block after := by
  induction steps generalizing block with
  | nil => exact .pure .refl
  | cons step rest ih =>
      unfold restoreAll
      refine .bind (acts step List.mem_cons_self block) ?_
      rintro ⟨answer, between⟩ first
      cases answer with
      | error error => exact .pure first
      | ok =>
          refine (ih (fun step listed => acts step (List.mem_cons_of_mem _ listed)) between).imp ?_
          rintro ⟨answer, after⟩ second
          exact first.trans second

theorem restoreMisc_acts (saved : List UInt32) (block : Block μ) :
    (restoreMisc saved block).Ensures fun (_, after) => Acts restorable block after := by
  unfold restoreMisc
  split
  next => exact .pure .refl
  next misc loaded =>
    exact .pure (.single (.misc (Bank.resets_of_load? loaded) fun fits => fits.load? loaded))

theorem restorations_acts {saved : Snapshot} (own : restorable saved) {step : Restoration μ}
    (listed : step ∈ restorations saved) (block : Block μ) :
    (step block).Ensures fun (_, after) => Acts restorable block after := by
  simp only [restorations, List.mem_append, List.mem_cons, List.mem_map, List.not_mem_nil,
    or_false] at listed
  rcases listed with (((rfl | rfl) | ⟨⟨index, part⟩, zipped, rfl⟩) | ⟨⟨index, part⟩, zipped, rfl⟩)
    | rfl
  · exact restoreMisc_acts restorable saved.misc block
  · refine (Run.Ensures.traced _).imp ?_
    rintro _ rfl
    exact .single (.controller (.restore ⟨saved, own, rfl⟩))
  · refine onTimer_acts restorable index ((Run.Ensures.own _).imp ?_)
    rintro ⟨answer, timer, clock⟩ done
    exact .restore ⟨saved, own, (List.of_mem_zip zipped).2⟩ done
  · refine onUart_acts restorable index ((Run.Ensures.except _).imp ?_)
    rintro ⟨answer, uart, clock⟩ done
    exact .restore ⟨saved, own, (List.of_mem_zip zipped).2⟩ done
  · refine onDma_acts restorable (.bind (.except _) ?_)
    rintro ⟨answer, dma, clock⟩ done
    exact .pure (dmaRestore_acts restorable own done)

theorem restore_acts {saved : Snapshot} (own : restorable saved) (block : Block μ) :
    (block.restore saved).Ensures fun (_, after) => Acts restorable block after := by
  unfold restore
  split
  next => exact .pure .refl
  next =>
    exact restoreAll_acts restorable (fun step listed => restorations_acts restorable own listed)
      block

/-- The command leaves the clock's counter and the deadlines of others alone. -/
def Command.IsLocal : Command → Prop
  | .increment _ | .tick _ | .advance _ | .placeDeadline _ => False
  | _ => True

/-- The command restores nothing but what may be restored. -/
def Command.Respects (restorable : Snapshot → Prop) : Command → Prop
  | .restore saved => restorable saved
  | _ => True

theorem perform_acts {command : Command} (at_once : command.IsLocal)
    (respects : command.Respects restorable) (block : Block μ) :
    (block.perform command).Ensures fun (_, after) => Acts restorable block after := by
  cases command with
  | read width address =>
      exact .bind (read_acts restorable block width address) fun _ acts => .pure acts
  | write width address value =>
      exact .bind (write_acts restorable block width address value) fun _ acts => .pure acts
  | poll => exact .bind (poll_acts restorable block) fun _ acts => .pure acts
  | reset => exact .bind (reset_acts restorable block) fun _ acts => .pure acts
  | increment cycles => exact at_once.elim
  | tick cycles => exact at_once.elim
  | advance cycles => exact at_once.elim
  | raiseInterrupt source =>
      refine .bind (.traced _) ?_
      rintro _ rfl
      exact .pure (raiseInterrupt_acts restorable block source)
  | receive uart byte =>
      exact .bind (receive_acts restorable block uart byte) fun _ acts => .pure acts
  | setLine uart high =>
      exact .bind (setLine_acts restorable block uart high) fun _ acts => .pure acts
  | startTransfer channel source target count control =>
      exact .bind (startTransfer_acts restorable block channel source target count control)
        fun _ acts => .pure acts
  | placeDeadline cycles => exact at_once.elim
  | restore saved =>
      exact .bind (restore_acts restorable respects block) fun _ acts => .pure acts

end Block

end SocPeripherals
