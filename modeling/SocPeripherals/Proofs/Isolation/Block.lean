import SocPeripherals.Proofs.Dma.Engine
import SocPeripherals.Proofs.Faults.Block
import SocPeripherals.Proofs.Isolation.Devices
import SocPeripherals.Proofs.Isolation.Owners

/-!
# What a bus access can change

An access beside the window or beside its registers changes nothing. A write to a register changes
the instance that owns it and no other, however wide the access is and wherever in the register it
begins. A read changes what it is defined to take: the status bits that it shows, a received byte,
and what a channel has fallen behind with.
-/

namespace SocPeripherals

namespace Block

variable {μ α : Type} {block after : Block μ}

/-- The deadlines that an instance holds. -/
def Owner.held (block : Block μ) : Owner → Multiset Deadline
  | .misc | .controller => 0
  | .channel index => block.dma.channels[index].held
  | .timer index => block.timers[index].held
  | .uart index => block.uarts[index].held

/-- What the interrupt controller may come to while an instance is used. Only a channel asks for an
interrupt, which makes its own source pending and drives the line. -/
def Owner.MayPost (block : Block μ) (controller : Interrupt.Controller) : Owner → Prop
  | .controller => True
  | .channel index => controller = block.controller ∨
      controller = (block.controller.post block.dma.channels[index].source).value
  | .misc | .timer _ | .uart _ => controller = block.controller

/-- Nothing has changed but what belongs to an instance. The host's memory belongs to the
channels. -/
structure Confined (owner : Owner) (block after : Block μ) : Prop where
  clock : block.clock.Spares (owner.held block) (owner.held after) after.clock
  memory : (∀ index, owner ≠ .channel index) → after.memory = block.memory
  misc : owner ≠ .misc → after.misc = block.misc
  controller : owner.MayPost block after.controller
  timers : ∀ index : Fin timerCount, owner ≠ .timer index →
    after.timers[index] = block.timers[index]
  uarts : ∀ index : Fin uartCount, owner ≠ .uart index → after.uarts[index] = block.uarts[index]
  channels : ∀ index : Fin Dma.channelCount, owner ≠ .channel index →
    after.dma.channels[index] = block.dma.channels[index]

/-! ## Confined use -/

theorem Confined.ofMisc (misc : Bank miscRegisters) :
    Confined .misc block { block with misc } where
  clock := .refl 0 block.clock
  memory _ := rfl
  misc apart := absurd rfl apart
  controller := rfl
  timers _ _ := rfl
  uarts _ _ := rfl
  channels _ _ := rfl

theorem Confined.ofController (controller : Interrupt.Controller) :
    Confined .controller block { block with controller } where
  clock := .refl 0 block.clock
  memory _ := rfl
  misc _ := rfl
  controller := trivial
  timers _ _ := rfl
  uarts _ _ := rfl
  channels _ _ := rfl

theorem onTimer_confined (index : Fin timerCount)
    {action : Timer → Clock → Run Signal (α × Timer × Clock)}
    (tells : (action block.timers[index] block.clock).Tells fun (_, timer, clock) =>
      block.clock.Minds Interrupt.noSource block.timers[index].held timer.held clock) :
    (block.onTimer index action).Ensures fun (_, after) => Confined (.timer index) block after := by
  unfold onTimer
  refine .bind (block.controller.relay_ensures tells.ensures) ?_
  rintro ⟨⟨answer, timer, clock⟩, controller⟩ ⟨minds, rfl⟩
  generalize (action block.timers[index] block.clock).signals = signals at minds ⊢
  have quiet := block.controller.hearAll_of_quiet (minds.quiet)
  refine .pure { memory := fun _ => rfl, misc := fun _ => rfl, uarts := fun _ _ => rfl
                 channels := fun _ _ => rfl, controller := quiet, clock := ?_, timers := ?_ }
  · have own : Owner.held { block with
        clock, controller := (block.controller.hearAll signals).value
        timers := block.timers.set index timer index.isLt } (.timer index) = timer.held :=
      congrArg Timer.held (Parts.getElem_set_self block.timers index timer)
    dsimp only
    rw [own]
    exact minds.toSpares
  · intro other apart
    exact Parts.getElem_set_of_ne _ _ fun same => apart (congrArg Owner.timer same)

theorem onUart_confined (index : Fin uartCount)
    {action : Uart → Clock → Run Signal (α × Uart × Clock)}
    (tells : (action block.uarts[index] block.clock).Tells fun (_, uart, clock) =>
      block.clock.Minds Interrupt.noSource block.uarts[index].held uart.held clock) :
    (block.onUart index action).Ensures fun (_, after) => Confined (.uart index) block after := by
  unfold onUart
  refine .bind (block.controller.relay_ensures tells.ensures) ?_
  rintro ⟨⟨answer, uart, clock⟩, controller⟩ ⟨minds, rfl⟩
  generalize (action block.uarts[index] block.clock).signals = signals at minds ⊢
  have quiet := block.controller.hearAll_of_quiet (minds.quiet)
  refine .pure { memory := fun _ => rfl, misc := fun _ => rfl, timers := fun _ _ => rfl
                 channels := fun _ _ => rfl, controller := quiet, clock := ?_, uarts := ?_ }
  · have own : Owner.held { block with
        clock, controller := (block.controller.hearAll signals).value
        uarts := block.uarts.set index uart index.isLt } (.uart index) = uart.held :=
      congrArg Uart.held (Parts.getElem_set_self block.uarts index uart)
    dsimp only
    rw [own]
    exact minds.toSpares
  · intro other apart
    exact Parts.getElem_set_of_ne _ _ fun same => apart (congrArg Owner.uart same)

/-- What a channel comes to that is used, with the memory, the clock and what is heard. -/
theorem Confined.ofChannel (index : Fin Dma.channelCount) {channel : Dma.Channel} {clock : Clock}
    {signals : List Signal} (memory : μ)
    (minds : block.clock.Minds (· = block.dma.channels[index].source)
      block.dma.channels[index].held channel.held clock signals) :
    Confined (.channel index) block { block with
      clock, memory
      dma := block.dma.set index channel
      controller := (block.controller.hearAll signals).value } where
  clock := by
    have own : Owner.held { block with
        clock, memory
        dma := block.dma.set index channel
        controller := (block.controller.hearAll signals).value } (.channel index) = channel.held :=
      congrArg Dma.Channel.held (Parts.getElem_set_self block.dma.channels index channel)
    rw [own]
    exact minds.toSpares
  memory apart := absurd rfl (apart index)
  misc _ := rfl
  controller := by
    have heard := block.controller.hearAll_of_asked minds.asked
    split at heard
    next => exact .inl heard
    next => exact .inr heard
  timers _ _ := rfl
  uarts _ _ := rfl
  channels _ apart := Parts.getElem_set_of_ne _ _ fun same => apart (congrArg Owner.channel same)

/-! ## Writes -/

theorem writeMisc_missed {width : Width} {offset : UInt32}
    (missed : Selection.find? miscRegisters width offset = none) (block : Block μ)
    (value : UInt32) : (block.writeMisc width offset value).value = block := by
  unfold writeMisc
  rw [Traced.value_bind, Selection.value_noted, missed]
  rfl

theorem writeMisc_confined (block : Block μ) (width : Width) (offset value : UInt32) :
    Confined .misc block (block.writeMisc width offset value).value := by
  unfold writeMisc
  rw [Traced.value_bind, Selection.value_noted]
  split
  next => exact .ofMisc block.misc
  next => exact .ofMisc _

section Writes

variable [Bus μ]

theorem writeDma_confined {address offset : UInt32} {index : Fin Dma.channelCount}
    (routed : Dma.route? address = some (index, offset)) (width : Width) (value : UInt32) :
    (block.onDma fun attached clock => Device.write attached clock width address value).Ensures
      fun (_, after) => Confined (.channel index) block after := by
  have tells : (Device.write (⟨block.dma, block.memory⟩ : Dma.Attached μ) block.clock width address
      value).Tells fun (_, attached, clock) signals => ∃ channel,
        attached.dma = block.dma.set index channel ∧
          block.clock.Minds (· = block.dma.channels[index].source)
            block.dma.channels[index].held channel.held clock signals := by
    rw [Dma.Attached.write_eq _ _ width routed, Functor.map_map]
    exact .map fun after wrote => ⟨after.1, rfl, Dma.Channel.write_minds
      block.dma.channels[index] block.clock block.memory width offset value after wrote⟩
  unfold onDma
  refine .bind (block.controller.relay_ensures tells.ensures) ?_
  rintro ⟨⟨answer, ⟨dma, memory⟩, clock⟩, controller⟩ ⟨⟨channel, rfl, minds⟩, rfl⟩
  exact .pure (.ofChannel index memory minds)

theorem writePart_confined (block : Block μ) {address offset : UInt32} {owner : Owner}
    (found : ownerAt? address = some (owner, offset)) (width : Width) (value : UInt32) :
    ∃ part there, route? address = some (part, there) ∧
      (block.writePart width there value part).Ensures fun (_, after) =>
        Confined owner block after := by
  obtain ⟨-, routed⟩ := routed_of_ownerAt? found
  cases owner with
  | misc =>
      refine ⟨_, _, routed, .bind (.traced _) ?_⟩
      rintro _ rfl
      exact .pure (writeMisc_confined block width offset value)
  | controller =>
      refine ⟨_, _, routed, (Run.Ensures.traced _).imp ?_⟩
      rintro _ rfl
      exact .ofController _
  | channel index =>
      obtain ⟨there, routed, within⟩ := routed
      exact ⟨_, _, routed, writeDma_confined within width value⟩
  | timer index =>
      refine ⟨_, _, routed, onTimer_confined index ?_⟩
      refine .conclude (Timer.write_minds block.timers[index] block.clock width offset value) ?_
      rintro ⟨timer, clock⟩ signals minds
      exact ⟨_, rfl, minds⟩
  | uart index =>
      refine ⟨_, _, routed, onUart_confined index ?_⟩
      refine .conclude (Uart.write_minds block.uarts[index] block.clock width offset value) ?_
      rintro ⟨uart, clock⟩ signals minds
      exact ⟨_, rfl, minds⟩

end Writes

/-! ## Reads -/

/-- What a channel has fallen behind with is done. -/
def caughtUp [Bus μ] (block : Block μ) (index : Fin Dma.channelCount) : Block μ :=
  let looked := block.dma.channels[index].catchUp block.clock block.memory
  { block with
    clock := looked.value.2.1
    memory := looked.value.2.2
    dma := block.dma.set index looked.value.1
    controller := (block.controller.hearAll looked.signals).value }

theorem caughtUp_confined [Bus μ] (block : Block μ) (index : Fin Dma.channelCount) :
    Confined (.channel index) block (block.caughtUp index) :=
  .ofChannel index _ (Dma.Channel.catchUp_minds block.dma.channels[index] block.clock block.memory)

/-- What a read at an address of an owner leaves, by the lanes that it selects. -/
def Owner.looked [Bus μ] (block : Block μ) :
    (owner : Owner) → Option (Selection owner.table) → Block μ
  | .channel index, _ => block.caughtUp index
  | .uart index, some selection =>
      { block with
        uarts := block.uarts.set index (block.uarts[index].looked selection) index.isLt }
  | _, _ => block

/-- What a timer does that asks for no interrupt. -/
theorem onTimer_of_ok {index : Fin timerCount}
    {action : Timer → Clock → Run Signal (α × Timer × Clock)} {answer : α} {timer : Timer}
    {clock : Clock}
    (done : (action block.timers[index] block.clock).outcome = .ok (answer, timer, clock))
    (quiet : (action block.timers[index] block.clock).signals.filterMap Signal.interrupt? = []) :
    (block.onTimer index action).outcome = .ok (answer,
      { block with clock, timers := block.timers.set index timer index.isLt }) := by
  have heard := block.controller.relay_of_ok done
  rw [block.controller.hearAll_of_quiet quiet] at heard
  exact Run.outcome_bind_eq_ok.2 ⟨_, heard, rfl⟩

/-- What a serial interface does that asks for no interrupt. -/
theorem onUart_of_ok {index : Fin uartCount}
    {action : Uart → Clock → Run Signal (α × Uart × Clock)} {answer : α} {uart : Uart}
    {clock : Clock}
    (done : (action block.uarts[index] block.clock).outcome = .ok (answer, uart, clock))
    (quiet : (action block.uarts[index] block.clock).signals.filterMap Signal.interrupt? = []) :
    (block.onUart index action).outcome = .ok (answer,
      { block with clock, uarts := block.uarts.set index uart index.isLt }) := by
  have heard := block.controller.relay_of_ok done
  rw [block.controller.hearAll_of_quiet quiet] at heard
  exact Run.outcome_bind_eq_ok.2 ⟨_, heard, rfl⟩

/-- A timer that only answers leaves the block as it is. -/
theorem onTimer_of_still {index : Fin timerCount}
    {action : Timer → Clock → Run Signal (α × Timer × Clock)} {answer : α}
    (done : (action block.timers[index] block.clock).outcome
      = .ok (answer, block.timers[index], block.clock))
    (quiet : (action block.timers[index] block.clock).signals.filterMap Signal.interrupt? = []) :
    (block.onTimer index action).outcome = .ok (answer, block) := by
  have ran := onTimer_of_ok done quiet
  rwa [Parts.set_getElem] at ran

/-- A serial interface that only answers leaves the block as it is. -/
theorem onUart_of_still {index : Fin uartCount}
    {action : Uart → Clock → Run Signal (α × Uart × Clock)} {answer : α}
    (done : (action block.uarts[index] block.clock).outcome
      = .ok (answer, block.uarts[index], block.clock))
    (quiet : (action block.uarts[index] block.clock).signals.filterMap Signal.interrupt? = []) :
    (block.onUart index action).outcome = .ok (answer, block) := by
  have ran := onUart_of_ok done quiet
  rwa [Parts.set_getElem] at ran

theorem readMisc_eq (block : Block μ) (width : Width) (offset : UInt32) :
    (block.readMisc width offset).value.2 = block ∧
      (Selection.find? miscRegisters width offset = none →
        (block.readMisc width offset).value.1 = 0) := by
  unfold readMisc
  rw [Traced.value_bind, Selection.value_noted]
  cases Selection.find? miscRegisters width offset with
  | none => exact ⟨rfl, fun _ => rfl⟩
  | some selection =>
      have keeps : (block.misc.read selection).2 = block.misc := by
        refine block.misc.read_eq_self fun bits => ?_
        have access : ∀ index : Fin miscRegisters.length,
            (miscRegisters.get index).access = .readOnly := by
          decide
        rw [Selection.register, access]
        exact AccessRule.noConfusion
      dsimp only
      rw [keeps]
      exact ⟨rfl, fun absent => absurd absent (Option.some_ne_none selection)⟩

section

variable [Bus μ]

/-- What the engine does that lets a channel catch up. -/
theorem onDma_of_caughtUp {index : Fin Dma.channelCount}
    {action : Dma.Attached μ → Clock → Run Signal (α × Dma.Attached μ × Clock)} {answer : α}
    {remarks : List Signal}
    (done : (action ⟨block.dma, block.memory⟩ block.clock).outcome = .ok (answer,
      ⟨(block.caughtUp index).dma, (block.caughtUp index).memory⟩, (block.caughtUp index).clock))
    (told : (action ⟨block.dma, block.memory⟩ block.clock).signals
      = (block.dma.channels[index].catchUp block.clock block.memory).signals ++ remarks)
    (quiet : remarks.filterMap Signal.interrupt? = []) :
    (block.onDma action).outcome = .ok (answer, block.caughtUp index) := by
  have heard := block.controller.relay_of_ok done
  have after : (block.controller.hearAll (action ⟨block.dma, block.memory⟩
      block.clock).signals).value = (block.caughtUp index).controller := by
    rw [told, Interrupt.Controller.hearAll_append, Traced.value_bind,
      Interrupt.Controller.hearAll_of_quiet _ quiet]
    rfl
  rw [after] at heard
  exact Run.outcome_bind_eq_ok.2 ⟨_, heard, rfl⟩

theorem readDma_eq {address offset : UInt32} {index : Fin Dma.channelCount}
    (routed : Dma.route? address = some (index, offset)) (width : Width) :
    ∃ value, (block.onDma fun attached clock => Device.read attached clock width address).outcome
        = .ok (value, block.caughtUp index) ∧
      (Selection.find? Dma.registers width offset = none → value = 0) := by
  obtain ⟨same, ⟨remarks, quiet, told⟩, zero⟩ :=
    block.dma.channels[index].read_eq block.clock block.memory width offset
  have reads := Dma.Attached.read_eq ⟨block.dma, block.memory⟩ block.clock width routed
  refine ⟨_, onDma_of_caughtUp ?_ ?_ quiet, zero⟩
  · rw [reads, Run.outcome_map]
    exact congrArg (fun after =>
      Except.ok (_, Dma.Attached.put ⟨block.dma, block.memory⟩ index after)) same
  · rw [reads, Run.signals_map]
    exact told

/-- A read of a timer's registers leaves the block as it is. -/
theorem readTimer_eq (block : Block μ) (index : Fin timerCount) (width : Width) (offset : UInt32) :
    (block.readPart width offset (.timer index)).outcome
      = .ok ((block.timers[index].read block.clock width offset).value.1, block) := by
  obtain ⟨same, quiet, -⟩ := block.timers[index].read_eq block.clock width offset
  have silent : (Device.read block.timers[index] block.clock width offset).signals.filterMap
      Signal.interrupt? = [] :=
    (congrArg (List.filterMap _) (List.append_nil _)).trans quiet
  exact onTimer_of_still (congrArg (fun timer => Except.ok (_, timer, _)) same) silent

/-- A read of a serial interface's registers takes what its lanes show and no more. -/
theorem readUart_looked (block : Block μ) (index : Fin uartCount) (width : Width)
    (offset : UInt32) :
    (block.readPart width offset (.uart index)).outcome
        = .ok ((block.uarts[index].read width offset).value.1,
          Owner.looked block (.uart index) (Selection.find? Uart.registers width offset)) ∧
      (Selection.find? Uart.registers width offset = none →
        (block.uarts[index].read width offset).value.1 = 0) := by
  obtain ⟨quiet, same⟩ := block.uarts[index].read_looked width offset
  have silent : (Device.read block.uarts[index] block.clock width offset).signals.filterMap
      Signal.interrupt? = [] :=
    (congrArg (List.filterMap _) (List.append_nil _)).trans quiet
  have done : (Device.read block.uarts[index] block.clock width offset).outcome
      = .ok ((block.uarts[index].read width offset).value.1,
        (block.uarts[index].read width offset).value.2, block.clock) := rfl
  cases selected : Selection.find? Uart.registers width offset with
  | none =>
      rw [selected] at same
      rw [same] at done ⊢
      exact ⟨onUart_of_still done silent, fun _ => rfl⟩
  | some selection =>
      rw [selected] at same
      rw [same] at done
      exact ⟨onUart_of_ok done silent, fun absent => absurd absent (Option.some_ne_none selection)⟩

theorem readPart_looked (block : Block μ) {address offset : UInt32} {owner : Owner}
    (found : ownerAt? address = some (owner, offset)) (width : Width) :
    ∃ part there, route? address = some (part, there) ∧
      ∃ value, (block.readPart width there part).outcome
          = .ok (value, owner.looked block (Selection.find? owner.table width offset)) ∧
        (Selection.find? owner.table width offset = none → value = 0) := by
  obtain ⟨-, routed⟩ := routed_of_ownerAt? found
  cases owner with
  | misc =>
      obtain ⟨same, zero⟩ := block.readMisc_eq width offset
      exact ⟨_, _, routed, _, congrArg Except.ok (Prod.ext rfl same), zero⟩
  | controller =>
      obtain ⟨same, zero⟩ := block.controller.read_eq_self width offset
      refine ⟨_, _, routed, (block.controller.read width offset).value.1, ?_, zero⟩
      change Except.ok (_, { block with
        controller := (block.controller.read width offset).value.2 }) = _
      rw [same]
      rfl
  | channel index =>
      obtain ⟨there, routed, within⟩ := routed
      exact ⟨_, _, routed, readDma_eq within width⟩
  | timer index =>
      obtain ⟨-, -, zero⟩ := block.timers[index].read_eq block.clock width offset
      exact ⟨_, _, routed, _, block.readTimer_eq index width offset, zero⟩
  | uart index => exact ⟨_, _, routed, _, block.readUart_looked index width offset⟩

/-! ## Writes that select nothing -/

theorem writeDma_missed {address offset : UInt32} {index : Fin Dma.channelCount}
    (routed : Dma.route? address = some (index, offset)) {width : Width}
    (missed : Selection.find? Dma.registers width offset = none) (value : UInt32) :
    (block.onDma fun attached clock => Device.write attached clock width address value).outcome
      = .ok ((), block.caughtUp index) := by
  obtain ⟨done, remarks, quiet, told⟩ :=
    Dma.Channel.write_missed missed block.dma.channels[index] block.clock block.memory value
  have writes := Dma.Attached.write_eq ⟨block.dma, block.memory⟩ block.clock width routed value
  refine onDma_of_caughtUp ?_ ?_ quiet
  · rw [writes, Run.outcome_map, Run.outcome_map, done]
    rfl
  · rw [writes, Run.signals_map, Run.signals_map]
    exact told

theorem writeTimer_missed {width : Width} {offset : UInt32}
    (missed : Selection.find? Timer.registers width offset = none) (block : Block μ)
    (index : Fin timerCount) (value : UInt32) :
    (block.writePart width offset value (.timer index)).outcome = .ok ((), block) := by
  obtain ⟨done, quiet⟩ := Timer.write_missed missed block.timers[index] block.clock value
  have wrote : (Device.write block.timers[index] block.clock width offset value).outcome
      = .ok ((), block.timers[index], block.clock) :=
    Run.outcome_bind_eq_ok.2 ⟨_, done, rfl⟩
  have silent : (Device.write block.timers[index] block.clock width offset
      value).signals.filterMap Signal.interrupt? = [] :=
    (congrArg (List.filterMap _) (Run.signals_bind_of_ok done rfl)).trans quiet
  exact onTimer_of_still wrote silent

theorem writeUart_missed {width : Width} {offset : UInt32}
    (missed : Selection.find? Uart.registers width offset = none) (block : Block μ)
    (index : Fin uartCount) (value : UInt32) :
    (block.writePart width offset value (.uart index)).outcome = .ok ((), block) := by
  obtain ⟨done, quiet⟩ := Uart.write_missed missed block.uarts[index] block.clock value
  have wrote : (Device.write block.uarts[index] block.clock width offset value).outcome
      = .ok ((), block.uarts[index], block.clock) :=
    Run.outcome_bind_eq_ok.2 ⟨_, done, rfl⟩
  have silent : (Device.write block.uarts[index] block.clock width offset
      value).signals.filterMap Signal.interrupt? = [] :=
    (congrArg (List.filterMap _) (Run.signals_bind_of_ok done rfl)).trans quiet
  exact onUart_of_still wrote silent

theorem writePart_missed (block : Block μ) {address offset : UInt32} {owner : Owner}
    (found : ownerAt? address = some (owner, offset)) {width : Width}
    (missed : Selection.find? owner.table width offset = none) (value : UInt32) :
    ∃ part there, route? address = some (part, there) ∧
      (block.writePart width there value part).outcome = .ok ((), owner.looked block none) := by
  obtain ⟨-, routed⟩ := routed_of_ownerAt? found
  cases owner with
  | misc =>
      refine ⟨_, _, routed, ?_⟩
      exact congrArg (fun block => Except.ok ((), block)) (writeMisc_missed missed block value)
  | controller =>
      refine ⟨_, _, routed, ?_⟩
      exact congrArg (fun controller => Except.ok ((), { block with controller }))
        (Interrupt.Controller.write_missed missed block.controller value)
  | channel index =>
      obtain ⟨there, routed, within⟩ := routed
      exact ⟨_, _, routed, writeDma_missed within missed value⟩
  | timer index => exact ⟨_, _, routed, writeTimer_missed missed block index value⟩
  | uart index => exact ⟨_, _, routed, writeUart_missed missed block index value⟩

/-- A write to anything but a channel comes to its end. -/
theorem writePart_ends (block : Block μ) (width : Width) (offset value : UInt32) {part : Part}
    (other : part ≠ .dma) :
    ∃ result, (block.writePart width offset value part).outcome = .ok result := by
  have fails : FailsAtTransfers {} (block.writePart width offset value part) :=
    writePart_failsAtTransfers_of_ne block width offset value other
  exact fails.ends_iff.2 fun event _ => event.not_isOverlong (by decide)

/-! ## Accesses -/

/-- What an access inside the window does besides what its lanes select: a channel whose register
is at the address catches up. -/
def lookedAt (block : Block μ) (address : UInt32) : Block μ :=
  match ownerAt? address with
  | some (.channel index, _) => block.caughtUp index
  | _ => block

/-- What an access of a width at an address can change. -/
structure Isolates (block : Block μ) (width : Width) (address value : UInt32) : Prop where
  /-- Beside the window every access fails and changes nothing. -/
  beyond : windowSize ≤ address →
    block.read width address
        = ⟨.ok (.error .loadFault, block), [.note (.readOutOfRange address)]⟩ ∧
      block.write width address value
        = ⟨.ok (.error .storeFault, block), [.note (.writeOutOfRange address)]⟩
  /-- Beside the registers nothing is there to be read or written. -/
  vacant : address < windowSize → (∀ register ∈ block.registerMap, ¬ register.Contains address) →
    (block.read width address).outcome = .ok (.ok 0, block) ∧
      (block.write width address value).outcome = .ok (.ok (), block)
  /-- An access of the invalid width selects nothing. -/
  invalid : address < windowSize → width = .invalid →
    (block.read width address).outcome = .ok (.ok 0, block.lookedAt address) ∧
      (block.write width address value).outcome = .ok (.ok (), block.lookedAt address)
  /-- Any other access is to the one register that contains the address. A write is confined to the
  owner of the register, a read to what the lanes of the register take. -/
  selected : ∀ register ∈ block.registerMap, register.Contains address → width ≠ .invalid →
    (∀ other ∈ block.registerMap, other.Contains address → other = register) ∧
    ∃ place : Place, place.register block = register ∧
      (block.write width address value).Ensures (fun (answer, after) =>
        answer = .ok () ∧ Confined place.owner block after) ∧
      ((∀ index, place.owner ≠ .channel index) →
        ∃ result, (block.write width address value).outcome = .ok result) ∧
      ∃ seen, (block.read width address).outcome = .ok (.ok seen,
        place.owner.looked block (some ⟨place.index, register.lane width address⟩))
  /-- A channel that catches up changes nothing but what is its own. -/
  catchesUp : ∀ index, Confined (.channel index) block (block.caughtUp index)

theorem looked_none (block : Block μ) {address offset : UInt32} {owner : Owner}
    (found : ownerAt? address = some (owner, offset)) :
    owner.looked block none = block.lookedAt address := by
  unfold lookedAt
  rw [found]
  cases owner <;> rfl

/-- The registers of a channel leave no gap. -/
theorem lookedAt_of_vacant {address offset : UInt32} {owner : Owner}
    (found : ownerAt? address = some (owner, offset))
    (vacant : ∀ register ∈ block.registerMap, ¬ register.Contains address) :
    block.lookedAt address = block := by
  unfold lookedAt
  rw [found]
  cases owner with
  | channel index =>
      have filled : ∀ place < Dma.stride.toNat, ∃ index : Fin Dma.registers.length,
          (Dma.registers.get index).Contains (UInt32.ofNat place) := by
        decide
      obtain ⟨register, contains⟩ :=
        filled offset.toNat (UInt32.lt_iff_toNat_lt.1 (of_ownerAt? found).1)
      rw [UInt32.ofNat_toNat] at contains
      have here : ((Place.mk (.channel index) register).register block).Contains address :=
        contains_iff.2 ⟨offset, found, contains⟩
      exact absurd here (vacant _ (mem_registerMap.2 ⟨_, rfl⟩))
  | _ => rfl

theorem part_ne_dma {address offset there : UInt32} {owner : Owner} {part : Part}
    (found : ownerAt? address = some (owner, offset)) (routed : route? address = some (part, there))
    (other : ∀ index, owner ≠ .channel index) : part ≠ .dma := by
  obtain ⟨-, routes⟩ := routed_of_ownerAt? found
  rintro rfl
  cases owner with
  | channel index => exact other index rfl
  | _ => cases routed.symm.trans routes

/-- An access that selects no register of an owner. -/
theorem missed_access (block : Block μ) {width : Width} {address offset : UInt32} {owner : Owner}
    (found : ownerAt? address = some (owner, offset))
    (missed : Selection.find? owner.table width offset = none) (value : UInt32) :
    (block.read width address).outcome = .ok (.ok 0, block.lookedAt address) ∧
      (block.write width address value).outcome = .ok (.ok (), block.lookedAt address) := by
  obtain ⟨inside, -⟩ := routed_of_ownerAt? found
  obtain ⟨part, there, routed, seen, read, zero⟩ := block.readPart_looked found width
  obtain ⟨_, _, routedToo, wrote⟩ := block.writePart_missed found missed value
  cases routed.symm.trans routedToo
  cases zero missed
  rw [missed, looked_none block found] at read
  rw [looked_none block found] at wrote
  unfold Block.read Block.write
  rw [if_neg inside, if_neg inside, routed]
  exact ⟨Run.outcome_bind_eq_ok.2 ⟨_, read, rfl⟩, Run.outcome_bind_eq_ok.2 ⟨_, wrote, rfl⟩⟩

/-- An access to an address of nobody. -/
theorem ownerless_access {address : UInt32} (inside : ¬ windowSize ≤ address)
    (ownerless : ownerAt? address = none) (block : Block μ) (width : Width) (value : UInt32) :
    (block.read width address).outcome = .ok (.ok 0, block) ∧
      (block.write width address value).outcome = .ok (.ok (), block) := by
  unfold Block.read Block.write
  rw [if_neg inside, if_neg inside, route?_of_ownerless inside ownerless]
  exact ⟨rfl, rfl⟩

/-- Whatever the block is like, and whatever the width, the address and the value of an access
are, it changes nothing but what it is defined to. -/
theorem access_isolated (block : Block μ) (width : Width) (address value : UInt32) :
    block.Isolates width address value where
  beyond outside := by
    unfold Block.read Block.write
    rw [if_pos outside, if_pos outside]
    exact ⟨rfl, rfl⟩
  vacant within vacant := by
    have inside : ¬ windowSize ≤ address := UInt32.not_le.2 within
    cases found : ownerAt? address with
    | none => exact ownerless_access inside found block width value
    | some owned =>
        obtain ⟨owner, offset⟩ := owned
        have accesses := block.missed_access found (find?_of_vacant found vacant width) value
        rwa [lookedAt_of_vacant found vacant] at accesses
  invalid within invalid := by
    have inside : ¬ windowSize ≤ address := UInt32.not_le.2 within
    cases found : ownerAt? address with
    | none =>
        have accesses := ownerless_access inside found block width value
        unfold lookedAt
        rw [found]
        exact accesses
    | some owned =>
        obtain ⟨owner, offset⟩ := owned
        exact block.missed_access found (if_pos invalid) value
  selected := by
    intro register listed contains valid
    obtain ⟨place, rfl⟩ := mem_registerMap.1 listed
    obtain ⟨offset, found, select⟩ := find?_of_contains contains valid
    obtain ⟨inside, -⟩ := routed_of_ownerAt? found
    obtain ⟨part, there, routed, seen, read, -⟩ := block.readPart_looked found width
    obtain ⟨_, _, routedToo, confined⟩ := block.writePart_confined found width value
    cases routed.symm.trans routedToo
    rw [select] at read
    refine ⟨?_, place, rfl, ?_, ?_, seen, ?_⟩
    · intro other listed there
      obtain ⟨other, rfl⟩ := mem_registerMap.1 listed
      rw [Place.eq_of_contains contains there]
    · unfold Block.write
      rw [if_neg inside, routed]
      exact .bind confined fun _ confined => .pure ⟨rfl, confined⟩
    · intro other
      obtain ⟨result, wrote⟩ :=
        block.writePart_ends width there value (part_ne_dma found routed other)
      unfold Block.write
      rw [if_neg inside, routed]
      exact ⟨_, Run.outcome_bind_eq_ok.2 ⟨result, wrote, rfl⟩⟩
    · unfold Block.read
      rw [if_neg inside, routed]
      exact Run.outcome_bind_eq_ok.2 ⟨_, read, rfl⟩
  catchesUp := block.caughtUp_confined

end

end Block

end SocPeripherals
