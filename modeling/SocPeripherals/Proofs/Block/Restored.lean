import SocPeripherals.Proofs.Block.Timely
import SocPeripherals.Proofs.Lockstep.Block

/-!
# Restored blocks

A block that takes over what another has saved goes in lockstep with it from then on. What its
stopped timers had latched stays theirs.
-/

namespace SocPeripherals

variable {clock later : Clock} {number : Nat} {origin : UInt8}

namespace Clock

theorem Near.remaining_eq {deadline : Deadline} (near : clock.Near deadline) :
    clock.remaining deadline = clock.distance deadline.time := by
  rw [remaining, (hasReached_eq_false_iff near.2).2 near.1]
  rfl

/-- A deadline that is placed as far ahead as another lies on its own clock. -/
theorem placed_of_distance (deadline : Deadline) {cycles : UInt64}
    (far : cycles = clock.distance deadline.time) (short : cycles < horizon) (later : Clock) :
    Run.Succeeds (ε := Signal) (liftM (later.scheduleIn cycles)) fun (paired, ended) =>
      ended.now = later.now ∧
        (Lockstep.apart (later.now - clock.now)).deadlines deadline paired := by
  have near : later.distance (later.now + cycles) < horizon := by rwa [distance_add]
  have time : later.now + cycles = deadline.time + (later.now - clock.now) := by
    rw [far, distance]
    grind
  unfold scheduleIn scheduleAt
  rw [if_pos near]
  exact .except rfl ⟨rfl, time⟩

theorem Near.placed {deadline : Deadline} (near : clock.Near deadline) (later : Clock) :
    Run.Succeeds (ε := Signal) (liftM (later.scheduleIn (clock.remaining deadline)))
      fun (paired, ended) => ended.now = later.now ∧
        (Lockstep.apart (later.now - clock.now)).deadlines deadline paired :=
  placed_of_distance deadline near.remaining_eq (near.remaining_eq ▸ near.2) later

theorem start_of_elapsed (clock later : Clock) (start : UInt64) :
    later.now - (clock.now - start) = start + (later.now - clock.now) := by
  grind

end Clock

/-! ## The parts -/

namespace Timer

variable {timer other : Timer}

theorem resume_succeeds (timer : Timer) (latch : Latch) {saved : Snapshot} {expiry : Deadline}
    (near : clock.Near expiry) (left : saved.remaining = some (clock.remaining expiry))
    (later : Clock) :
    (timer.resume later latch saved).Succeeds fun (after, ended) => ended.now = later.now ∧
      ∃ paired, (Clock.Lockstep.apart (later.now - clock.now)).deadlines expiry paired ∧
        after = { timer with latch, phase := .running (later.now - saved.elapsed) paired } := by
  unfold resume
  simp only [left, pure_bind]
  refine .bind (near.placed later) ?_
  rintro ⟨paired, ended⟩ ⟨now, deadlines⟩
  exact .pure ⟨now, paired, deadlines, by rw [← now]⟩

theorem resume_silent (timer : Timer) (clock : Clock) (latch : Latch) (saved : Snapshot) :
    (timer.resume clock latch saved).IsSilent := by
  unfold resume
  extract_lets goesOn
  have placing (rest : UInt64) : (goesOn rest).IsSilent :=
    .bind (.except _) fun _ => .pure _
  cases saved.remaining with
  | none => exact .bind (.except _) fun _ => .bind (.pure _) placing
  | some cycles => exact placing cycles

theorem restore_silent (timer : Timer) (clock : Clock) (saved : Snapshot) :
    (timer.restore clock saved).IsSilent := by
  unfold restore
  dsimp only
  split
  next =>
    split
    next => exact .pure _
    next =>
      split
      next => exact .bind (resume_silent _ _ _ saved) fun _ => .pure _
      next => exact .pure _
  next => exact .pure _

theorem restore_snapshot (sound : Sound number origin timer) (ready : Sound number origin other)
    {idle : Latch → Latch → Prop} (unused : ∀ latch, idle latch other.latch)
    (near : ∀ deadline ∈ timer.held, clock.Near deadline) (later : Clock) :
    (other.restore later (timer.snapshot clock)).Succeeds fun (answer, after, ended) =>
      answer = .ok () ∧ ended.now = later.now ∧
        Alike (.apart (later.now - clock.now)) idle timer after := by
  obtain ⟨halted, now⟩ := halt_eq other later
  have present : (timer.snapshot clock).stepCycles ≠ 0 := timer.latch.stepCycles_ne_zero
  have loaded : other.bank.load? (timer.snapshot clock).regs = some timer.bank :=
    Bank.load?_toList sound.fits (ready.resets.trans sound.resets.symm)
  unfold restore
  dsimp only
  rw [dif_pos present, loaded, halted]
  dsimp only
  rw [ready.index.trans sound.index.symm, ready.source.trans sound.source.symm]
  obtain ⟨index, source, bank, latch, phase⟩ := timer
  cases phase with
  | stopped => exact .pure ⟨rfl, now, .stopped index source bank (unused latch)⟩
  | running start expiry =>
      have near := near expiry (Multiset.mem_singleton_self _)
      refine .bind (resume_succeeds _ _ near rfl _) ?_
      rintro ⟨after, ended⟩ ⟨nowEnded, paired, deadlines, rfl⟩
      rw [now] at deadlines
      refine .pure ⟨rfl, nowEnded.trans now, ?_⟩
      dsimp only [snapshot]
      rw [now, Clock.start_of_elapsed]
      exact .running index source bank latch start deadlines

end Timer

namespace Interrupt.Controller

variable {controller other : Controller}

theorem restore_snapshot (driven : controller.IsDriven) (fits : controller.bank.Fits)
    (sameResets : other.bank.resets = controller.bank.resets) :
    (other.restore controller.snapshot).value = (.ok (), controller) := by
  have loaded : other.bank.load? controller.snapshot.regs = some controller.bank :=
    Bank.load?_toList fits sameResets
  have leveled : Controller.driven { other with bank := controller.bank } = controller :=
    congrArg (Controller.mk controller.bank) driven.symm
  unfold restore
  rw [loaded]
  exact congrArg (Prod.mk (Except.ok ())) ((value_drive _).trans leveled)

end Interrupt.Controller

namespace Uart

variable {uart other : Uart} {capacity : Nat}

theorem resumeByte_succeeds (idle : uart.shifter = none) (later : Clock)
    {shifter : Option (UInt8 × Deadline)}
    (near : ∀ deadline ∈ shifter.map (·.2), clock.Near deadline) :
    Run.Succeeds (ε := Signal)
      (liftM (uart.resumeByte later
        (shifter.map fun (byte, deadline) => (byte, clock.remaining deadline))))
      fun (after, ended) => ended.now = later.now ∧ ∃ resumed,
        Option.Rel (Sending (.apart (later.now - clock.now))) shifter resumed ∧
          after = { uart with shifter := resumed } := by
  cases shifter with
  | none => exact .pure ⟨rfl, none, .none, by rw [← idle]⟩
  | some sending =>
      obtain ⟨byte, deadline⟩ := sending
      change Run.Succeeds (liftM (later.scheduleIn (clock.remaining deadline) >>= _)) _
      rw [Run.liftM_except_bind]
      refine .bind ((near deadline rfl).placed later) ?_
      rintro ⟨paired, ended⟩ ⟨now, deadlines⟩
      have sending : Sending (.apart (later.now - clock.now)) (byte, deadline) (byte, paired) :=
        ⟨rfl, deadlines⟩
      exact .pure ⟨now, _, .some sending, rfl⟩

theorem resumeBreak_succeeds (idle : uart.breakDue = none) (later : Clock)
    {breakDue : Option Deadline} (near : ∀ deadline ∈ breakDue, clock.Near deadline) :
    Run.Succeeds (ε := Signal) (liftM (uart.resumeBreak later (breakDue.map clock.remaining)))
      fun (after, ended) => ended.now = later.now ∧ ∃ resumed,
        Option.Rel (Clock.Lockstep.apart (later.now - clock.now)).deadlines breakDue resumed ∧
          after = { uart with breakDue := resumed } := by
  cases breakDue with
  | none => exact .pure ⟨rfl, none, .none, by rw [← idle]⟩
  | some deadline =>
      change Run.Succeeds (liftM (later.scheduleIn (clock.remaining deadline) >>= _)) _
      rw [Run.liftM_except_bind]
      refine .bind ((near deadline rfl).placed later) ?_
      rintro ⟨paired, ended⟩ ⟨now, deadlines⟩
      exact .pure ⟨now, _, .some deadlines, rfl⟩

theorem restore_snapshot (sound : Sound number origin capacity uart)
    (ready : Sound number origin capacity other)
    (near : ∀ deadline ∈ uart.held, clock.Near deadline) (later : Clock) :
    Run.Succeeds (ε := Signal) (liftM (other.restore later (uart.snapshot clock)))
      fun (answer, after, ended) => answer = .ok () ∧ ended.now = later.now ∧
        Alike (.apart (later.now - clock.now)) uart after := by
  have loaded : other.bank.load? (uart.snapshot clock).regs = some uart.bank :=
    Bank.load?_toList sound.fits (ready.resets.trans sound.resets.symm)
  have room : ¬other.capacity < (uart.snapshot clock).received.length := by
    rw [ready.capacity, ← sound.capacity]
    exact Nat.not_lt.2 sound.room
  have now : (other.abandon later).2.now = later.now :=
    (abandon_step 0 other later).serves.follows.now
  have abandoned : (other.abandon later).1 = { other with shifter := none, breakDue := none } := rfl
  unfold restore
  rw [loaded]
  dsimp only
  rw [if_neg room, abandoned, Run.liftM_except_bind]
  generalize (other.abandon later).2 = free at now ⊢
  refine .bind (resumeByte_succeeds rfl free fun deadline known => ?_) ?_
  · exact near deadline (Multiset.mem_add.2 (.inl (Deadline.mem_single.2 known)))
  · rintro ⟨_, middle⟩ ⟨nowMiddle, shifter, sending, rfl⟩
    rw [Run.liftM_except_bind]
    refine .bind (resumeBreak_succeeds rfl middle fun deadline known => ?_) ?_
    · exact near deadline (Multiset.mem_add.2 (.inr (Deadline.mem_single.2 known)))
    · rintro ⟨_, ended⟩ ⟨nowEnded, breakDue, breaking, rfl⟩
      rw [nowMiddle, now] at nowEnded breaking
      rw [now] at sending
      refine .pure ⟨rfl, nowEnded, ?_⟩
      rw [ready.index.trans sound.index.symm, ready.source.trans sound.source.symm,
        ready.capacity.trans sound.capacity.symm]
      exact .mk uart.index uart.source uart.capacity uart.bank uart.received uart.lineLow sending
        breaking

end Uart

namespace Dma.Channel

variable {channel other : Channel} {speed : UInt64}

theorem resume_succeeds {transfer : Transfer} {due : Deadline}
    (performs : channel.Performs transfer) (regular : channel.Regular clock transfer)
    (timed : transfer.due = some due) (near : clock.Near due) (later : Clock) :
    Run.Succeeds (ε := Signal)
      (liftM (({ channel with transfer := none } : Channel).resume later
        ⟨transfer.total, transfer.moved, clock.now - transfer.startedAt⟩))
      fun (after, ended) => ended.now = later.now ∧ ∃ resumed,
        Transfer.Alike (.apart (later.now - clock.now)) transfer resumed ∧
          after = { channel with transfer := some resumed } := by
  have early : clock.now - transfer.startedAt < channel.duration transfer.total :=
    regular.elapsed_lt performs.short timed near
  have left : (if clock.now - transfer.startedAt < channel.duration transfer.total then
      channel.duration transfer.total - (clock.now - transfer.startedAt) else 0)
        = clock.distance due.time := by
    obtain ⟨_, same, time, _⟩ := regular
    cases timed.symm.trans same
    rw [if_pos early, Clock.distance, time]
    grind
  unfold resume
  rw [Run.liftM_except_bind]
  refine .bind (Clock.placed_of_distance due left (left ▸ near.2) later) ?_
  rintro ⟨paired, ended⟩ ⟨now, deadlines⟩
  refine .pure ⟨now, _, ?_, rfl⟩
  obtain ⟨unit, sourceStep, targetStep, total, moved, startedAt, _⟩ := transfer
  obtain ⟨_, rfl, rfl, rfl, _, _⟩ := performs
  cases timed
  dsimp only
  rw [now, Clock.start_of_elapsed]
  exact .mk _ _ _ total moved startedAt (.some deadlines)

theorem restore_snapshot (sound : Sound number origin speed channel)
    (ready : Sound number origin speed other) (regular : channel.IsRegular clock)
    (near : ∀ deadline ∈ channel.held, clock.Near deadline) (later : Clock) :
    Run.Succeeds (ε := Signal) (liftM (other.restore later (channel.snapshot clock)))
      fun (answer, after, ended) => answer = .ok () ∧ ended.now = later.now ∧
        Alike (.apart (later.now - clock.now)) channel after := by
  have loaded : other.bank.load? (channel.snapshot clock).regs = some channel.bank :=
    Bank.load?_toList sound.fits (ready.resets.trans sound.resets.symm)
  have now : (other.reset later).2.now = later.now :=
    (reset_step other later).serves.follows.now
  have cleared : (other.reset later).1 = { other with bank := other.bank.reset, transfer := none } :=
    rfl
  obtain ⟨index, source, cyclesPerUnit, bank, transfer⟩ := channel
  obtain ⟨rfl, rfl, rfl, _, fits, performs⟩ := sound
  obtain ⟨sameIndex, sameSource, sameSpeed, _, _, _⟩ := ready
  unfold restore
  rw [loaded]
  dsimp only
  cases transfer with
  | none =>
      have still : ¬((snapshot ⟨index, source, cyclesPerUnit, bank, none⟩ clock).transfer.isSome
          ∧ other.cyclesPerUnit = 0) := fun both => Bool.noConfusion both.1
      rw [if_neg still, cleared, sameIndex, sameSource, sameSpeed]
      exact .pure ⟨rfl, now, .mk index source cyclesPerUnit bank .none⟩
  | some transfer =>
      have performs := performs transfer rfl
      have timed : ¬((snapshot ⟨index, source, cyclesPerUnit, bank, some transfer⟩
          clock).transfer.isSome ∧ other.cyclesPerUnit = 0) := fun both =>
        performs.timed (sameSpeed.symm.trans both.2)
      rw [if_neg timed, cleared, sameIndex, sameSource, sameSpeed]
      obtain ⟨due, timed, time, recent⟩ := regular transfer rfl
      have near := near due (mem_held.2 ⟨transfer, rfl, timed⟩)
      dsimp only [snapshot, Option.map_some]
      rw [Run.liftM_except_bind]
      refine .bind (resume_succeeds performs ⟨due, timed, time, recent⟩ timed near _) ?_
      rintro ⟨_, ended⟩ ⟨nowEnded, resumed, alike, rfl⟩
      rw [now] at alike
      exact .pure ⟨rfl, nowEnded.trans now, .mk index source cyclesPerUnit bank (.some alike)⟩

end Dma.Channel

namespace Dma

variable {dma other : Dma} {origin : Fin channelCount → UInt8} {speed : UInt64}

theorem snapshot_eq (dma : Dma) (clock : Clock) : dma.snapshot clock =
    [dma.channels[(0 : Fin channelCount)].snapshot clock,
      dma.channels[(1 : Fin channelCount)].snapshot clock] :=
  Parts.map_toList _ dma.channels

theorem restoreChannel_snapshot (index : Fin channelCount)
    (sound : Channel.Sound index.val (origin index) speed dma.channels[index])
    (ready : Channel.Sound index.val (origin index) speed other.channels[index])
    (regular : dma.channels[index].IsRegular clock)
    (near : ∀ deadline ∈ dma.channels[index].held, clock.Near deadline) (later : Clock) :
    Run.Succeeds (ε := Signal)
      (liftM (other.restoreChannel later index (dma.channels[index].snapshot clock)))
      fun (answer, after, ended) => answer = .ok () ∧ ended.now = later.now ∧
        Channel.Alike (.apart (later.now - clock.now)) dma.channels[index] after.channels[index] ∧
        ∀ position, position ≠ index → after.channels[position] = other.channels[position] := by
  unfold restoreChannel
  rw [Run.liftM_except_bind]
  refine .bind (Channel.restore_snapshot sound ready regular near later) ?_
  rintro ⟨answer, channel, ended⟩ ⟨same, now, alike⟩
  refine .pure ⟨same, now, by simpa [set] using alike, fun position apart => ?_⟩
  exact Parts.getElem_set_of_ne _ _ apart.symm

theorem restore_snapshot
    (sound : ∀ index, Channel.Sound index.val (origin index) speed dma.channels[index])
    (ready : ∀ index, Channel.Sound index.val (origin index) speed other.channels[index])
    (regular : ∀ index : Fin channelCount, dma.channels[index].IsRegular clock)
    (near : ∀ index : Fin channelCount, ∀ deadline ∈ dma.channels[index].held,
      clock.Near deadline) (later : Clock) :
    Run.Succeeds (ε := Signal) (liftM (other.restore later (dma.snapshot clock)))
      fun (answer, after, ended) => answer = .ok () ∧ ended.now = later.now ∧
        Alike (.apart (later.now - clock.now)) dma after := by
  rw [snapshot_eq, restore, Run.liftM_except_bind]
  refine .bind (restoreChannel_snapshot 0 (sound 0) (ready 0) (regular 0) (near 0) later) ?_
  rintro ⟨_, between, middle⟩ ⟨rfl, now, first, rest⟩
  have fresh : Channel.Sound _ (origin 1) speed between.channels[(1 : Fin channelCount)] :=
    rest 1 (by decide) ▸ ready 1
  refine (restoreChannel_snapshot 1 (sound 1) fresh (regular 1) (near 1) middle).imp ?_
  rintro ⟨answer, after, ended⟩ ⟨same, nowAfter, alike, rest⟩
  rw [now] at alike nowAfter
  refine ⟨same, nowAfter, fun index => ?_⟩
  by_cases other : index = 1
  · cases other
    exact alike
  · have zero : index = 0 := by
      have bound := index.isLt
      have apart : index.val ≠ 1 := fun equal => other (Fin.ext equal)
      exact Fin.ext (by unfold channelCount at *; omega)
    cases zero
    rw [rest 0 (by decide)]
    exact first

end Dma

/-! ## The block -/

namespace Block

variable {μ α : Type} {settings : Settings} {idle : Timer.Latch → Timer.Latch → Prop}
  {block target source after : Block μ} {alone overdue : Bool}

/-- The part is the same in both blocks. -/
def Agrees (block after : Block μ) : Part → Prop
  | .misc => after.misc = block.misc
  | .controller => after.controller = block.controller
  | .timer index => after.timers[index] = block.timers[index]
  | .uart index => after.uarts[index] = block.uarts[index]
  | .dma => after.dma = block.dma

/-- The part can take over what a part of the same settings has saved. -/
def Ready (settings : Settings) (idle : Timer.Latch → Timer.Latch → Prop) (block : Block μ) :
    Part → Prop
  | .misc => block.misc.resets = (((Bank.initial miscRegisters).withReset identityIndex
      settings.identity).withReset configurationIndex settings.configuration).resets
  | .controller => block.controller.bank.resets = (Bank.initial Interrupt.registers).resets
  | .timer index => Timer.Sound index.val Interrupt.timerSources[index] block.timers[index] ∧
      ∀ latch, idle latch block.timers[index].latch
  | .uart index => Uart.Sound index.val Interrupt.uartSources[index] settings.uartCapacity
      block.uarts[index]
  | .dma => ∀ index : Fin Dma.channelCount, Dma.Channel.Sound index.val
      Interrupt.dmaSources[index] settings.dmaCycles block.dma.channels[index]

/-- The part is like that of the other block, on a clock that is so far ahead. -/
def Taken (shift : UInt64) (idle : Timer.Latch → Timer.Latch → Prop) (source block : Block μ) :
    Part → Prop
  | .misc => block.misc = source.misc
  | .controller => block.controller = source.controller
  | .timer index => Timer.Alike (.apart shift) idle source.timers[index] block.timers[index]
  | .uart index => Uart.Alike (.apart shift) source.uarts[index] block.uarts[index]
  | .dma => Dma.Alike (.apart shift) source.dma block.dma

theorem Agrees.refl (block : Block μ) (part : Part) : block.Agrees block part := by
  cases part <;> rfl

theorem Agrees.trans {between : Block μ} {part : Part} (first : block.Agrees between part)
    (second : between.Agrees after part) : block.Agrees after part := by
  cases part <;> exact Eq.trans second first

theorem Ready.ofAgrees {part : Part} (agrees : block.Agrees after part)
    (ready : block.Ready settings idle part) : after.Ready settings idle part := by
  cases part <;> dsimp only [Agrees] at agrees <;> simpa only [Ready, agrees] using ready

theorem Taken.ofAgrees {shift : UInt64} {part : Part} (agrees : block.Agrees after part)
    (taken : Taken shift idle source block part) : Taken shift idle source after part := by
  cases part <;> dsimp only [Agrees] at agrees <;> simpa only [Taken, agrees] using taken

/-- A part takes over what another block's part has saved. -/
def takeOver (source : Block μ) : Part → Restoration μ
  | .misc => restoreMisc source.misc.toList
  | .controller => restoreController source.controller.snapshot
  | .timer index => restoreTimer index (source.timers[index].snapshot source.clock)
  | .uart index => restoreUart index (source.uarts[index].snapshot source.clock)
  | .dma => restoreDma (source.dma.snapshot source.clock)

/-- The parts in the order in which they take over what was saved. -/
def restoringOrder : List Part :=
  [.misc, .controller] ++ (List.finRange timerCount).map .timer
    ++ (List.finRange uartCount).map .uart ++ [.dma]

theorem nodup_restoringOrder : restoringOrder.Nodup := by decide

theorem mem_restoringOrder (part : Part) : part ∈ restoringOrder := by
  cases part <;> simp [restoringOrder]

theorem zip_saved {β γ : Type} {count : Nat} (save : β → γ) (parts : Vector β count) :
    (List.finRange count).zip (parts.toList.map save)
      = (List.finRange count).map fun index => (index, save parts[index]) :=
  calc (List.finRange count).zip (parts.toList.map save)
      = ((List.finRange count).map id).zip
          ((List.finRange count).map fun index => save parts[index]) := by
        rw [List.map_id, Parts.map_toList]
    _ = (List.finRange count).map fun index => (index, save parts[index]) := List.zip_map'

theorem restorations_snapshot (source : Block μ) :
    restorations source.snapshot = restoringOrder.map source.takeOver := by
  unfold restorations restoringOrder snapshot
  dsimp only
  rw [zip_saved, zip_saved]
  simp only [List.map_append, List.map_map]
  rfl

/-! ### One part -/

/-- The block with the clock of the target, over the same memory as the source. -/
structure Hosts (later : UInt64) (source block : Block μ) : Prop where
  now : block.clock.now = later
  memory : block.memory = source.memory

/-- The part takes over what was saved, and nothing else changes. -/
def Takes (later : UInt64) (idle : Timer.Latch → Timer.Latch → Prop) (source block : Block μ)
    (part : Part) (result : Except DeviceError Unit × Block μ) : Prop :=
  result.1 = .ok () ∧ Hosts later source result.2 ∧
    Taken (later - source.clock.now) idle source result.2 part ∧
    ∀ other, other ≠ part → block.Agrees result.2 other

/-- Nothing that is heard leaves the controller as it is. -/
theorem relay_succeeds (controller : Interrupt.Controller) {run : Run Signal α} (holds : α → Prop)
    (silent : run.IsSilent) (succeeds : run.Succeeds holds) :
    (controller.relay run).Succeeds fun (answer, heard) => holds answer ∧ heard = controller := by
  obtain ⟨outcome, signals⟩ := run
  cases silent
  obtain ⟨answer, done, known⟩ := succeeds
  cases done
  exact ⟨(answer, controller), rfl, known, rfl⟩

theorem agrees_set_timer {index : Fin timerCount} {clock : Clock} {timer : Timer} {part : Part}
    (apart : part ≠ .timer index) :
    block.Agrees { block with clock, timers := block.timers.set index timer index.isLt } part := by
  cases part with
  | timer other =>
      exact Parts.getElem_set_of_ne _ _ fun same => apart (congrArg Part.timer same.symm)
  | _ => rfl

theorem agrees_set_uart {index : Fin uartCount} {clock : Clock} {uart : Uart} {part : Part}
    (apart : part ≠ .uart index) :
    block.Agrees { block with clock, uarts := block.uarts.set index uart index.isLt } part := by
  cases part with
  | uart other =>
      exact Parts.getElem_set_of_ne _ _ fun same => apart (congrArg Part.uart same.symm)
  | _ => rfl

theorem restoreMisc_takes (sound : Sound settings source) {later : UInt64}
    (hosts : Hosts later source block) (ready : block.Ready settings idle .misc) :
    (restoreMisc source.misc.toList block).Succeeds (Takes later idle source block .misc) := by
  have loaded : block.misc.load? source.misc.toList = some source.misc :=
    Bank.load?_toList sound.miscFits (ready.trans sound.misc.symm)
  unfold restoreMisc
  rw [loaded]
  refine .pure ⟨rfl, ⟨hosts.now, hosts.memory⟩, rfl, fun other apart => ?_⟩
  cases other with
  | misc => exact absurd rfl apart
  | _ => rfl

theorem restoreController_takes (sound : Sound settings source) {later : UInt64}
    (hosts : Hosts later source block) (ready : block.Ready settings idle .controller) :
    (restoreController source.controller.snapshot block).Succeeds
      (Takes later idle source block .controller) := by
  have restored := Interrupt.Controller.restore_snapshot sound.driven sound.controllerFits
    (ready.trans sound.controllerResets.symm)
  refine .traced ⟨congrArg Prod.fst restored, ⟨hosts.now, hosts.memory⟩,
    congrArg Prod.snd restored, fun other apart => ?_⟩
  cases other with
  | controller => exact absurd rfl apart
  | _ => rfl

theorem restoreTimer_takes (orderly : Orderly settings alone false source) {later : UInt64}
    (hosts : Hosts later source block) {index : Fin timerCount}
    (ready : block.Ready settings idle (.timer index)) :
    (restoreTimer index (source.timers[index].snapshot source.clock) block).Succeeds
      (Takes later idle source block (.timer index)) := by
  obtain ⟨ready, unused⟩ := ready
  have taken := Timer.restore_snapshot (orderly.sound.timers index) ready
    unused (fun deadline known => orderly.near (mem_held_of_timer known)) block.clock
  unfold restoreTimer onTimer
  refine .bind (relay_succeeds _ _ (Timer.restore_silent _ _ _) taken) ?_
  rintro ⟨⟨answer, timer, clock⟩, _⟩ ⟨⟨same, now, alike⟩, rfl⟩
  refine .pure ⟨same, ⟨now.trans hosts.now, hosts.memory⟩, ?_, fun _ => agrees_set_timer⟩
  rw [hosts.now] at alike
  simpa [Taken] using alike

theorem restoreUart_takes (orderly : Orderly settings alone false source) {later : UInt64}
    (hosts : Hosts later source block) {index : Fin uartCount}
    (ready : block.Ready settings idle (.uart index)) :
    (restoreUart index (source.uarts[index].snapshot source.clock) block).Succeeds
      (Takes later idle source block (.uart index)) := by
  have taken := Uart.restore_snapshot (orderly.sound.uarts index) ready
    (fun deadline known => orderly.near (mem_held_of_uart known)) block.clock
  unfold restoreUart onUart
  refine .bind (relay_succeeds _ _ (.except _) taken) ?_
  rintro ⟨⟨answer, uart, clock⟩, _⟩ ⟨⟨same, now, alike⟩, rfl⟩
  refine .pure ⟨same, ⟨now.trans hosts.now, hosts.memory⟩, ?_, fun _ => agrees_set_uart⟩
  rw [hosts.now] at alike
  simpa [Taken] using alike

theorem restoreDma_takes (orderly : Orderly settings alone false source) {later : UInt64}
    (hosts : Hosts later source block) (ready : block.Ready settings idle .dma) :
    (restoreDma (source.dma.snapshot source.clock) block).Succeeds
      (Takes later idle source block .dma) := by
  have taken := Dma.restore_snapshot orderly.sound.channels ready orderly.regular
    (fun index deadline known => orderly.near (mem_held_of_channel known)) block.clock
  unfold restoreDma onDma
  refine .bind (relay_succeeds _ (fun (answer, attached, clock) => answer = .ok () ∧
      clock.now = block.clock.now ∧
        Dma.Alike (.apart (block.clock.now - source.clock.now)) source.dma attached.dma ∧
        attached.memory = block.memory)
    (.bind (.except _) fun _ => .pure _)
    (.bind taken fun _ known => .pure ⟨known.1, known.2.1, known.2.2, rfl⟩)) ?_
  rintro ⟨⟨answer, attached, clock⟩, _⟩ ⟨⟨same, now, alike, memory⟩, rfl⟩
  rw [hosts.now] at alike
  refine .pure ⟨same, ⟨now.trans hosts.now, memory.trans hosts.memory⟩, alike, fun other apart => ?_⟩
  cases other with
  | dma => exact absurd rfl apart
  | _ => rfl

theorem takeOver_takes (orderly : Orderly settings alone false source) {later : UInt64}
    (hosts : Hosts later source block) {part : Part} (ready : block.Ready settings idle part) :
    (takeOver source part block).Succeeds (Takes later idle source block part) := by
  cases part with
  | misc => exact restoreMisc_takes orderly.sound hosts ready
  | controller => exact restoreController_takes orderly.sound hosts ready
  | timer index => exact restoreTimer_takes orderly hosts ready
  | uart index => exact restoreUart_takes orderly hosts ready
  | dma => exact restoreDma_takes orderly hosts ready

/-! ### All parts -/

theorem restoreAll_takes (orderly : Orderly settings alone false source) {later : UInt64}
    {parts : List Part} (distinct : parts.Nodup) (hosts : Hosts later source block)
    (ready : ∀ part ∈ parts, block.Ready settings idle part) :
    (restoreAll (parts.map (takeOver source)) block).Succeeds fun (answer, after) =>
      answer = .ok () ∧ Hosts later source after ∧
        (∀ part ∈ parts, Taken (later - source.clock.now) idle source after part) ∧
        ∀ part ∉ parts, block.Agrees after part := by
  induction parts generalizing block with
  | nil =>
      exact .pure ⟨rfl, hosts, fun _ listed => absurd listed List.not_mem_nil,
        fun part _ => .refl block part⟩
  | cons part rest ih =>
      obtain ⟨fresh, distinct⟩ := List.nodup_cons.1 distinct
      refine .bind (takeOver_takes orderly hosts (ready part List.mem_cons_self)) ?_
      rintro ⟨_, between⟩ ⟨rfl, hosts, taken, others⟩
      have apart {other : Part} (listed : other ∈ rest) : other ≠ part := fun same =>
        fresh (same ▸ listed)
      refine (ih distinct hosts fun other listed => (ready other
        (List.mem_cons_of_mem _ listed)).ofAgrees (others other (apart listed))).imp ?_
      rintro ⟨answer, after⟩ ⟨same, hosts, takenRest, others'⟩
      refine ⟨same, hosts, ?_, fun other missing => ?_⟩
      · rintro other (_ | ⟨_, listed⟩)
        · exact taken.ofAgrees (others' part fresh)
        · exact takenRest other listed
      · have outside := not_or.1 fun either => missing (List.mem_cons.2 either)
        exact (others other outside.1).trans (others' other outside.2)

theorem mismatch?_snapshot (source : Block μ) : source.snapshot.mismatch? = none := by
  simp [Snapshot.mismatch?, snapshot, Dma.snapshot, Bank.length_toList]

theorem Sound.ready (sound : Sound settings target)
    (unused : ∀ index : Fin timerCount, ∀ latch, idle latch target.timers[index].latch)
    (part : Part) : target.Ready settings idle part := by
  cases part with
  | misc => exact sound.misc
  | controller => exact sound.controllerResets
  | timer index => exact ⟨sound.timers index, unused index⟩
  | uart index => exact sound.uarts index
  | dma => exact sound.channels

/-- A block that takes over what another one of the same settings has saved, over the same memory,
goes in lockstep with it. -/
theorem restore_snapshot (orderly : Orderly settings alone false source)
    (sound : Sound settings target) (memory : target.memory = source.memory)
    (unused : ∀ index : Fin timerCount, ∀ latch, idle latch target.timers[index].latch) :
    (target.restore source.snapshot).Succeeds fun (answer, after) =>
      answer = .ok () ∧
        Alike (.apart (target.clock.now - source.clock.now)) idle source after := by
  have hosts : Hosts target.clock.now source target := ⟨rfl, memory⟩
  unfold restore
  rw [mismatch?_snapshot, restorations_snapshot]
  refine (restoreAll_takes orderly nodup_restoringOrder hosts fun part _ =>
    sound.ready unused part).imp ?_
  rintro ⟨answer, after⟩ ⟨same, hosts, taken, _⟩
  have taken (part : Part) := taken part (mem_restoringOrder part)
  refine ⟨same, ?_, hosts.memory, taken .misc, taken .controller, fun index =>
    taken (.timer index), fun index => taken (.uart index), taken .dma⟩
  change after.clock.now = source.clock.now + (target.clock.now - source.clock.now)
  rw [hosts.now]
  grind

end Block

end SocPeripherals
