import SocPeripherals.Proofs.Block.Act
import Mathlib.Algebra.BigOperators.Group.Finset.Basic
import Mathlib.Data.Fintype.Basic
import Mathlib.Data.Multiset.OrderedMonoid

/-!
# What the block keeps to

A block holds the deadlines that its parts hold. An act changes one part and leaves the deadlines
of the others in their hands.
-/

namespace SocPeripherals

open scoped BigOperators

/-- The deadlines of all parts of a kind. -/
def Deadline.all {α : Type} {count : Nat} (held : α → Multiset Deadline) (parts : Vector α count) :
    Multiset Deadline :=
  ∑ index : Fin count, held parts[index]

theorem Deadline.all_set {α : Type} {count : Nat} (held : α → Multiset Deadline)
    (parts : Vector α count) (index : Fin count) (part : α) :
    ∃ rest, all held parts = held parts[index] + rest ∧
      all held (parts.set index part index.isLt) = held part + rest := by
  refine ⟨∑ other ∈ Finset.univ.erase index, held parts[other], ?_, ?_⟩
  · exact (Finset.add_sum_erase _ _ (Finset.mem_univ index)).symm
  · rw [all, ← Finset.add_sum_erase _ _ (Finset.mem_univ index)]
    congr 1
    · simp
    · refine Finset.sum_congr rfl fun other listed => ?_
      rw [Parts.getElem_set_of_ne _ _ (Finset.mem_erase.1 listed).1.symm]

theorem Deadline.le_all {α : Type} {count : Nat} (held : α → Multiset Deadline)
    (parts : Vector α count) (index : Fin count) : held parts[index] ≤ all held parts := by
  obtain ⟨rest, whole, -⟩ := all_set held parts index parts[index]
  rw [whole]
  exact Multiset.le_add_right _ _

theorem Deadline.add_le_all {α : Type} {count : Nat} (held : α → Multiset Deadline)
    (parts : Vector α count) {first second : Fin count} (apart : first ≠ second) :
    held parts[first] + held parts[second] ≤ all held parts := by
  have rest : second ∈ Finset.univ.erase first :=
    Finset.mem_erase.2 ⟨apart.symm, Finset.mem_univ second⟩
  rw [all, ← Finset.add_sum_erase _ _ (Finset.mem_univ first), ← Finset.add_sum_erase _ _ rest,
    ← add_assoc]
  exact Multiset.le_add_right _ _

theorem Deadline.mem_all {α : Type} {count : Nat} {held : α → Multiset Deadline}
    {parts : Vector α count} {deadline : Deadline} :
    deadline ∈ all held parts ↔ ∃ index : Fin count, deadline ∈ held parts[index] := by
  unfold all
  rw [Multiset.mem_sum]
  simp

theorem Deadline.all_eq_zero_iff {α : Type} {count : Nat} {held : α → Multiset Deadline}
    {parts : Vector α count} : all held parts = 0 ↔ ∀ index : Fin count, held parts[index] = 0 := by
  simp [all, Finset.sum_eq_zero_iff]

theorem Clock.Serves.ofPart {α : Type} {count : Nat} {held : α → Multiset Deadline}
    {parts : Vector α count} {index : Fin count} {part : α} {least : UInt64} {clock after : Clock}
    (serves : Serves least (held parts[index]) (held part) clock after) :
    Serves least (Deadline.all held parts)
      (Deadline.all held (parts.set index part index.isLt)) clock after := by
  obtain ⟨rest, before, now⟩ := Deadline.all_set held parts index part
  rw [before, now]
  exact serves.frame rest

theorem Clock.Uses.ofPart {α : Type} {count : Nat} {held : α → Multiset Deadline}
    {parts : Vector α count} {index : Fin count} {part : α} {least : UInt64} {clock after : Clock}
    (uses : Uses least (held parts[index]) (held part) clock after) :
    Uses least (Deadline.all held parts)
      (Deadline.all held (parts.set index part index.isLt)) clock after := by
  obtain ⟨rest, before, now⟩ := Deadline.all_set held parts index part
  rw [before, now]
  exact uses.frame rest

namespace Block

variable {μ : Type} [Bus μ] {restorable : Snapshot → Prop} {block between after : Block μ}
  {least : UInt64} {settings : Settings}

/-- The deadlines that the block holds. -/
def held (block : Block μ) : Multiset Deadline :=
  Deadline.all Timer.held block.timers + Deadline.all Uart.held block.uarts
    + Deadline.all Dma.Channel.held block.dma.channels

omit [Bus μ] in
theorem mem_held_of_timer {index : Fin timerCount} {deadline : Deadline}
    (known : deadline ∈ block.timers[index].held) : deadline ∈ block.held :=
  Multiset.mem_add.2 (.inl (Multiset.mem_add.2 (.inl (Deadline.mem_all.2 ⟨index, known⟩))))

omit [Bus μ] in
theorem mem_held_of_uart {index : Fin uartCount} {deadline : Deadline}
    (known : deadline ∈ block.uarts[index].held) : deadline ∈ block.held :=
  Multiset.mem_add.2 (.inl (Multiset.mem_add.2 (.inr (Deadline.mem_all.2 ⟨index, known⟩))))

omit [Bus μ] in
theorem mem_held_of_channel {index : Fin Dma.channelCount} {deadline : Deadline}
    (known : deadline ∈ block.dma.channels[index].held) : deadline ∈ block.held :=
  Multiset.mem_add.2 (.inr (Deadline.mem_all.2 ⟨index, known⟩))

omit [Bus μ] in
theorem timer_le_held (index : Fin timerCount) : block.timers[index].held ≤ block.held :=
  (Deadline.le_all Timer.held block.timers index).trans
    ((Multiset.le_add_right _ _).trans (Multiset.le_add_right _ _))

omit [Bus μ] in
theorem timers_le_held {first second : Fin timerCount} (apart : first ≠ second) :
    block.timers[first].held + block.timers[second].held ≤ block.held :=
  (Deadline.add_le_all Timer.held block.timers apart).trans
    ((Multiset.le_add_right _ _).trans (Multiset.le_add_right _ _))

omit [Bus μ] in
theorem timer_uart_le_held (index : Fin timerCount) (number : Fin uartCount) :
    block.timers[index].held + block.uarts[number].held ≤ block.held :=
  (add_le_add (Deadline.le_all Timer.held block.timers index)
    (Deadline.le_all Uart.held block.uarts number)).trans (Multiset.le_add_right _ _)

omit [Bus μ] in
theorem timer_channel_le_held (index : Fin timerCount) (number : Fin Dma.channelCount) :
    block.timers[index].held + block.dma.channels[number].held ≤ block.held :=
  add_le_add
    ((Deadline.le_all Timer.held block.timers index).trans (Multiset.le_add_right _ _))
    (Deadline.le_all Dma.Channel.held block.dma.channels number)

omit [Bus μ] in
theorem held_eq_zero_iff : block.held = 0 ↔
    (∀ index : Fin timerCount, block.timers[index].held = 0) ∧
      (∀ index : Fin uartCount, block.uarts[index].held = 0) ∧
      ∀ index : Fin Dma.channelCount, block.dma.channels[index].held = 0 := by
  rw [held, add_eq_zero, add_eq_zero, Deadline.all_eq_zero_iff, Deadline.all_eq_zero_iff,
    Deadline.all_eq_zero_iff, and_assoc]

/-- What is saved of the parts of a kind. -/
theorem mem_saved {α β : Type} {count : Nat} {save : α → β} {parts : Vector α count} {saved : β} :
    saved ∈ parts.toList.map save ↔ ∃ index : Fin count, saved = save parts[index] := by
  simp [Parts.map_toList, eq_comm]

/-- What becomes of the parts of a block, and of the deadlines that they hold. -/
structure Step (least : UInt64) (begins : Timer.Span → Prop) (block after : Block μ) : Prop where
  misc : after.misc.resets = block.misc.resets
  miscFits : block.misc.Fits → after.misc.Fits
  controller : block.controller.Evolves after.controller
  timers : ∀ index : Fin timerCount, Timer.Evolves begins block.timers[index] after.timers[index]
  uarts : ∀ index : Fin uartCount, Uart.Evolves block.uarts[index] after.uarts[index]
  channels : ∀ index : Fin Dma.channelCount, Dma.Channel.Evolves least
    block.dma.channels[index] block.clock after.dma.channels[index] after.clock
  serves : Clock.Serves least block.held after.held block.clock after.clock

/-- What is fixed about a block of some settings, and what its parts keep to. -/
structure Sound (settings : Settings) (block : Block μ) : Prop where
  misc : block.misc.resets = (((Bank.initial miscRegisters).withReset identityIndex
    settings.identity).withReset configurationIndex settings.configuration).resets
  miscFits : block.misc.Fits
  controllerResets : block.controller.bank.resets = (Bank.initial Interrupt.registers).resets
  controllerFits : block.controller.bank.Fits
  driven : block.controller.IsDriven
  timers : ∀ index : Fin timerCount,
    Timer.Sound index.val Interrupt.timerSources[index] block.timers[index]
  uarts : ∀ index : Fin uartCount,
    Uart.Sound index.val Interrupt.uartSources[index] settings.uartCapacity block.uarts[index]
  channels : ∀ index : Fin Dma.channelCount, Dma.Channel.Sound index.val
    Interrupt.dmaSources[index] settings.dmaCycles block.dma.channels[index]

variable {begins : Timer.Span → Prop}

omit [Bus μ] in
theorem Step.sound (step : Step least begins block after) (sound : Sound settings block) :
    Sound settings after where
  misc := step.misc.trans sound.misc
  miscFits := step.miscFits sound.miscFits
  controllerResets := step.controller.resets.trans sound.controllerResets
  controllerFits := step.controller.fits sound.controllerFits
  driven := step.controller.driven sound.driven
  timers index := (step.timers index).sound (sound.timers index)
  uarts index := (step.uarts index).sound (sound.uarts index)
  channels index := (step.channels index).keepsSound (sound.channels index)

omit [Bus μ] in
theorem Step.refl (least : UInt64) (begins : Timer.Span → Prop) (block : Block μ) :
    Step least begins block block where
  misc := rfl
  miscFits := id
  controller := .refl block.controller
  timers index := .refl begins block.timers[index]
  uarts index := .refl block.uarts[index]
  channels index := .still block.dma.channels[index] (.refl least block.clock)
  serves := .refl least block.held block.clock

/-- The deadlines of the saved parts come at least so many cycles after they are restored, in
channels of so many cycles a unit. -/
structure Snapshot.Ahead (least cyclesPerUnit : UInt64) (saved : Snapshot) : Prop where
  timers : ∀ part ∈ saved.timers, part.running = true → part.Ahead least
  uarts : ∀ part ∈ saved.uarts, part.Ahead least
  dma : ∀ part ∈ saved.dma, part.Ahead least cyclesPerUnit

theorem Snapshot.ahead_zero (saved : Snapshot) (cyclesPerUnit : UInt64) :
    saved.Ahead 0 cyclesPerUnit where
  timers part _ _ := by
    unfold Timer.Snapshot.Ahead
    split
    next => rfl
    next => exact UInt64.zero_le
  uarts _ _ := ⟨fun _ _ _ => UInt64.zero_le, fun _ _ => UInt64.zero_le⟩
  dma _ _ _ _ _ := UInt64.zero_le

/-- The saved parts are such as a block of so many cycles a unit saves. -/
structure Snapshot.IsSound (cyclesPerUnit : UInt64) (saved : Snapshot) : Prop where
  uarts : ∀ part ∈ saved.uarts, part.IsSilent
  dma : ∀ part ∈ saved.dma, part.IsSound cyclesPerUnit

theorem evolves_set {α : Type} {count : Nat} (evolves : α → α → Prop) {parts : Vector α count}
    {index : Fin count} {part : α} (still : ∀ other, evolves other other)
    (acts : evolves parts[index] part) (other : Fin count) :
    evolves parts[other] (parts.set index part index.isLt)[other] := by
  by_cases same : index = other
  · subst same
    simpa using acts
  · rw [Parts.getElem_set_of_ne _ _ same]
    exact still parts[other]

theorem Act.step (act : Act restorable block after) (le : least ≤ 1)
    (ahead : ∀ saved, restorable saved → saved.Ahead least settings.dmaCycles)
    (own : ∀ saved, restorable saved → saved.IsSound settings.dmaCycles)
    (sound : Sound settings block) :
    Step least (Timer.Span.Known (fun part => ∃ saved, restorable saved ∧ part ∈ saved.timers)
      block.clock) block after := by
  cases act with
  | misc resets fits => exact { Step.refl least _ block with misc := resets, miscFits := fits }
  | controller does => exact { Step.refl least _ block with controller := does.evolves }
  | timer index does =>
      have step := does.step le fun part listed running => by
        obtain ⟨saved, known, listed⟩ := listed
        exact (ahead saved known).timers part listed running
      exact { Step.refl least Timer.Span.Regular block with
        timers := evolves_set _ (.refl _) step.toEvolves
        channels := fun other => .still block.dma.channels[other] step.serves.follows
        serves := (step.serves.ofPart.frame _).frame _ }
  | uart index does =>
      have step := does.step le (fun part listed => by
        obtain ⟨saved, known, listed⟩ := listed
        exact (ahead saved known).uarts part listed) (fun part listed => by
        obtain ⟨saved, known, listed⟩ := listed
        exact (own saved known).uarts part listed) (sound.uarts index).silent
      exact { Step.refl least _ block with
        uarts := evolves_set _ .refl step.toEvolves
        channels := fun other => .still block.dma.channels[other] step.serves.follows
        serves := (step.serves.ofPart.frame_left _).frame _ }
  | channel index does =>
      have speed := (sound.channels index).cyclesPerUnit
      have step := does.step le (fun part listed => by
        obtain ⟨saved, known, listed⟩ := listed
        rw [speed]
        exact (ahead saved known).dma part listed) (fun part listed => by
        obtain ⟨saved, known, listed⟩ := listed
        rw [speed]
        exact (own saved known).dma part listed)
      exact { Step.refl least _ block with
        channels := evolves_set
          (fun channel after => Dma.Channel.Evolves least channel block.clock after _)
          (fun other => .still other step.serves.follows) step.toEvolves
        serves := step.serves.ofPart.frame_left _ }

end Block

end SocPeripherals
