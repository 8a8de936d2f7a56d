import SocPeripherals.Bus.Ram
import SocPeripherals.Proofs.Block.Restored
import SocPeripherals.Proofs.Restore.Devices

/-!
# What a refusal leaves

A device looks at all of what was saved for it before it changes anything, so that one that refuses
it is as it was, and so is its clock. One that accepts it forgets the deadlines that it held and
places those that were saved. The engine has its channels take over theirs one after the other: a
second channel that refuses leaves the first with what was saved of it.
-/

namespace SocPeripherals

/-! ## Deadlines in place of others -/

namespace Clock

/-- Somebody forgot the deadlines that he held and placed others, at one cycle. -/
structure Replaces (held kept : Multiset Deadline) (clock after : Clock) : Prop where
  now : after.now = clock.now
  identity : after.identity = clock.identity
  issued : clock.issued ≤ after.issued
  fresh : ∀ deadline ∈ kept, clock.issued ≤ deadline.serial ∧ deadline.serial < after.issued
  pending : ∀ deadline, deadline ∈ after.pending ↔
    deadline ∈ clock.pending ∧ deadline ∉ held ∨ deadline ∈ kept

namespace Replaces

variable {clock middle after : Clock} {held kept more left : Multiset Deadline}

theorem refl (clock : Clock) : Replaces 0 0 clock clock where
  now := rfl
  identity := rfl
  issued := le_rfl
  fresh _ known := absurd known (Multiset.notMem_zero _)
  pending _ := by simp

/-- One after the other, where the second forgets nothing that the first has placed. -/
theorem trans (first : Replaces held kept clock middle) (second : Replaces more left middle after)
    (apart : ∀ deadline ∈ kept, deadline ∉ more) :
    Replaces (held + more) (kept + left) clock after where
  now := second.now.trans first.now
  identity := second.identity.trans first.identity
  issued := first.issued.trans second.issued
  fresh deadline known := by
    rcases Multiset.mem_add.1 known with known | known
    · obtain ⟨later, before⟩ := first.fresh deadline known
      exact ⟨later, before.trans_le second.issued⟩
    · obtain ⟨later, before⟩ := second.fresh deadline known
      exact ⟨first.issued.trans later, before⟩
  pending deadline := by
    have apart := apart deadline
    rw [second.pending, first.pending, Multiset.mem_add, Multiset.mem_add]
    tauto

theorem dropAny (clock : Clock) (deadline : Option Deadline) :
    Replaces (Deadline.single deadline) 0 clock (clock.dropAny deadline) := by
  cases deadline with
  | none => exact .refl clock
  | some deadline =>
      refine ⟨rfl, rfl, le_rfl, fun _ known => absurd known (Multiset.notMem_zero _), ?_⟩
      simp [Clock.dropAny]

theorem scheduleIn {cycles : UInt64} {deadline : Deadline}
    (done : clock.scheduleIn cycles = .ok (deadline, after)) :
    Replaces 0 {deadline} clock after := by
  unfold Clock.scheduleIn scheduleAt at done
  split at done
  next =>
    cases done
    refine ⟨rfl, rfl, Nat.le_succ _, fun other known => ?_, fun other => ?_⟩
    · rw [Multiset.mem_singleton.1 known]
      exact ⟨le_rfl, Nat.lt_succ_self _⟩
    · rw [List.mem_cons, Multiset.mem_singleton, or_comm]
      simp
  next => contradiction

end Replaces

end Clock

/-- A device took over what was saved, its deadlines with it, or refused it and nothing was done. -/
inductive Restores {δ : Type} (held : δ → Multiset Deadline) (device : δ) (clock : Clock) :
    Except DeviceError Unit × δ × Clock → Prop where
  | accepted {after : δ} {later : Clock}
      (replaces : clock.Replaces (held device) (held after) later) :
      Restores held device clock (.ok (), after, later)
  | refused (error : DeviceError) : Restores held device clock (.error error, device, clock)

/-- What has refused is as it was. -/
theorem Restores.eq_of_error {δ : Type} {held : δ → Multiset Deadline} {device after : δ}
    {clock later : Clock} {error : DeviceError}
    (restores : Restores held device clock (.error error, after, later)) :
    after = device ∧ later = clock := by
  cases restores
  exact ⟨rfl, rfl⟩

theorem Restores.replaces {δ : Type} {held : δ → Multiset Deadline} {device after : δ}
    {clock later : Clock} (restores : Restores held device clock (.ok (), after, later)) :
    clock.Replaces (held device) (held after) later := by
  cases restores with
  | accepted replaces => exact replaces

/-! ## The devices -/

/-- A controller that refuses what was saved is as it was, and has told of nothing. -/
theorem Interrupt.Controller.restore_of_error {controller : Controller} {saved : Snapshot}
    {error : DeviceError} (refused : (controller.restore saved).value.1 = .error error) :
    controller.restore saved = pure (.error error, controller) := by
  unfold restore at refused ⊢
  split at refused
  next => cases refused; rfl
  next => cases refused

namespace Timer

variable {clock later : Clock} {after : Timer}

theorem halt_replaces (timer : Timer) (clock : Clock) :
    clock.Replaces timer.held 0 (timer.halt clock).2 := by
  obtain ⟨index, source, bank, latch, phase⟩ := timer
  cases phase with
  | stopped => exact .refl clock
  | running start expiry => exact .dropAny clock (some expiry)

theorem resume_replaces (timer : Timer) (clock : Clock) (latch : Latch) (saved : Snapshot) :
    (timer.resume clock latch saved).Ensures fun (after, later) =>
      clock.Replaces 0 after.held later := by
  unfold resume
  extract_lets goesOn
  have placing (rest : UInt64) : (goesOn rest).Ensures fun (after, later) =>
      clock.Replaces 0 after.held later := by
    refine .bind (.except _) ?_
    rintro ⟨expiry, later⟩ placed
    exact .pure (.scheduleIn placed)
  cases saved.remaining with
  | none => exact .bind (.trivial _) fun _ _ => .bind (.trivial _) fun _ _ => placing _
  | some cycles => exact placing cycles

theorem restore_restores (timer : Timer) (clock : Clock) (saved : Snapshot) :
    (timer.restore clock saved).Ensures (Restores held timer clock) := by
  unfold restore
  dsimp only
  split
  next =>
    split
    next => exact .pure (.refused _)
    next bank _ =>
      have halted := halt_replaces timer clock
      rw [(halt_eq timer clock).1]
      split
      next =>
        refine .bind (resume_replaces _ _ _ saved) ?_
        rintro ⟨after, later⟩ resumed
        exact .pure (.accepted (by simpa using halted.trans resumed (by simp)))
      next => exact .pure (.accepted halted)
  next => exact .pure (.refused _)

/-- A timer that refuses what was saved is as it was, and has signalled nothing. -/
theorem restore_of_error {timer : Timer} {saved : Snapshot} {error : DeviceError}
    (refused : (timer.restore clock saved).outcome.map Prod.fst = .ok (.error error)) :
    timer.restore clock saved = pure (.error error, timer, clock) := by
  have silent : (timer.restore clock saved).signals = [] := timer.restore_silent clock saved
  have restores := timer.restore_restores clock saved
  generalize timer.restore clock saved = run at refused silent restores
  obtain ⟨outcome, signals⟩ := run
  cases outcome with
  | error fault => cases refused
  | ok result =>
      obtain ⟨answer, after, later⟩ := result
      cases refused
      cases silent
      obtain ⟨rfl, rfl⟩ := (restores _ rfl).eq_of_error
      rfl

end Timer

namespace Uart

variable {uart after : Uart} {clock later : Clock}

theorem abandon_replaces (uart : Uart) (clock : Clock) :
    clock.Replaces uart.held 0 (uart.abandon clock).2 := by
  have byte := Clock.Replaces.dropAny clock (uart.shifter.map (·.2))
  have both := byte.trans (.dropAny _ uart.breakDue) fun _ known =>
    absurd known (Multiset.notMem_zero _)
  rwa [add_zero] at both

theorem resumeByte_replaces {saved : Option (UInt8 × UInt64)} (idle : uart.shifter = none)
    (done : uart.resumeByte clock saved = .ok (after, later)) :
    clock.Replaces 0 (Deadline.single (after.shifter.map (·.2))) later ∧
      after.breakDue = uart.breakDue := by
  obtain ⟨-, rfl, rfl⟩ | ⟨byte, cycles, deadline, -, placed, rfl⟩ := of_resumeByte done
  · rw [idle]
    exact ⟨.refl later, rfl⟩
  · exact ⟨.scheduleIn placed, rfl⟩

theorem resumeBreak_replaces {saved : Option UInt64} (idle : uart.breakDue = none)
    (done : uart.resumeBreak clock saved = .ok (after, later)) :
    clock.Replaces 0 (Deadline.single after.breakDue) later ∧ after.shifter = uart.shifter := by
  obtain ⟨-, rfl, rfl⟩ | ⟨cycles, deadline, -, placed, rfl⟩ := of_resumeBreak done
  · rw [idle]
    exact ⟨.refl later, rfl⟩
  · exact ⟨.scheduleIn placed, rfl⟩

theorem restore_restores {saved : Snapshot} {result : Except DeviceError Unit × Uart × Clock}
    (done : uart.restore clock saved = .ok result) : Restores held uart clock result := by
  obtain ⟨answer, after, later⟩ := result
  obtain ⟨⟨error, rfl⟩, rfl, rfl⟩ | ⟨rfl, bank, between, middle, -, -, resumedByte, resumedBreak⟩ :=
    of_restore done
  · exact .refused error
  obtain ⟨byte, idle⟩ := resumeByte_replaces rfl resumedByte
  obtain ⟨breaking, kept⟩ := resumeBreak_replaces idle resumedBreak
  have placed := byte.trans breaking fun _ _ => Multiset.notMem_zero _
  have replaced := (abandon_replaces uart clock).trans placed fun _ known =>
    absurd known (Multiset.notMem_zero _)
  simp only [← kept, add_zero, zero_add] at replaced
  exact .accepted replaced

theorem restore_of_error {saved : Snapshot} {error : DeviceError}
    (refused : (uart.restore clock saved).map Prod.fst = .ok (.error error)) :
    uart.restore clock saved = .ok (.error error, uart, clock) := by
  cases ran : uart.restore clock saved with
  | error fault =>
      rw [ran] at refused
      cases refused
  | ok result =>
      obtain ⟨answer, after, later⟩ := result
      rw [ran] at refused
      cases refused
      obtain ⟨rfl, rfl⟩ := (restore_restores ran).eq_of_error
      rfl

end Uart

namespace Dma

namespace Channel

variable {channel : Channel} {clock : Clock}

theorem restore_restores {saved : Snapshot} {result : Except DeviceError Unit × Channel × Clock}
    (done : channel.restore clock saved = .ok result) : Restores held channel clock result := by
  obtain ⟨answer, after, later⟩ := result
  obtain ⟨⟨error, rfl⟩, rfl, rfl⟩ | ⟨rfl, bank, -, taken⟩ := of_restore done
  · exact .refused error
  have idle : clock.Replaces channel.held 0 (channel.reset clock).2 := .dropAny clock _
  obtain ⟨-, rfl, rfl⟩ | ⟨transfer, -, -, resumed⟩ := taken
  · exact .accepted idle
  · obtain ⟨due, placed, rfl⟩ := of_resume resumed
    have replaced := idle.trans (.scheduleIn placed) fun _ known =>
      absurd known (Multiset.notMem_zero _)
    rw [add_zero, zero_add] at replaced
    exact .accepted replaced

end Channel

variable {dma after : Dma} {clock later : Clock}

theorem set_channel (dma : Dma) (index : Fin channelCount) :
    dma.set index dma.channels[index] = dma :=
  congrArg mk (Parts.set_getElem dma.channels index)

/-- An engine that refuses what was saved is as it was, unless its first channel accepts its part
and the second refuses. Then the first has taken over its part, as it does on its own. -/
theorem restore_of_error {saved : List Snapshot} {error : DeviceError}
    (refused : dma.restore clock saved = .ok (.error error, after, later)) :
    after = dma ∧ later = clock ∨
      ∃ first second channel, saved = [first, second] ∧
        dma.channels[(0 : Fin channelCount)].restore clock first = .ok (.ok (), channel, later) ∧
        dma.channels[(1 : Fin channelCount)].restore later second
          = .ok (.error error, dma.channels[(1 : Fin channelCount)], later) ∧
        after = dma.set 0 channel := by
  obtain ⟨-, rfl, rfl⟩ | ⟨first, second, rfl, taken⟩ := of_restore refused
  · exact .inl ⟨rfl, rfl⟩
  obtain ⟨_, same, refused⟩ | ⟨between, middle, begun, rest⟩ := taken
  · cases same
    obtain ⟨channel, ran, rfl⟩ := of_restoreChannel refused
    obtain ⟨rfl, rfl⟩ := (Channel.restore_restores ran).eq_of_error
    exact .inl ⟨set_channel dma 0, rfl⟩
  · obtain ⟨channel, ran, rfl⟩ := of_restoreChannel begun
    obtain ⟨other, ranNext, rfl⟩ := of_restoreChannel rest
    have kept : (dma.set 0 channel).channels[(1 : Fin channelCount)] =
        dma.channels[(1 : Fin channelCount)] := Parts.getElem_set_of_ne _ _ (by decide)
    rw [kept] at ranNext
    obtain ⟨rfl, rfl⟩ := (Channel.restore_restores ranNext).eq_of_error
    refine .inr ⟨first, second, channel, rfl, ran, ranNext, ?_⟩
    rw [← kept, set_channel]

/-- What an engine with its memory comes to is what the engine does. -/
theorem Attached.restore_eq {μ : Type} (engine : Attached μ) (clock : Clock)
    (saved : List Snapshot) : engine.restore clock saved = ⟨(engine.dma.restore clock saved).map
      fun (answer, dma, later) => (answer, { engine with dma }, later), []⟩ := by
  unfold restore
  cases engine.dma.restore clock saved <;> rfl

end Dma

/-! ## Refusals -/

end SocPeripherals
