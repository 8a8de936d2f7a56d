import SocPeripherals.Uart
import SocPeripherals.Proofs.Lockstep.Clock

/-!
# Serial interfaces in lockstep

Interfaces on clocks in lockstep do the same if they agree in all but their deadlines, and these
are paired.
-/

namespace SocPeripherals

namespace Uart

variable {lockstep : Clock.Lockstep} {uart twin : Uart} {clock other : Clock}

/-- The byte and the deadline of a shifter, paired with those of another. -/
abbrev Sending (lockstep : Clock.Lockstep) (first second : UInt8 × Deadline) : Prop :=
  first.1 = second.1 ∧ lockstep.deadlines first.2 second.2

/-- The interfaces agree in all but their deadlines, which are paired. -/
inductive Alike (lockstep : Clock.Lockstep) : Uart → Uart → Prop where
  | mk (index : Nat) (source : UInt8) (capacity : Nat) (bank : Bank registers)
      (received : List UInt8) {shifter shifterOther : Option (UInt8 × Deadline)} (lineLow : Bool)
      {breakDue breakDueOther : Option Deadline}
      (sending : Option.Rel (Sending lockstep) shifter shifterOther)
      (breaking : Option.Rel lockstep.deadlines breakDue breakDueOther) :
      Alike lockstep ⟨index, source, capacity, bank, received, shifter, lineLow, breakDue⟩
        ⟨index, source, capacity, bank, received, shifterOther, lineLow, breakDueOther⟩

/-- Interfaces and their clocks, compared with their twins. -/
abbrev Pair (lockstep : Clock.Lockstep) (first second : Uart × Clock) : Prop :=
  Alike lockstep first.1 second.1 ∧ lockstep.clocks first.2 second.2

theorem Alike.bank_eq (alike : Alike lockstep uart twin) : twin.bank = uart.bank := by
  cases alike; rfl

theorem Alike.index_eq (alike : Alike lockstep uart twin) : twin.index = uart.index := by
  cases alike; rfl

theorem Alike.capacity_eq (alike : Alike lockstep uart twin) : twin.capacity = uart.capacity := by
  cases alike; rfl

theorem Alike.lineLow_eq (alike : Alike lockstep uart twin) : twin.lineLow = uart.lineLow := by
  cases alike; rfl

theorem Alike.received_eq (alike : Alike lockstep uart twin) : twin.received = uart.received := by
  cases alike; rfl

theorem Alike.isEnabled_eq (alike : Alike lockstep uart twin) :
    twin.isEnabled = uart.isEnabled := by
  cases alike; rfl

theorem Alike.frameCycles_eq (alike : Alike lockstep uart twin) :
    twin.frameCycles = uart.frameCycles := by
  cases alike; rfl

theorem Alike.isTransmitting_eq (alike : Alike lockstep uart twin) :
    twin.isTransmitting = uart.isTransmitting := by
  obtain ⟨_, _, _, _, _, _, sending, _⟩ := alike
  cases sending <;> rfl

theorem Alike.liveStatus_eq (alike : Alike lockstep uart twin) :
    twin.liveStatus = uart.liveStatus := by
  unfold liveStatus
  rw [alike.received_eq, alike.isTransmitting_eq]

theorem Alike.withBank (alike : Alike lockstep uart twin) (bank : Bank registers) :
    Alike lockstep { uart with bank } { twin with bank } := by
  cases alike
  constructor <;> assumption

theorem Alike.withReceived (alike : Alike lockstep uart twin) (received : List UInt8) :
    Alike lockstep { uart with received } { twin with received } := by
  cases alike
  constructor <;> assumption

theorem Alike.withLine (alike : Alike lockstep uart twin) (lineLow : Bool) :
    Alike lockstep { uart with lineLow } { twin with lineLow } := by
  cases alike
  constructor <;> assumption

theorem Alike.withShifter (alike : Alike lockstep uart twin)
    {shifter shifterOther : Option (UInt8 × Deadline)}
    (sending : Option.Rel (Sending lockstep) shifter shifterOther) :
    Alike lockstep { uart with shifter } { twin with shifter := shifterOther } := by
  cases alike
  constructor <;> assumption

theorem Alike.withBreak (alike : Alike lockstep uart twin)
    {breakDue breakDueOther : Option Deadline}
    (breaking : Option.Rel lockstep.deadlines breakDue breakDueOther) :
    Alike lockstep { uart with breakDue } { twin with breakDue := breakDueOther } := by
  cases alike
  constructor <;> assumption

theorem receive_alike (alike : Alike lockstep uart twin) (byte : UInt8) :
    (uart.receive byte).Matches (Alike lockstep) (twin.receive byte) := by
  have cleared := alike.withBank (uart.bank.clearBits statusIndex breakBit)
  have requests : twin.receiveRequest = uart.receiveRequest := by cases alike; rfl
  have room : (twin.received.length < twin.capacity) = (uart.received.length < uart.capacity) := by
    rw [alike.received_eq, alike.capacity_eq]
  unfold receive
  rw [alike.isEnabled_eq, alike.bank_eq]
  split
  next =>
    simp only [room]
    split
    next =>
      rw [alike.received_eq, requests]
      exact .mk _ (cleared.withReceived _)
    next => exact ⟨by rw [alike.index_eq, requests], cleared.withBank _⟩
  next =>
    rw [alike.index_eq]
    exact .mk _ alike

theorem abandonByte_alike (alike : Alike lockstep uart twin)
    (clocks : lockstep.clocks clock other) :
    Pair lockstep (uart.abandonByte clock) (twin.abandonByte other) := by
  refine ⟨alike.withShifter .none, ?_⟩
  obtain ⟨_, _, _, _, _, _, sending, _⟩ := alike
  cases sending with
  | none => exact clocks
  | some paired => exact lockstep.drop clocks paired.2

theorem abandonBreak_alike (alike : Alike lockstep uart twin)
    (clocks : lockstep.clocks clock other) :
    Pair lockstep (uart.abandonBreak clock) (twin.abandonBreak other) := by
  refine ⟨alike.withBreak .none, ?_⟩
  obtain ⟨_, _, _, _, _, _, _, breaking⟩ := alike
  exact Clock.Lockstep.dropAny clocks breaking

theorem abandon_alike (alike : Alike lockstep uart twin) (clocks : lockstep.clocks clock other) :
    Pair lockstep (uart.abandon clock) (twin.abandon other) := by
  obtain ⟨alike, clocks⟩ := abandonByte_alike alike clocks
  exact abandonBreak_alike alike clocks

theorem timeBreak_alike (alike : Alike lockstep uart twin) (clocks : lockstep.clocks clock other) :
    Run.Matches (ε := Signal) (Pair lockstep) (liftM (uart.timeBreak clock))
      (liftM (twin.timeBreak other)) := by
  unfold timeBreak
  rw [alike.frameCycles_eq, Run.liftM_except_bind, Run.liftM_except_bind]
  refine .bind (Clock.Lockstep.scheduleIn clocks uart.frameCycles) ?_
  rintro ⟨deadline, after⟩ ⟨paired, later⟩ ⟨deadlines, clocks⟩
  exact .pure ⟨alike.withBreak (.some deadlines), clocks⟩

theorem setLine_alike (alike : Alike lockstep uart twin) (clocks : lockstep.clocks clock other)
    (high : Bool) :
    Run.Matches (ε := Signal) (Pair lockstep) (liftM (uart.setLine clock high))
      (liftM (twin.setLine other high)) := by
  have lowered := alike.withLine true
  unfold setLine
  rw [alike.lineLow_eq]
  split
  next => exact .pure (abandonBreak_alike (alike.withLine false) clocks)
  next =>
    split
    next => exact .pure ⟨alike, clocks⟩
    next =>
      dsimp only
      rw [alike.isEnabled_eq]
      split
      next => exact timeBreak_alike lowered clocks
      next => exact .pure ⟨lowered, clocks⟩

theorem transmit_alike (alike : Alike lockstep uart twin) (clocks : lockstep.clocks clock other)
    (byte : UInt8) :
    (uart.transmit clock byte).Matches (Pair lockstep) (twin.transmit other byte) := by
  unfold transmit
  rw [alike.isEnabled_eq, alike.isTransmitting_eq, alike.frameCycles_eq]
  split
  next =>
    rw [alike.index_eq]
    exact .bind (.refl _) fun _ _ _ => .pure ⟨alike, clocks⟩
  next =>
    split
    next =>
      rw [alike.index_eq]
      exact .bind (.refl _) fun _ _ _ => .pure ⟨alike, clocks⟩
    next =>
      refine .bind (Clock.Lockstep.scheduleIn clocks uart.frameCycles) ?_
      rintro ⟨deadline, after⟩ ⟨paired, later⟩ ⟨deadlines, clocks⟩
      have sending : Sending lockstep (byte, deadline) (byte, paired) := ⟨rfl, deadlines⟩
      exact .pure ⟨alike.withShifter (.some sending), clocks⟩

theorem controlled_alike (alike : Alike lockstep uart twin) (clocks : lockstep.clocks clock other)
    (change : Change) :
    (uart.controlled clock change).Matches (Pair lockstep) (twin.controlled other change) := by
  unfold controlled
  rw [alike.index_eq, alike.lineLow_eq]
  split
  next => exact .bind (.refl _) fun _ _ _ => .pure (abandon_alike alike clocks)
  next =>
    split
    next =>
      obtain ⟨alike, clocks⟩ := abandonBreak_alike alike clocks
      exact timeBreak_alike alike clocks
    next => exact .pure ⟨alike, clocks⟩

theorem takeReceived_alike (alike : Alike lockstep uart twin) :
    twin.takeReceived.1 = uart.takeReceived.1 ∧
      Alike lockstep uart.takeReceived.2 twin.takeReceived.2 := by
  unfold takeReceived
  rw [alike.received_eq]
  split
  next => exact ⟨rfl, alike⟩
  next => exact ⟨rfl, alike.withReceived _⟩

theorem read_alike (alike : Alike lockstep uart twin) (width : Width) (address : UInt32) :
    (uart.read width address).Matches
      (fun (value, after) (valueOther, afterOther) =>
        value = valueOther ∧ Alike lockstep after afterOther)
      (twin.read width address) := by
  obtain ⟨sameByte, taken⟩ := takeReceived_alike alike
  unfold read
  refine .bind (.refl _) ?_
  rintro found _ rfl
  cases found with
  | none => exact .pure ⟨rfl, alike⟩
  | some selection =>
      dsimp only
      split
      next =>
        split
        next => exact .pure ⟨by rw [sameByte], taken⟩
        next => exact .pure ⟨rfl, alike⟩
      next =>
        rw [alike.bank_eq, alike.liveStatus_eq]
        exact .pure ⟨rfl, alike.withBank _⟩

theorem write_alike (alike : Alike lockstep uart twin) (clocks : lockstep.clocks clock other)
    (width : Width) (address value : UInt32) :
    (uart.write clock width address value).Matches (Pair lockstep)
      (twin.write other width address value) := by
  unfold write
  refine .bind (.refl _) ?_
  rintro found _ rfl
  cases found with
  | none => exact .pure ⟨alike, clocks⟩
  | some selection =>
      dsimp only
      rw [alike.bank_eq]
      split
      next => exact controlled_alike (alike.withBank _) clocks _
      next =>
        split
        next => exact transmit_alike (alike.withBank _) clocks _
        next => exact .pure ⟨alike.withBank _, clocks⟩

theorem pollShifter_alike (alike : Alike lockstep uart twin)
    (clocks : lockstep.clocks clock other) :
    (uart.pollShifter clock).Matches (Alike lockstep) (twin.pollShifter other) := by
  obtain ⟨index, source, capacity, bank, received, lineLow, sending, breaking⟩ := alike
  cases sending with
  | none => exact .pure ⟨index, source, capacity, bank, received, lineLow, .none, breaking⟩
  | @some first second paired =>
      obtain ⟨byte, deadline⟩ := first
      obtain ⟨_, deadlineOther⟩ := second
      obtain ⟨rfl, deadlines⟩ := paired
      unfold pollShifter
      dsimp only
      rw [Clock.Lockstep.hasReached_eq clocks deadlines]
      split
      next => exact .mk _ ⟨index, source, capacity, bank, received, lineLow, .none, breaking⟩
      next =>
        exact .pure ⟨index, source, capacity, bank, received, lineLow, .some ⟨rfl, deadlines⟩,
          breaking⟩

theorem pollBreak_alike (alike : Alike lockstep uart twin)
    (clocks : lockstep.clocks clock other) :
    (uart.pollBreak clock).Matches (Alike lockstep) (twin.pollBreak other) := by
  obtain ⟨index, source, capacity, bank, received, lineLow, sending, breaking⟩ := alike
  obtain ⟨sameAnswer, kept⟩ := Clock.Lockstep.claim clocks breaking
  unfold pollBreak
  dsimp only
  rw [sameAnswer]
  split
  next => exact .mk _ ⟨index, source, capacity, _, received, lineLow, sending, kept⟩
  next => exact .pure ⟨index, source, capacity, bank, received, lineLow, sending, breaking⟩

theorem poll_alike (alike : Alike lockstep uart twin) (clocks : lockstep.clocks clock other) :
    (uart.poll clock).Matches (Alike lockstep) (twin.poll other) :=
  .bind (pollShifter_alike alike clocks) fun _ _ alike => pollBreak_alike alike clocks

theorem reset_alike (alike : Alike lockstep uart twin) (clocks : lockstep.clocks clock other) :
    Pair lockstep (uart.reset clock) (twin.reset other) := by
  obtain ⟨abandoned, clocks⟩ := abandon_alike alike clocks
  refine ⟨?_, clocks⟩
  have emptied := ((abandoned.withReceived []).withLine false).withBank
    (uart.abandon clock).1.bank.reset
  unfold reset
  dsimp only
  rw [abandoned.bank_eq]
  exact emptied

theorem snapshot_alike (alike : Alike lockstep uart twin) (clocks : lockstep.clocks clock other) :
    twin.snapshot other = uart.snapshot clock := by
  obtain ⟨index, source, capacity, bank, received, lineLow, sending, breaking⟩ := alike
  unfold snapshot
  dsimp only
  congr 1
  · cases sending with
    | none => rfl
    | some paired =>
        simp [paired.1, Clock.Lockstep.remaining_eq clocks paired.2]
  · cases breaking with
    | none => rfl
    | some deadlines => simp [Clock.Lockstep.remaining_eq clocks deadlines]

theorem resumeByte_alike (alike : Alike lockstep uart twin) (clocks : lockstep.clocks clock other)
    (saved : Option (UInt8 × UInt64)) :
    Run.Matches (ε := Signal) (Pair lockstep) (liftM (uart.resumeByte clock saved))
      (liftM (twin.resumeByte other saved)) := by
  cases saved with
  | none => exact .pure ⟨alike, clocks⟩
  | some sending =>
      obtain ⟨byte, cycles⟩ := sending
      unfold resumeByte
      rw [Run.liftM_except_bind, Run.liftM_except_bind]
      refine .bind (Clock.Lockstep.scheduleIn clocks cycles) ?_
      rintro ⟨deadline, after⟩ ⟨paired, later⟩ ⟨deadlines, clocks⟩
      have sending : Sending lockstep (byte, deadline) (byte, paired) := ⟨rfl, deadlines⟩
      exact .pure ⟨alike.withShifter (.some sending), clocks⟩

theorem resumeBreak_alike (alike : Alike lockstep uart twin) (clocks : lockstep.clocks clock other)
    (saved : Option UInt64) :
    Run.Matches (ε := Signal) (Pair lockstep) (liftM (uart.resumeBreak clock saved))
      (liftM (twin.resumeBreak other saved)) := by
  cases saved with
  | none => exact .pure ⟨alike, clocks⟩
  | some cycles =>
      unfold resumeBreak
      rw [Run.liftM_except_bind, Run.liftM_except_bind]
      refine .bind (Clock.Lockstep.scheduleIn clocks cycles) ?_
      rintro ⟨deadline, after⟩ ⟨paired, later⟩ ⟨deadlines, clocks⟩
      exact .pure ⟨alike.withBreak (.some deadlines), clocks⟩

theorem restore_alike (alike : Alike lockstep uart twin) (clocks : lockstep.clocks clock other)
    (saved : Snapshot) :
    Run.Matches (ε := Signal)
      (fun (answer, after) (answerOther, afterOther) =>
        answer = answerOther ∧ Pair lockstep after afterOther)
      (liftM (uart.restore clock saved)) (liftM (twin.restore other saved)) := by
  unfold restore
  rw [alike.bank_eq, alike.capacity_eq]
  split
  next => exact .pure ⟨rfl, alike, clocks⟩
  next bank _ =>
    split
    next => exact .pure ⟨rfl, alike, clocks⟩
    next =>
      obtain ⟨abandoned, clocks⟩ := abandon_alike alike clocks
      have loaded := ((abandoned.withBank bank).withReceived saved.received).withLine saved.lineLow
      rw [Run.liftM_except_bind, Run.liftM_except_bind]
      refine .bind (resumeByte_alike loaded clocks saved.sending) ?_
      rintro ⟨sending, after⟩ ⟨sendingOther, later⟩ ⟨alike, clocks⟩
      rw [Run.liftM_except_bind, Run.liftM_except_bind]
      refine .bind (resumeBreak_alike alike clocks saved.breakRemaining) ?_
      rintro ⟨breaking, after⟩ ⟨breakingOther, later⟩ pair
      exact .pure ⟨rfl, pair⟩

end Uart

end SocPeripherals
