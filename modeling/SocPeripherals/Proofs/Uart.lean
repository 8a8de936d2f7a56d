import SocPeripherals.Uart
import SocPeripherals.Proofs.Clock.Service
import SocPeripherals.Proofs.Register
import SocPeripherals.Proofs.Run

/-!
# What a serial interface does

An interface holds up to two deadlines, one for the byte in its shifter and one for a break.
`Step` says once what any of its operations may do to it and to its clock.
-/

namespace SocPeripherals

namespace Uart

variable {uart between after : Uart} {clock middle later : Clock} {least : UInt64}

/-- The deadlines that the interface holds. -/
def held (uart : Uart) : Multiset Deadline :=
  Deadline.single (uart.shifter.map (·.2)) + Deadline.single uart.breakDue

/-- The queue holds no more bytes than it has room for. -/
def HasRoom (uart : Uart) : Prop := uart.received.length ≤ uart.capacity

/-- A break is timed only while the line is low. -/
def IsSilent (uart : Uart) : Prop := uart.lineLow = false → uart.breakDue = none

/-- What becomes of an interface. -/
structure Evolves (uart after : Uart) : Prop where
  index : after.index = uart.index
  source : after.source = uart.source
  capacity : after.capacity = uart.capacity
  resets : after.bank.resets = uart.bank.resets
  fits : uart.bank.Fits → after.bank.Fits
  room : uart.HasRoom → after.HasRoom
  silent : uart.IsSilent → after.IsSilent

/-- What an operation does to an interface and its clock. -/
structure Step (least : UInt64) (uart : Uart) (clock : Clock) (after : Uart) (later : Clock) :
    Prop extends Evolves uart after where
  serves : Clock.Serves least uart.held after.held clock later

theorem Evolves.refl (uart : Uart) : Evolves uart uart :=
  ⟨rfl, rfl, rfl, rfl, id, id, id⟩

theorem Evolves.trans (first : Evolves uart between) (second : Evolves between after) :
    Evolves uart after where
  index := second.index.trans first.index
  source := second.source.trans first.source
  capacity := second.capacity.trans first.capacity
  resets := second.resets.trans first.resets
  fits fits := second.fits (first.fits fits)
  room room := second.room (first.room room)
  silent silent := second.silent (first.silent silent)

theorem Step.trans (first : Step least uart clock between middle)
    (second : Step least between middle after later) : Step least uart clock after later where
  toEvolves := first.toEvolves.trans second.toEvolves
  serves := first.serves.trans second.serves

theorem Step.refl (least : UInt64) (uart : Uart) (clock : Clock) :
    Step least uart clock uart clock where
  toEvolves := .refl uart
  serves := .refl least _ clock

/-- An operation that only stores into the registers. -/
theorem Step.ofBank (least : UInt64) (uart : Uart) (clock : Clock) {bank : Bank registers}
    (resets : bank.resets = uart.bank.resets) (fits : uart.bank.Fits → bank.Fits) :
    Step least uart clock { uart with bank } clock :=
  { Step.refl least uart clock with
    resets := resets
    fits := fits }

/-- An operation that only changes what has been received. -/
theorem Step.ofReceived (least : UInt64) (uart : Uart) (clock : Clock) {received : List UInt8}
    (room : uart.HasRoom → received.length ≤ uart.capacity) :
    Step least uart clock { uart with received } clock :=
  { Step.refl least uart clock with room := room }

/-! ## Deadlines -/

/-- A frame takes some time, and no more than twelve bits at the slowest rate. -/
theorem toNat_frameCycles (uart : Uart) :
    1 ≤ uart.frameCycles.toNat ∧ uart.frameCycles.toNat ≤ 12 * 2097152 := by
  have divisor : (uart.bank.get divisorIndex &&& 0xffff).toNat ≤ 0xffff := by
    rw [UInt32.toNat_and]
    exact Nat.and_le_right
  have bits : 1 ≤ uart.frameBits.toNat ∧ uart.frameBits.toNat ≤ 12 := by
    unfold frameBits
    split <;> split <;> split <;> decide
  have long : uart.cyclesPerBit.toNat
      = 32 * ((uart.bank.get divisorIndex &&& 0xffff).toNat + 1) := by
    unfold cyclesPerBit
    simp only [UInt64.toNat_mul, UInt64.toNat_add, UInt32.toNat_toUInt64, UInt64.toNat_one,
      UInt64.reduceToNat]
    omega
  have positive : 1 * 1 ≤ uart.frameBits.toNat * uart.cyclesPerBit.toNat :=
    Nat.mul_le_mul bits.1 (by omega)
  have bounded : uart.frameBits.toNat * uart.cyclesPerBit.toNat ≤ 12 * 2097152 :=
    Nat.mul_le_mul bits.2 (by omega)
  rw [frameCycles, UInt64.toNat_mul]
  omega

theorem one_le_frameCycles (uart : Uart) : 1 ≤ uart.frameCycles :=
  UInt64.le_iff_toNat_le.2 uart.toNat_frameCycles.1

/-- The end of a frame is near enough for a deadline. -/
theorem frameCycles_lt_horizon (uart : Uart) : uart.frameCycles < Clock.horizon := by
  rw [UInt64.lt_iff_toNat_lt]
  exact uart.toNat_frameCycles.2.trans_lt (by decide)

theorem abandonByte_step (least : UInt64) (uart : Uart) (clock : Clock) :
    Step least uart clock (uart.abandonByte clock).1 (uart.abandonByte clock).2 :=
  { Step.refl least uart clock with
    serves := (Clock.Serves.dropAny least clock _).frame _ }

theorem abandonBreak_step (least : UInt64) (uart : Uart) (clock : Clock) :
    Step least uart clock (uart.abandonBreak clock).1 (uart.abandonBreak clock).2 :=
  { Step.refl least uart clock with
    serves := (Clock.Serves.dropAny least clock _).frame_left _
    silent := fun _ _ => rfl }

theorem abandon_step (least : UInt64) (uart : Uart) (clock : Clock) :
    Step least uart clock (uart.abandon clock).1 (uart.abandon clock).2 :=
  (abandonByte_step least uart clock).trans (abandonBreak_step least _ _)

/-- Placing the deadline of a byte. -/
theorem Step.ofShifter (idle : uart.shifter = none) (byte : UInt8) {cycles : UInt64}
    {deadline : Deadline} (far : least ≤ cycles)
    (placed : clock.scheduleIn cycles = .ok (deadline, later)) :
    Step least uart clock { uart with shifter := some (byte, deadline) } later :=
  { Step.refl least uart clock with
    serves := by
      have serves := (Clock.Serves.scheduleIn placed far).frame (Deadline.single uart.breakDue)
      rw [held, idle]
      exact serves }

/-- Placing the deadline of a break. -/
theorem Step.ofBreak (idle : uart.breakDue = none) (low : uart.lineLow = true) {cycles : UInt64}
    {deadline : Deadline}
    (far : least ≤ cycles) (placed : clock.scheduleIn cycles = .ok (deadline, later)) :
    Step least uart clock { uart with breakDue := some deadline } later :=
  { Step.refl least uart clock with
    serves := by
      have serves := (Clock.Serves.scheduleIn placed far).frame_left
        (Deadline.single (uart.shifter.map (·.2)))
      rw [held, idle]
      exact serves
    silent := fun _ raised => absurd (low.symm.trans raised) (by decide) }

/-- An interface that could be created is one at power-on. -/
theorem of_create {index capacity : Nat} {source : UInt8}
    (created : create index source capacity = .ok uart) : uart = { index, source, capacity } := by
  obtain ⟨_, _, same⟩ := Run.except_bind_eq_ok.1 created
  exact (Except.ok.inj same).symm

/-- An interface that times a break waits for a further deadline. -/
theorem of_timeBreak (timed : uart.timeBreak clock = .ok (after, later)) :
    ∃ deadline, clock.scheduleIn uart.frameCycles = .ok (deadline, later) ∧
      after = { uart with breakDue := some deadline } := by
  obtain ⟨⟨deadline, issuing⟩, placed, same⟩ := Run.except_bind_eq_ok.1 timed
  cases same
  exact ⟨deadline, placed, rfl⟩

/-- What a level of the receive line leaves of an interface and its clock. -/
inductive SetsLine (uart : Uart) (clock : Clock) : Bool → Uart → Clock → Prop where
  | raised : SetsLine uart clock true { uart with lineLow := false, breakDue := none }
      (clock.dropAny uart.breakDue)
  | kept (low : uart.lineLow = true) : SetsLine uart clock false uart clock
  | timed {deadline : Deadline} {later : Clock} (high : uart.lineLow = false)
      (enabled : uart.isEnabled = true)
      (placed : clock.scheduleIn uart.frameCycles = .ok (deadline, later)) :
      SetsLine uart clock false { uart with lineLow := true, breakDue := some deadline } later
  | lowered (high : uart.lineLow = false) (disabled : uart.isEnabled = false) :
      SetsLine uart clock false { uart with lineLow := true } clock

theorem of_setLine {high : Bool} (done : uart.setLine clock high = .ok (after, later)) :
    SetsLine uart clock high after later := by
  unfold setLine at done
  split at done
  next rises =>
    cases rises
    cases done
    exact .raised
  next falls =>
    cases Bool.eq_false_iff.2 falls
    split at done
    next low =>
      cases done
      exact .kept low
    next up =>
      have high : uart.lineLow = false := Bool.eq_false_iff.2 up
      dsimp only at done
      split at done
      next enabled =>
        obtain ⟨deadline, placed, rfl⟩ := of_timeBreak done
        exact .timed high enabled placed
      next disabled =>
        cases done
        exact .lowered high (Bool.eq_false_iff.2 disabled)

/-! ## Operations -/

/-- What receiving a byte leaves of an interface, and signals. -/
inductive Receives (uart : Uart) (byte : UInt8) : Traced Signal Uart → Prop where
  | refused (disabled : uart.isEnabled = false) :
      Receives uart byte ⟨uart, [.note (.receiveWhileDisabled uart.index byte)]⟩
  | stored (enabled : uart.isEnabled = true) (short : uart.received.length < uart.capacity) :
      Receives uart byte
        ⟨{ uart with
            bank := uart.bank.clearBits statusIndex breakBit
            received := uart.received ++ [byte] }, uart.receiveRequest⟩
  | dropped (enabled : uart.isEnabled = true) (full : ¬uart.received.length < uart.capacity) :
      Receives uart byte
        ⟨{ uart with
            bank := (uart.bank.clearBits statusIndex breakBit).setBits statusIndex overrunBit },
          uart.receiveRequest ++ [.note (.receiveOverrun uart.index byte)]⟩

theorem receive_receives (uart : Uart) (byte : UInt8) :
    Receives uart byte (uart.receive byte) := by
  unfold receive
  split
  next enabled =>
    dsimp only
    split
    next short => exact .stored enabled short
    next full => exact .dropped enabled full
  next disabled => exact .refused (Bool.eq_false_iff.2 disabled)

theorem receive_step (uart : Uart) (clock : Clock) (byte : UInt8) :
    Step 1 uart clock (uart.receive byte).value clock := by
  have cleared : Step 1 uart clock
      { uart with bank := uart.bank.clearBits statusIndex breakBit } clock :=
    .ofBank 1 uart clock rfl fun fits => fits.clearBits statusIndex breakBit
  have receives := uart.receive_receives byte
  generalize uart.receive byte = received at receives ⊢
  cases receives with
  | refused => exact .refl 1 uart clock
  | stored _ short =>
      refine cleared.trans (.ofReceived 1 _ clock fun _ => ?_)
      rw [List.length_append]
      exact short
  | dropped =>
      exact cleared.trans
        (.ofBank 1 _ clock rfl fun fits => fits.setBits statusIndex overrunBit)

/-- An operation that only changes the level of the line, while no break is timed. -/
theorem Step.ofLine (least : UInt64) (clock : Clock) (idle : uart.breakDue = none) (low : Bool) :
    Step least uart clock { uart with lineLow := low } clock :=
  { Step.refl least uart clock with silent := fun _ _ => idle }

theorem setLine_step (silent : uart.IsSilent) {high : Bool}
    (done : uart.setLine clock high = .ok (after, later)) :
    Step 1 uart clock after later := by
  cases of_setLine done with
  | raised => exact (abandonBreak_step 1 uart clock).trans (.ofLine 1 _ rfl false)
  | kept => exact .refl 1 uart clock
  | timed high _ placed =>
      have idle := silent high
      refine (Step.ofLine 1 clock idle true).trans ?_
      exact .ofBreak (by exact idle) rfl (one_le_frameCycles uart) placed
  | lowered high => exact .ofLine 1 clock (silent high) true

/-- What a byte to send leaves of an interface and its clock. -/
inductive Transmits (uart : Uart) (clock : Clock) (byte : UInt8) : Uart → Clock → Prop where
  | refused (refuses : ¬(uart.isEnabled = true ∧ uart.shifter = none)) :
      Transmits uart clock byte uart clock
  | begins {deadline : Deadline} {later : Clock} (enabled : uart.isEnabled = true)
      (idle : uart.shifter = none)
      (placed : clock.scheduleIn uart.frameCycles = .ok (deadline, later)) :
      Transmits uart clock byte { uart with shifter := some (byte, deadline) } later

theorem transmit_transmits (uart : Uart) (clock : Clock) (byte : UInt8) :
    (uart.transmit clock byte).Ensures fun (after, later) =>
      Transmits uart clock byte after later := by
  unfold transmit
  split
  next disabled =>
    have off : ¬uart.isEnabled = true := by simpa using disabled
    exact .bind (.trivial _) fun _ _ => .pure (.refused fun accepts => off accepts.1)
  next on =>
    have enabled : uart.isEnabled = true := by simpa using on
    split
    next busy =>
      have sending : ¬uart.shifter = none := by
        rintro idle
        simp [isTransmitting, idle] at busy
      exact .bind (.trivial _) fun _ _ => .pure (.refused fun accepts => sending accepts.2)
    next free =>
      have idle : uart.shifter = none := by
        unfold isTransmitting at free
        simpa using free
      refine .bind (.except _) ?_
      rintro ⟨deadline, later⟩ placed
      exact .pure (.begins enabled idle placed)

theorem Transmits.step {byte : UInt8} (transmits : Transmits uart clock byte after later) :
    Step 1 uart clock after later := by
  cases transmits with
  | refused => exact .refl 1 uart clock
  | begins _ idle placed => exact .ofShifter idle byte (one_le_frameCycles uart) placed

/-- What a change of the control register leaves of an interface that has stored it, and of its
clock. -/
inductive Obeys (uart : Uart) (clock : Clock) (change : Change) : Uart → Clock → Prop where
  | disabled (falls : change.falling &&& enableBit ≠ 0) :
      Obeys uart clock change (uart.abandon clock).1 (uart.abandon clock).2
  | enabled {deadline : Deadline} {later : Clock} (rises : change.rising &&& enableBit ≠ 0)
      (low : uart.lineLow = true)
      (placed : (clock.dropAny uart.breakDue).scheduleIn uart.frameCycles
        = .ok (deadline, later)) :
      Obeys uart clock change { uart with breakDue := some deadline } later
  | kept (stays : ¬change.falling &&& enableBit ≠ 0)
      (others : ¬(change.rising &&& enableBit ≠ 0 ∧ uart.lineLow = true)) :
      Obeys uart clock change uart clock

theorem controlled_obeys (uart : Uart) (clock : Clock) (change : Change) :
    (uart.controlled clock change).Ensures fun (after, later) =>
      Obeys uart clock change after later := by
  unfold controlled
  split
  next falls => exact .bind (.trivial _) fun _ _ => .pure (.disabled falls)
  next stays =>
    split
    next enabling =>
      refine (Run.Ensures.except _).imp ?_
      rintro ⟨after, later⟩ timed
      obtain ⟨deadline, placed, rfl⟩ := of_timeBreak timed
      exact .enabled enabling.1 enabling.2 placed
    next others => exact .pure (.kept stays others)

theorem Obeys.step {change : Change} (obeys : Obeys uart clock change after later) :
    Step 1 uart clock after later := by
  cases obeys with
  | disabled => exact abandon_step 1 uart clock
  | enabled _ low placed =>
      refine (abandonBreak_step 1 uart clock).trans ?_
      exact .ofBreak (by rfl) (by exact low) (one_le_frameCycles uart) placed
  | kept => exact .refl 1 uart clock

/-- What a write leaves of an interface and its clock. -/
inductive Writes (uart : Uart) (clock : Clock) (width : Width) (address value : UInt32) :
    Uart → Clock → Prop where
  | missed (none : Selection.find? registers width address = none) :
      Writes uart clock width address value uart clock
  | control {selection : Selection registers} {after : Uart} {later : Clock}
      (found : Selection.find? registers width address = some selection)
      (here : selection.index = controlIndex)
      (obeys : Obeys { uart with bank := (uart.bank.write selection value).2 } clock
        (uart.bank.write selection value).1 after later) :
      Writes uart clock width address value after later
  | transmit {selection : Selection registers} {after : Uart} {later : Clock}
      (found : Selection.find? registers width address = some selection)
      (here : selection.index = transmitIndex ∧ selection.lane.touches dataBits = true)
      (transmits : Transmits { uart with bank := (uart.bank.write selection value).2 } clock
        (uart.bank.write selection value).1.new.toUInt8 after later) :
      Writes uart clock width address value after later
  | store {selection : Selection registers}
      (found : Selection.find? registers width address = some selection)
      (other : selection.index ≠ controlIndex)
      (misses : ¬(selection.index = transmitIndex ∧ selection.lane.touches dataBits = true)) :
      Writes uart clock width address value
        { uart with bank := (uart.bank.write selection value).2 } clock

theorem write_writes (uart : Uart) (clock : Clock) (width : Width) (address value : UInt32) :
    (uart.write clock width address value).Ensures fun (after, later) =>
      Writes uart clock width address value after later := by
  unfold write
  refine .bind (.traced _) ?_
  rintro _ rfl
  rw [Selection.value_noted]
  split
  next missed => exact .pure (.missed missed)
  next selection found =>
    dsimp only
    split
    next here => exact (controlled_obeys _ clock _).imp fun _ => .control found here
    next other =>
      split
      next here => exact (transmit_transmits _ clock _).imp fun _ => .transmit found here
      next misses => exact .pure (.store found other misses)

theorem takeReceived_step (uart : Uart) (clock : Clock) :
    Step 1 uart clock uart.takeReceived.2 clock := by
  unfold takeReceived
  split
  next => exact .refl 1 uart clock
  next byte rest waiting =>
    refine .ofReceived 1 uart clock fun room => ?_
    unfold HasRoom at room
    rw [waiting, List.length_cons] at room
    exact Nat.le_of_succ_le room

theorem read_step (uart : Uart) (clock : Clock) (width : Width) (address : UInt32) :
    Step 1 uart clock (uart.read width address).value.2 clock := by
  unfold read
  rw [Traced.value_bind, Selection.value_noted]
  split
  next => exact .refl 1 uart clock
  next selection _ =>
    split
    next =>
      split
      next => exact takeReceived_step uart clock
      next => exact .refl 1 uart clock
    next =>
      exact .ofBank 1 uart clock (Bank.resets_read _ selection) fun fits => fits.read selection

theorem write_step (uart : Uart) (clock : Clock) (width : Width) (address value : UInt32) :
    (uart.write clock width address value).Ensures fun (after, later) =>
      Step 1 uart clock after later := by
  have stored {selection : Selection registers}
      (found : Selection.find? registers width address = some selection) :
      Step 1 uart clock { uart with bank := (uart.bank.write selection value).2 } clock :=
    .ofBank 1 uart clock (Bank.resets_write _ selection value) fun fits =>
      fits.write (Selection.proper_of_find? found) value
  refine (uart.write_writes clock width address value).imp ?_
  rintro ⟨after, later⟩ writes
  cases writes with
  | missed => exact .refl 1 uart clock
  | control found _ obeys => exact (stored found).trans obeys.step
  | transmit found _ transmits => exact (stored found).trans transmits.step
  | store found => exact stored found

/-- What an interface signals when a byte has been sent. -/
def report (uart : Uart) (byte : UInt8) : List Signal :=
  [.note (.transmitted uart.index byte), .transmit uart.index byte] ++
    if uart.controls transmitInterruptBit then [.interrupt uart.source] else []

theorem pollShifter_of_idle (idle : uart.shifter = none) (clock : Clock) :
    uart.pollShifter clock = pure uart := by
  unfold pollShifter
  rw [idle]

theorem pollShifter_of_ahead {byte : UInt8} {deadline : Deadline}
    (sending : uart.shifter = some (byte, deadline))
    (ahead : ¬clock.hasReached deadline.time = true) : uart.pollShifter clock = pure uart := by
  unfold pollShifter
  rw [sending]
  exact if_neg ahead

theorem pollShifter_of_reached {byte : UInt8} {deadline : Deadline}
    (sending : uart.shifter = some (byte, deadline))
    (reached : clock.hasReached deadline.time = true) :
    uart.pollShifter clock = ⟨{ uart with shifter := none }, uart.report byte⟩ := by
  unfold pollShifter
  rw [sending]
  exact if_pos reached

theorem pollBreak_of_none (none : uart.breakDue = none) (clock : Clock) :
    uart.pollBreak clock = pure uart := by
  unfold pollBreak
  rw [none]
  rfl

theorem pollBreak_of_ahead {deadline : Deadline} (timed : uart.breakDue = some deadline)
    (ahead : ¬clock.hasReached deadline.time = true) : uart.pollBreak clock = pure uart := by
  unfold pollBreak
  rw [timed, Clock.claim_of_ahead (Bool.not_eq_true _ ▸ ahead)]
  rfl

theorem pollBreak_of_reached {deadline : Deadline} (timed : uart.breakDue = some deadline)
    (reached : clock.hasReached deadline.time = true) :
    uart.pollBreak clock
      = ⟨{ uart with breakDue := none, bank := uart.bank.setBits statusIndex breakBit },
          .note (.breakDetected uart.index) :: uart.receiveRequest⟩ := by
  unfold pollBreak
  rw [timed, Clock.claim_of_reached reached]
  rfl

/-- What a poll does about the byte in the shifter. -/
inductive Sends (uart : Uart) (clock : Clock) : Traced Signal Uart → Prop where
  | waits (ahead : ∀ deadline ∈ uart.shifter.map (·.2), clock.hasReached deadline.time = false) :
      Sends uart clock ⟨uart, []⟩
  | sends {byte : UInt8} {deadline : Deadline} (sending : uart.shifter = some (byte, deadline))
      (reached : clock.hasReached deadline.time = true) :
      Sends uart clock ⟨{ uart with shifter := none }, uart.report byte⟩

theorem pollShifter_sends (uart : Uart) (clock : Clock) :
    Sends uart clock (uart.pollShifter clock) := by
  cases sending : uart.shifter with
  | none =>
      rw [pollShifter_of_idle sending]
      exact .waits (by simp [sending])
  | some pair =>
      by_cases reached : clock.hasReached pair.2.time = true
      · rw [pollShifter_of_reached sending reached]
        exact .sends sending reached
      · rw [pollShifter_of_ahead sending reached]
        exact .waits (by simpa [sending] using reached)

/-- What a poll does about a break. -/
inductive Breaks (uart : Uart) (clock : Clock) : Traced Signal Uart → Prop where
  | waits (ahead : ∀ deadline ∈ uart.breakDue, clock.hasReached deadline.time = false) :
      Breaks uart clock ⟨uart, []⟩
  | breaks {deadline : Deadline} (timed : uart.breakDue = some deadline)
      (reached : clock.hasReached deadline.time = true) :
      Breaks uart clock
        ⟨{ uart with breakDue := none, bank := uart.bank.setBits statusIndex breakBit },
          .note (.breakDetected uart.index) :: uart.receiveRequest⟩

theorem pollBreak_breaks (uart : Uart) (clock : Clock) :
    Breaks uart clock (uart.pollBreak clock) := by
  cases timed : uart.breakDue with
  | none =>
      rw [pollBreak_of_none timed]
      exact .waits (by simp [timed])
  | some deadline =>
      by_cases reached : clock.hasReached deadline.time = true
      · rw [pollBreak_of_reached timed reached]
        exact .breaks timed reached
      · rw [pollBreak_of_ahead timed reached]
        exact .waits (by simpa [timed] using reached)

theorem pollShifter_step (uart : Uart) (clock : Clock) :
    Step 1 uart clock (uart.pollShifter clock).value clock ∧
      (uart.pollShifter clock).value.breakDue = uart.breakDue ∧
      ∀ deadline ∈ (uart.pollShifter clock).value.shifter.map (·.2),
        clock.hasReached deadline.time = false := by
  have sends := uart.pollShifter_sends clock
  generalize uart.pollShifter clock = polled at sends ⊢
  cases sends with
  | waits ahead => exact ⟨.refl 1 uart clock, rfl, ahead⟩
  | sends sending reached =>
      refine ⟨{ Step.refl 1 uart clock with serves := ?_ }, rfl, nofun⟩
      have serves := (Clock.Serves.release 1 reached).frame (Deadline.single uart.breakDue)
      rw [held, sending]
      exact serves

theorem pollBreak_step (uart : Uart) (clock : Clock) :
    Step 1 uart clock (uart.pollBreak clock).value clock ∧
      (uart.pollBreak clock).value.shifter = uart.shifter ∧
      ∀ deadline ∈ (uart.pollBreak clock).value.breakDue,
        clock.hasReached deadline.time = false := by
  have breaks := uart.pollBreak_breaks clock
  generalize uart.pollBreak clock = polled at breaks ⊢
  cases breaks with
  | waits ahead => exact ⟨.refl 1 uart clock, rfl, ahead⟩
  | breaks timed reached =>
      have serves := (Clock.Serves.release 1 reached).frame_left
        (Deadline.single (uart.shifter.map (·.2)))
      have released : Step 1 uart clock { uart with breakDue := none } clock :=
        { Step.refl 1 uart clock with
          serves := by
            rw [held, timed]
            exact serves
          silent := fun _ _ => rfl }
      exact ⟨released.trans (.ofBank 1 _ clock rfl fun fits =>
        fits.setBits statusIndex breakBit), rfl, nofun⟩

/-- After a poll the interface's deadlines lie ahead. -/
theorem poll_step (uart : Uart) (clock : Clock) :
    Step 1 uart clock (uart.poll clock).value clock ∧
      ∀ deadline ∈ (uart.poll clock).value.held, clock.hasReached deadline.time = false := by
  obtain ⟨sent, kept, aheadByte⟩ := pollShifter_step uart clock
  obtain ⟨reported, keptByte, aheadBreak⟩ := pollBreak_step (uart.pollShifter clock).value clock
  refine ⟨sent.trans reported, fun deadline known => ?_⟩
  rcases Multiset.mem_add.1 known with known | known
  · refine aheadByte deadline ?_
    rw [← keptByte]
    exact Deadline.mem_single.1 known
  · exact aheadBreak deadline (Deadline.mem_single.1 known)

theorem reset_step (uart : Uart) (clock : Clock) :
    Step 1 uart clock (uart.reset clock).1 (uart.reset clock).2 := by
  have emptied : Step 1 (uart.abandon clock).1 (uart.abandon clock).2
      { (uart.abandon clock).1 with received := [] } (uart.abandon clock).2 :=
    .ofReceived 1 _ _ fun _ => Nat.zero_le _
  have raised := emptied.trans (.ofLine 1 _ rfl false)
  exact ((abandon_step 1 uart clock).trans raised).trans (.ofBank 1 _ _ rfl Bank.Fits.reset)

/-! ## Restored interfaces -/

/-- The deadlines of the saved interface come at least so many cycles after it is restored. -/
structure Snapshot.Ahead (least : UInt64) (saved : Snapshot) : Prop where
  sending : ∀ byte cycles, saved.sending = some (byte, cycles) → least ≤ cycles
  breaking : ∀ cycles, saved.breakRemaining = some cycles → least ≤ cycles

/-- A break is timed only while the saved line is low. -/
def Snapshot.IsSilent (saved : Snapshot) : Prop :=
  saved.lineLow = false → saved.breakRemaining = none

theorem snapshot_isSilent (silent : uart.IsSilent) : (uart.snapshot clock).IsSilent := by
  intro raised
  simp [snapshot, silent raised]

theorem snapshot_ahead (ahead : ∀ deadline ∈ uart.held, clock.hasReached deadline.time = false) :
    (uart.snapshot clock).Ahead 1 where
  sending byte cycles saved := by
    obtain ⟨⟨_, deadline⟩, sending, same⟩ := Option.map_eq_some_iff.1 saved
    cases same
    refine Clock.one_le_remaining (ahead deadline (Multiset.mem_add.2 (.inl ?_)))
    simp [sending]
  breaking cycles saved := by
    obtain ⟨deadline, timed, rfl⟩ := Option.map_eq_some_iff.1 saved
    refine Clock.one_le_remaining (ahead deadline (Multiset.mem_add.2 (.inr ?_)))
    simp [timed]

/-- An interface resumes nothing, or it sends the byte and waits for the rest of its frame. -/
theorem of_resumeByte {saved : Option (UInt8 × UInt64)}
    (done : uart.resumeByte clock saved = .ok (after, later)) :
    (saved = none ∧ after = uart ∧ later = clock) ∨
      ∃ byte cycles deadline, saved = some (byte, cycles) ∧
        clock.scheduleIn cycles = .ok (deadline, later) ∧
        after = { uart with shifter := some (byte, deadline) } := by
  cases saved with
  | none =>
      cases done
      exact .inl ⟨rfl, rfl, rfl⟩
  | some sending =>
      obtain ⟨⟨deadline, issuing⟩, placed, same⟩ := Run.except_bind_eq_ok.1 done
      cases same
      exact .inr ⟨sending.1, sending.2, deadline, rfl, placed, rfl⟩

/-- An interface resumes nothing, or it times the rest of the break. -/
theorem of_resumeBreak {saved : Option UInt64}
    (done : uart.resumeBreak clock saved = .ok (after, later)) :
    (saved = none ∧ after = uart ∧ later = clock) ∨
      ∃ cycles deadline, saved = some cycles ∧ clock.scheduleIn cycles = .ok (deadline, later) ∧
        after = { uart with breakDue := some deadline } := by
  cases saved with
  | none =>
      cases done
      exact .inl ⟨rfl, rfl, rfl⟩
  | some cycles =>
      obtain ⟨⟨deadline, issuing⟩, placed, same⟩ := Run.except_bind_eq_ok.1 done
      cases same
      exact .inr ⟨cycles, deadline, rfl, placed, rfl⟩

/-- An interface refuses what was saved and is as it was, or it abandons what it was at, stores what
was saved and resumes the byte and the break. -/
theorem of_restore {saved : Snapshot} {answer : Except DeviceError Unit}
    (done : uart.restore clock saved = .ok (answer, after, later)) :
    ((∃ error, answer = .error error) ∧ after = uart ∧ later = clock) ∨
      answer = .ok () ∧ ∃ bank between middle, uart.bank.load? saved.regs = some bank ∧
        saved.received.length ≤ uart.capacity ∧
        Uart.resumeByte { (uart.abandon clock).1 with
            bank, received := saved.received, lineLow := saved.lineLow } (uart.abandon clock).2
          saved.sending = .ok (between, middle) ∧
        between.resumeBreak middle saved.breakRemaining = .ok (after, later) := by
  unfold restore at done
  split at done
  next =>
    cases done
    exact .inl ⟨⟨_, rfl⟩, rfl, rfl⟩
  next bank loaded =>
    split at done
    next =>
      cases done
      exact .inl ⟨⟨_, rfl⟩, rfl, rfl⟩
    next short =>
      obtain ⟨⟨between, middle⟩, resumedByte, rest⟩ := Run.except_bind_eq_ok.1 done
      obtain ⟨⟨timing, last⟩, resumedBreak, same⟩ := Run.except_bind_eq_ok.1 rest
      cases same
      exact .inr ⟨rfl, bank, between, middle, loaded, Nat.le_of_not_lt short, resumedByte,
        resumedBreak⟩

theorem resumeByte_step (idle : uart.shifter = none) {saved : Option (UInt8 × UInt64)}
    (ahead : ∀ byte cycles, saved = some (byte, cycles) → least ≤ cycles)
    (done : uart.resumeByte clock saved = .ok (after, later)) :
    Step least uart clock after later ∧ after.breakDue = uart.breakDue ∧
      after.lineLow = uart.lineLow := by
  obtain ⟨-, rfl, rfl⟩ | ⟨byte, cycles, deadline, saving, placed, rfl⟩ := of_resumeByte done
  · exact ⟨.refl least after later, rfl, rfl⟩
  · exact ⟨.ofShifter idle byte (ahead byte cycles saving) placed, rfl, rfl⟩

theorem resumeBreak_step (idle : uart.breakDue = none) {saved : Option UInt64}
    (silent : uart.lineLow = false → saved = none)
    (ahead : ∀ cycles, saved = some cycles → least ≤ cycles)
    (done : uart.resumeBreak clock saved = .ok (after, later)) :
    Step least uart clock after later := by
  obtain ⟨-, rfl, rfl⟩ | ⟨cycles, deadline, rfl, placed, rfl⟩ := of_resumeBreak done
  · exact .refl least after later
  · have low : uart.lineLow = true := by
      cases level : uart.lineLow with
      | true => rfl
      | false => exact absurd (silent level) (Option.some_ne_none cycles)
    exact .ofBreak idle low (ahead cycles rfl) placed

theorem restore_step {saved : Snapshot} (ahead : saved.Ahead least) (silent : saved.IsSilent)
    {answer : Except DeviceError Unit}
    (done : uart.restore clock saved = .ok (answer, after, later)) :
    Step least uart clock after later := by
  obtain ⟨-, rfl, rfl⟩ | ⟨-, bank, between, middle, loaded, short, resumedByte, resumedBreak⟩ :=
    of_restore done
  · exact .refl least _ _
  have abandoned := abandon_step least uart clock
  have loading : Step least uart clock
      { (uart.abandon clock).1 with bank, received := saved.received, lineLow := saved.lineLow }
      (uart.abandon clock).2 :=
    { abandoned with
      resets := Bank.resets_of_load? loaded
      fits := fun fits => fits.load? loaded
      room := fun _ => short
      silent := fun _ _ => rfl }
  obtain ⟨step, idle, level⟩ := resumeByte_step rfl ahead.sending resumedByte
  refine loading.trans (step.trans (resumeBreak_step idle ?_ ahead.breaking resumedBreak))
  rw [level]
  exact silent

/-! ## Everything an interface does -/

/-- An operation of an interface, with what it leaves. -/
inductive Does (restorable : Snapshot → Prop) (uart : Uart) (clock : Clock) :
    Uart → Clock → Prop where
  | read (width : Width) (address : UInt32) :
      Does restorable uart clock (uart.read width address).value.2 clock
  | write {after : Uart} {later : Clock} (width : Width) (address value : UInt32)
      (done : (uart.write clock width address value).outcome = .ok (after, later)) :
      Does restorable uart clock after later
  | poll : Does restorable uart clock (uart.poll clock).value clock
  | reset : Does restorable uart clock (uart.reset clock).1 (uart.reset clock).2
  | receive (byte : UInt8) : Does restorable uart clock (uart.receive byte).value clock
  | setLine {after : Uart} {later : Clock} (high : Bool)
      (done : uart.setLine clock high = .ok (after, later)) : Does restorable uart clock after later
  | restore {saved : Snapshot} {answer : Except DeviceError Unit} {after : Uart} {later : Clock}
      (own : restorable saved) (done : uart.restore clock saved = .ok (answer, after, later)) :
      Does restorable uart clock after later

theorem Step.weaken {less : UInt64} (le : less ≤ least) (step : Step least uart clock after later) :
    Step less uart clock after later :=
  { step with serves := step.serves.weaken le }

theorem Does.step {restorable : Snapshot → Prop} (does : Does restorable uart clock after later)
    (le : least ≤ 1) (ahead : ∀ saved, restorable saved → saved.Ahead least)
    (own : ∀ saved, restorable saved → saved.IsSilent) (silent : uart.IsSilent) :
    Step least uart clock after later := by
  cases does with
  | read width address => exact (read_step uart clock width address).weaken le
  | write width address value done =>
      exact (write_step uart clock width address value _ done : Step 1 uart clock _ _).weaken le
  | poll => exact (poll_step uart clock).1.weaken le
  | reset => exact (reset_step uart clock).weaken le
  | receive byte => exact (receive_step uart clock byte).weaken le
  | setLine high done => exact (setLine_step silent done).weaken le
  | restore known done => exact restore_step (ahead _ known) (own _ known) done

/-- The interface of a number, a source and a capacity, with registers and received bytes that
fit. -/
structure Sound (number : Nat) (origin : UInt8) (room : Nat) (uart : Uart) : Prop where
  index : uart.index = number
  source : uart.source = origin
  capacity : uart.capacity = room
  resets : uart.bank.resets = (Bank.initial registers).resets
  fits : uart.bank.Fits
  room : uart.HasRoom
  silent : uart.IsSilent

theorem Evolves.sound (evolves : Evolves uart after) {number room : Nat} {origin : UInt8}
    (sound : Sound number origin room uart) : Sound number origin room after where
  index := evolves.index.trans sound.index
  source := evolves.source.trans sound.source
  capacity := evolves.capacity.trans sound.capacity
  resets := evolves.resets.trans sound.resets
  fits := evolves.fits sound.fits
  room := evolves.room sound.room
  silent := evolves.silent sound.silent

/-! ## The clock, whatever was restored

A saved interface that times a break on a high line makes `setLine` forget a pending deadline.
The clock's other users do not notice even then. -/

/-- What any operation does to an interface and its clock, whatever was restored. -/
structure Tends (least : UInt64) (uart : Uart) (clock : Clock) (after : Uart) (later : Clock) :
    Prop where
  source : after.source = uart.source
  uses : Clock.Uses least uart.held after.held clock later

theorem Step.tends (step : Step least uart clock after later) : Tends least uart clock after later :=
  ⟨step.source, step.serves.uses⟩

theorem setLine_tends {high : Bool} (done : uart.setLine clock high = .ok (after, later)) :
    Tends 1 uart clock after later := by
  cases of_setLine done with
  | raised => exact ((abandonBreak_step 1 uart clock).trans (.ofLine 1 _ rfl false)).tends
  | kept => exact (Step.refl 1 uart clock).tends
  | timed _ _ placed =>
      -- The deadline that is forgotten is left to the clock.
      refine ⟨rfl, Deadline.single (uart.shifter.map (·.2)) + 0, ?_, ?_⟩
      · exact Multiset.add_le_add_left (Multiset.zero_le _)
      · exact (Clock.Serves.scheduleIn placed (one_le_frameCycles _)).frame_left _
  | lowered => exact ⟨rfl, (Clock.Serves.refl 1 uart.held clock).uses⟩

theorem resumeBreak_serves (idle : uart.breakDue = none) {saved : Option UInt64}
    (ahead : ∀ cycles, saved = some cycles → least ≤ cycles)
    (done : uart.resumeBreak clock saved = .ok (after, later)) :
    after.source = uart.source ∧ Clock.Serves least uart.held after.held clock later := by
  obtain ⟨-, rfl, rfl⟩ | ⟨cycles, deadline, saving, placed, rfl⟩ := of_resumeBreak done
  · exact ⟨rfl, .refl least _ later⟩
  · rw [held, idle]
    exact ⟨rfl, (Clock.Serves.scheduleIn placed (ahead cycles saving)).frame_left _⟩

theorem restore_tends {saved : Snapshot} (ahead : saved.Ahead least)
    {answer : Except DeviceError Unit}
    (done : uart.restore clock saved = .ok (answer, after, later)) :
    Tends least uart clock after later := by
  obtain ⟨-, rfl, rfl⟩ | ⟨-, bank, between, middle, -, -, resumedByte, resumedBreak⟩ :=
    of_restore done
  · exact (Step.refl least _ _).tends
  · obtain ⟨step, idle, -⟩ := resumeByte_step rfl ahead.sending resumedByte
    obtain ⟨source, serves⟩ := resumeBreak_serves idle ahead.breaking resumedBreak
    refine ⟨source.trans step.source, Clock.Serves.uses ?_⟩
    exact (abandon_step least uart clock).serves.trans (step.serves.trans serves)

theorem Does.tends {restorable : Snapshot → Prop} (does : Does restorable uart clock after later)
    (le : least ≤ 1) (ahead : ∀ saved, restorable saved → saved.Ahead least) :
    Tends least uart clock after later := by
  cases does with
  | read width address => exact ((read_step uart clock width address).weaken le).tends
  | write width address value done =>
      have step : Step 1 uart clock _ _ := write_step uart clock width address value _ done
      exact (step.weaken le).tends
  | poll => exact ((poll_step uart clock).1.weaken le).tends
  | reset => exact ((reset_step uart clock).weaken le).tends
  | receive byte => exact ((receive_step uart clock byte).weaken le).tends
  | setLine high done =>
      have tends := setLine_tends done
      exact ⟨tends.source, tends.uses.weaken le⟩
  | restore known done => exact restore_tends (ahead _ known) done

end Uart

end SocPeripherals
