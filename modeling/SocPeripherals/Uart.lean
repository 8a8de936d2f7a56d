import SocPeripherals.Device
import SocPeripherals.Storage

/-!
# Serial interfaces

An interface sends one byte at a time: the byte written to its transmit register leaves the shifter
after the cycles of one frame. Received bytes wait in a queue of bounded length until they are
read. A receive line that stays low for a whole frame while the interface is enabled is a break.
Clearing the enable bit abandons the byte in the shifter and the timing of a break.
-/

namespace SocPeripherals

namespace Uart

/-- The interface's registers. -/
def registers : List Register :=
  [{ name := "UCON", offset := 0x00, width := .word, reset := 0, access := .readWrite },
   { name := "UBDR", offset := 0x04, width := .word, reset := 0, access := .readWrite },
   { name := "USTAT", offset := 0x08, width := .word, reset := 0, access := .clearOnRead 0x6 },
   { name := "UTXB", offset := 0x0c, width := .word, reset := 0, access := .writeOnly },
   { name := "URXB", offset := 0x10, width := .word, reset := 0, access := .readOnly }]

/-- The control register. -/
def controlIndex : Fin registers.length := ⟨0, by decide⟩

/-- The divisor register. -/
def divisorIndex : Fin registers.length := ⟨1, by decide⟩

/-- The status register. -/
def statusIndex : Fin registers.length := ⟨2, by decide⟩

/-- The transmit register. -/
def transmitIndex : Fin registers.length := ⟨3, by decide⟩

/-- The receive register. -/
def receiveIndex : Fin registers.length := ⟨4, by decide⟩

/-- The distance from one interface's registers to the next one's. -/
def stride : UInt32 := 0x20

/-- How many received bytes an interface keeps unless told otherwise. -/
def defaultCapacity : Nat := 16

/-- The control bit for eight data bits instead of seven. -/
def wideBit : UInt32 := 0x1

/-- The control bit for two stop bits instead of one. -/
def longStopBit : UInt32 := 0x4

/-- The control bit that adds a parity bit, whichever parity it is. -/
def parityBit : UInt32 := 0x10

/-- The control bit that asks for the interrupt when a byte has been sent. -/
def transmitInterruptBit : UInt32 := 0x20

/-- The control bit that asks for the interrupt when something has been received. -/
def receiveInterruptBit : UInt32 := 0x40

/-- The control bit that enables the interface. -/
def enableBit : UInt32 := 0x100

/-- The status bit that tells of a dropped byte. -/
def overrunBit : UInt32 := 0x2

/-- The status bit that tells of a break. -/
def breakBit : UInt32 := 0x4

/-- The bits of the data registers that hold a byte. -/
def dataBits : UInt32 := 0xff

/-- What an interface saves. Times are kept relative to the clock. -/
structure Snapshot where
  regs : List UInt32
  received : List UInt8
  /-- The byte in the shifter and the cycles until it is sent. -/
  sending : Option (UInt8 × UInt64)
  lineLow : Bool
  /-- The cycles until the low line is a break. -/
  breakRemaining : Option UInt64
deriving DecidableEq, Repr

end Uart

/-- A serial interface with the source of its interrupt. -/
structure Uart where
  index : Nat
  source : UInt8
  /-- How many received bytes the interface keeps. -/
  capacity : Nat := Uart.defaultCapacity
  bank : Bank Uart.registers := .initial Uart.registers
  /-- The received bytes, oldest first. -/
  received : List UInt8 := []
  /-- The byte being sent, and the deadline at which it has been. -/
  shifter : Option (UInt8 × Deadline) := none
  /-- The receive line is low. -/
  lineLow : Bool := false
  /-- The deadline at which the low line is a break. -/
  breakDue : Option Deadline := none
deriving DecidableEq

namespace Uart

/-- An interface at power-on, with room in its queue for `capacity` received bytes. -/
def create (index : Nat) (source : UInt8) (capacity : Nat) : Except Fault Uart := do
  Storage.reserve capacity
  return { index, source, capacity }

/-- Some of the given control bits are set. -/
def controls (uart : Uart) (bits : UInt32) : Bool :=
  uart.bank.get controlIndex &&& bits != 0

/-- The interface is enabled. -/
def isEnabled (uart : Uart) : Bool := uart.controls enableBit

/-- The bits of a frame: a start bit, the data, the parity and the stop bits. -/
def frameBits (uart : Uart) : UInt64 :=
  1 + (if uart.controls wideBit then 8 else 7) + (if uart.controls parityBit then 1 else 0)
    + (if uart.controls longStopBit then 2 else 1)

/-- The cycles that one bit takes. -/
def cyclesPerBit (uart : Uart) : UInt64 :=
  32 * ((uart.bank.get divisorIndex &&& 0xffff).toUInt64 + 1)

/-- The cycles that a frame takes. -/
def frameCycles (uart : Uart) : UInt64 := uart.frameBits * uart.cyclesPerBit

/-- The bits sent per second by a clock of the given frequency. -/
def baudRate (uart : Uart) (frequency : UInt64) : UInt64 := frequency / uart.cyclesPerBit

/-- A byte is being sent. -/
def isTransmitting (uart : Uart) : Bool := uart.shifter.isSome

/-- The status bits that are not stored: whether and how many received bytes wait, shown up to
31, and whether the transmitter is idle. -/
def liveStatus (uart : Uart) : UInt32 :=
  let ready : UInt32 := if uart.received.isEmpty then 0 else 0x1
  let idle : UInt32 := if uart.isTransmitting then 0 else 0x20
  ready ||| idle ||| (UInt32.ofNat (min uart.received.length 31) <<< 8)

/-- The request for the interrupt that something received makes. -/
def receiveRequest (uart : Uart) : List Signal :=
  if uart.controls receiveInterruptBit then [.interrupt uart.source] else []

/-- Takes a byte from the receive line. A byte ends a break; one that finds the queue full is
dropped. -/
def receive (uart : Uart) (byte : UInt8) : Traced Signal Uart :=
  if uart.isEnabled then
    let cleared := { uart with bank := uart.bank.clearBits statusIndex breakBit }
    if uart.received.length < uart.capacity then
      ⟨{ cleared with received := uart.received ++ [byte] }, uart.receiveRequest⟩
    else
      ⟨{ cleared with bank := cleared.bank.setBits statusIndex overrunBit },
        uart.receiveRequest ++ [.note (.receiveOverrun uart.index byte)]⟩
  else ⟨uart, [.note (.receiveWhileDisabled uart.index byte)]⟩

/-- Stops timing a break. -/
def abandonBreak (uart : Uart) (clock : Clock) : Uart × Clock :=
  ({ uart with breakDue := none }, clock.dropAny uart.breakDue)

/-- Starts timing a break. -/
def timeBreak (uart : Uart) (clock : Clock) : Except Fault (Uart × Clock) := do
  let (deadline, clock) ← clock.scheduleIn uart.frameCycles
  return ({ uart with breakDue := some deadline }, clock)

/-- Abandons the byte in the shifter. -/
def abandonByte (uart : Uart) (clock : Clock) : Uart × Clock :=
  ({ uart with shifter := none }, clock.dropAny (uart.shifter.map (·.2)))

/-- Abandons everything that the interface has placed on the clock. -/
def abandon (uart : Uart) (clock : Clock) : Uart × Clock :=
  let (uart, clock) := uart.abandonByte clock
  uart.abandonBreak clock

/-- Gives the receive line a level. -/
def setLine (uart : Uart) (clock : Clock) (high : Bool) : Except Fault (Uart × Clock) :=
  if high then .ok ({ uart with lineLow := false }.abandonBreak clock)
  else if uart.lineLow then .ok (uart, clock)
  else
    let lowered := { uart with lineLow := true }
    if uart.isEnabled then lowered.timeBreak clock else .ok (lowered, clock)

/-- Puts a byte into the shifter of an enabled and idle interface. -/
def transmit (uart : Uart) (clock : Clock) (byte : UInt8) : Run Signal (Uart × Clock) := do
  if !uart.isEnabled then
    Run.signal (.note (.transmitWhileDisabled uart.index byte))
    return (uart, clock)
  else if uart.isTransmitting then
    Run.signal (.note (.transmitWhileBusy uart.index byte))
    return (uart, clock)
  else
    let (deadline, clock) ← clock.scheduleIn uart.frameCycles
    return ({ uart with shifter := some (byte, deadline) }, clock)

/-- What a change of the control register does. Disabling the interface abandons what it was timing;
enabling it while the line is low starts timing a break. -/
def controlled (uart : Uart) (clock : Clock) (change : Change) : Run Signal (Uart × Clock) := do
  if change.falling &&& enableBit ≠ 0 then
    Run.signal (.note (.uartDisabled uart.index))
    return uart.abandon clock
  else if change.rising &&& enableBit ≠ 0 ∧ uart.lineLow then
    let (uart, clock) := uart.abandonBreak clock
    uart.timeBreak clock
  else return (uart, clock)

/-- Takes the oldest received byte, 0 if there is none. -/
def takeReceived (uart : Uart) : UInt8 × Uart :=
  match uart.received with
  | [] => (0, uart)
  | byte :: rest => (byte, { uart with received := rest })

/-- A bus read. Only a read of the lowest byte of the receive register takes a received byte. -/
def read (uart : Uart) (width : Width) (address : UInt32) :
    Traced Signal (UInt32 × Uart) := do
  match ← Selection.noted .note "uart" registers width address with
  | none => return (0, uart)
  | some selection =>
      if selection.index = receiveIndex then
        if selection.lane.touches dataBits then
          let (byte, uart) := uart.takeReceived
          return (selection.lane.extract byte.toUInt32, uart)
        else return (0, uart)
      else
        let (stored, bank) := uart.bank.read selection
        let live := if selection.index = statusIndex then
          selection.lane.extract uart.liveStatus else 0
        return (stored ||| live, { uart with bank })

/-- A bus write. Only a write of the lowest byte of the transmit register sends a byte. -/
def write (uart : Uart) (clock : Clock) (width : Width) (address value : UInt32) :
    Run Signal (Uart × Clock) := do
  match ← (Selection.noted .note "uart" registers width address : Traced Signal _) with
  | none => return (uart, clock)
  | some selection =>
      let (change, bank) := uart.bank.write selection value
      let uart := { uart with bank }
      if selection.index = controlIndex then uart.controlled clock change
      else if selection.index = transmitIndex ∧ selection.lane.touches dataBits then
        uart.transmit clock change.new.toUInt8
      else return (uart, clock)

/-- Sends the byte in the shifter, if its deadline has been reached. -/
def pollShifter (uart : Uart) (clock : Clock) : Traced Signal Uart :=
  match uart.shifter with
  | none => pure uart
  | some (byte, deadline) =>
      if clock.hasReached deadline.time then
        ⟨{ uart with shifter := none },
          [.note (.transmitted uart.index byte), .transmit uart.index byte] ++
            if uart.controls transmitInterruptBit then [.interrupt uart.source] else []⟩
      else pure uart

/-- Reports a break, if its deadline has been reached. -/
def pollBreak (uart : Uart) (clock : Clock) : Traced Signal Uart :=
  let (reached, due) := clock.claim uart.breakDue
  if reached then
    ⟨{ uart with breakDue := due, bank := uart.bank.setBits statusIndex breakBit },
      .note (.breakDetected uart.index) :: uart.receiveRequest⟩
  else pure uart

/-- Does what has become due: first the byte being sent, then the break. -/
def poll (uart : Uart) (clock : Clock) : Traced Signal Uart := do
  (← uart.pollShifter clock).pollBreak clock

/-- Abandons everything, empties the queue, raises the receive line and returns the registers
to their power-on values. -/
def reset (uart : Uart) (clock : Clock) : Uart × Clock :=
  let (uart, clock) := uart.abandon clock
  ({ uart with received := [], lineLow := false, bank := uart.bank.reset }, clock)

/-- Saves the interface. -/
def snapshot (uart : Uart) (clock : Clock) : Snapshot :=
  { regs := uart.bank.toList
    received := uart.received
    sending := uart.shifter.map fun (byte, deadline) => (byte, clock.remaining deadline)
    lineLow := uart.lineLow
    breakRemaining := uart.breakDue.map clock.remaining }

/-- Puts a saved byte back into the shifter. -/
def resumeByte (uart : Uart) (clock : Clock) : Option (UInt8 × UInt64) →
    Except Fault (Uart × Clock)
  | none => .ok (uart, clock)
  | some (byte, cycles) => do
      let (deadline, clock) ← clock.scheduleIn cycles
      return ({ uart with shifter := some (byte, deadline) }, clock)

/-- Takes up the timing of a saved break. -/
def resumeBreak (uart : Uart) (clock : Clock) : Option UInt64 → Except Fault (Uart × Clock)
  | none => .ok (uart, clock)
  | some cycles => do
      let (deadline, clock) ← clock.scheduleIn cycles
      return ({ uart with breakDue := some deadline }, clock)

/-- Takes over a saved interface. -/
def restore (uart : Uart) (clock : Clock) (saved : Snapshot) :
    Except Fault (Except DeviceError Unit × Uart × Clock) := do
  match uart.bank.load? saved.regs with
  | none => return (.error (.snapshotMismatch "uart registers"), uart, clock)
  | some bank =>
      if uart.capacity < saved.received.length then
        return (.error (.snapshotMismatch "uart receive fifo"), uart, clock)
      else
        let (uart, clock) := uart.abandon clock
        let loaded := { uart with bank, received := saved.received, lineLow := saved.lineLow }
        let (uart, clock) ← loaded.resumeByte clock saved.sending
        let (uart, clock) ← uart.resumeBreak clock saved.breakRemaining
        return (.ok (), uart, clock)

instance : Device Uart where
  read uart clock width address := do
    let (value, uart) ← uart.read width address
    return (value, uart, clock)
  write uart clock width address value := do return ((), ← uart.write clock width address value)
  poll uart clock := do return ((), ← uart.poll clock, clock)
  reset uart clock := pure ((), uart.reset clock)

end Uart

end SocPeripherals
