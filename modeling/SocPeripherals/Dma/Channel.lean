import SocPeripherals.Dma.Transfer
import SocPeripherals.Register.Access

/-!
# A direct memory access channel

A channel moves data between two places of the host's memory on behalf of the processor.
Raising its start bit begins a transfer of the stored source, target and count. It takes a fixed
number of cycles per unit; if that number is 0, the whole transfer happens at once. Otherwise the
units move as the channel is looked at: each access to a register, and the poll at the end, first
moves the units that have become due. While a transfer is under way its registers cannot be
written.
-/

namespace SocPeripherals

namespace Dma

/-- A channel's registers. -/
def registers : List Register :=
  [{ name := "DMASA", offset := 0x0, width := .word, reset := 0, access := .readWrite },
   { name := "DMADA", offset := 0x4, width := .word, reset := 0, access := .readWrite },
   { name := "DMATC", offset := 0x8, width := .word, reset := 0, access := .readWrite },
   { name := "DMAC", offset := 0xc, width := .word, reset := 0, access := .readWrite }]

/-- The source address register. -/
def sourceIndex : Fin registers.length := ⟨0, by decide⟩

/-- The target address register. -/
def targetIndex : Fin registers.length := ⟨1, by decide⟩

/-- The register of the count still to be moved. -/
def countIndex : Fin registers.length := ⟨2, by decide⟩

/-- The control register. -/
def controlIndex : Fin registers.length := ⟨3, by decide⟩

/-- The control bit that keeps the source address. -/
def holdSourceBit : UInt32 := 0x10

/-- The control bit that keeps the target address. -/
def holdTargetBit : UInt32 := 0x40

/-- The control bit that begins a transfer, set until it ends. -/
def startBit : UInt32 := 0x400

/-- The control bit that tells that the memory refused an access. -/
def errorBit : UInt32 := 0x8000

/-- The unit that a control word asks for. -/
def unitOf (control : UInt32) : Width :=
  if control &&& 3 = 0 then .byte else if control &&& 3 = 1 then .halfWord else .word

/-- How far an address moves on with each unit, given the control bit that keeps it. -/
def stepOf (control holdBit : UInt32) : UInt32 :=
  if control &&& holdBit ≠ 0 then 0 else (unitOf control).bytes

/-- The product of two words, or the largest word. -/
def boundedProduct (first second : UInt64) : UInt64 :=
  if first.toNat * second.toNat < UInt64.size then first * second else 0xffffffffffffffff

/-- What a channel saves of a transfer. -/
structure TransferSnapshot where
  total : UInt32
  moved : UInt32
  /-- The cycles since the transfer began. -/
  elapsed : UInt64
deriving DecidableEq, Repr

/-- What a channel saves. -/
structure Snapshot where
  regs : List UInt32
  transfer : Option TransferSnapshot
deriving DecidableEq, Repr

/-- A channel with the source of its interrupt. -/
structure Channel where
  index : Nat
  source : UInt8
  /-- The cycles that each unit takes, 0 for transfers that happen at once. -/
  cyclesPerUnit : UInt64
  bank : Bank registers := .initial registers
  transfer : Option Transfer := none
deriving DecidableEq

namespace Channel

variable {μ : Type}

/-- A transfer is under way. -/
def isActive (channel : Channel) : Bool := channel.transfer.isSome

/-- The refusal of a request while a transfer is under way. -/
def busy (channel : Channel) : DeviceError :=
  .invalidState s!"dma{channel.index} transfer in progress"

/-- Where the transfer stands, by the registers. -/
def position (channel : Channel) (transfer : Transfer) : Transfer.Position :=
  { source := channel.bank.get sourceIndex
    target := channel.bank.get targetIndex
    left := channel.bank.get countIndex
    moved := transfer.moved }

/-- Takes over where a transfer has come to. -/
def arrive (channel : Channel) (transfer : Transfer) (position : Transfer.Position) : Channel :=
  { channel with
    bank := ((channel.bank.set sourceIndex position.source).set targetIndex position.target).set
      countIndex position.left
    transfer := some { transfer with moved := position.moved } }

/-- Ends the transfer. -/
def finish (channel : Channel) (clock : Clock) (failed : Bool) :
    Traced Signal (Channel × Clock) :=
  let idle := channel.bank.clearBits controlIndex startBit
  let bank := if failed then idle.setBits controlIndex errorBit else idle.set countIndex 0
  ⟨({ channel with bank, transfer := none }, clock.dropAny (channel.transfer.bind (·.due))),
    [.note (.transferDone channel.index failed), .interrupt channel.source]⟩

/-- Moves on until `target` units have been moved. The transfer ends when that is all of them,
or when the memory refuses an access. -/
def advance [Bus μ] (channel : Channel) (clock : Clock) (memory : μ) (target : UInt32) :
    Traced Signal (Channel × Clock × μ) := do
  match channel.transfer with
  | none => return (channel, clock, memory)
  | some transfer =>
      let progress := transfer.moveUnits (transfer.outstanding target)
        (channel.position transfer) memory []
      let moved := channel.arrive transfer progress.position
      Traced.signalAll (progress.calls.reverse.map .host)
      match progress.refusal with
      | some refusal =>
          Traced.signal (.note (.transferFault channel.index refusal progress.position.source
            progress.position.target))
          let (ended, clock) ← moved.finish clock true
          return (ended, clock, progress.memory)
      | none =>
          if progress.position.moved = transfer.total then
            let (ended, clock) ← moved.finish clock false
            return (ended, clock, progress.memory)
          else return (moved, clock, progress.memory)

/-- The units that are due by now, as far as a count can tell. -/
def dueUnits (channel : Channel) (clock : Clock) (transfer : Transfer) : UInt32 :=
  let units := (clock.now - transfer.startedAt) / channel.cyclesPerUnit
  if units ≤ 0xffffffff then units.toUInt32 else 0xffffffff

/-- Moves the units that have become due. -/
def catchUp [Bus μ] (channel : Channel) (clock : Clock) (memory : μ) :
    Traced Signal (Channel × Clock × μ) :=
  match channel.transfer with
  | none => pure (channel, clock, memory)
  | some transfer =>
      if channel.cyclesPerUnit = 0 then pure (channel, clock, memory)
      else channel.advance clock memory (channel.dueUnits clock transfer)

/-- The transfer that the stored registers describe, with nothing moved yet. -/
def described (channel : Channel) (total : UInt32) (startedAt : UInt64) (due : Option Deadline) :
    Transfer :=
  let control := channel.bank.get controlIndex
  { unit := unitOf control
    sourceStep := stepOf control holdSourceBit
    targetStep := stepOf control holdTargetBit
    total
    moved := 0
    startedAt
    due }

/-- The note about a transfer that begins. -/
def startNote (channel : Channel) : Note :=
  .transferStarted channel.index (channel.bank.get countIndex)
    (unitOf (channel.bank.get controlIndex)) (channel.bank.get sourceIndex)
    (channel.bank.get targetIndex)

/-- Begins the transfer that the stored registers describe. One that takes no time happens at
once. -/
def begin [Bus μ] (channel : Channel) (clock : Clock) (memory : μ) :
    Run Signal (Channel × Clock × μ) := do
  let total := channel.bank.get countIndex
  Run.signal (.note channel.startNote)
  if channel.cyclesPerUnit ≠ 0 ∧ total ≠ 0 then
    let (due, clock) ← clock.scheduleIn (boundedProduct total.toUInt64 channel.cyclesPerUnit)
    let transfer := channel.described total clock.now (some due)
    return ({ channel with transfer := some transfer }, clock, memory)
  else
    let transfer := channel.described total clock.now none
    { channel with transfer := some transfer }.advance clock memory total

/-- Begins a transfer for the host, unless one is under way. -/
def start [Bus μ] (channel : Channel) (clock : Clock) (memory : μ)
    (source target count control : UInt32) :
    Run Signal (Except DeviceError Unit × Channel × Clock × μ) := do
  let (channel, clock, memory) ← channel.catchUp clock memory
  if channel.isActive then return (.error channel.busy, channel, clock, memory)
  else
    let bank := channel.bank
      |>.set sourceIndex source |>.set targetIndex target |>.set countIndex count
      |>.set controlIndex ((control ||| startBit) &&& ~~~errorBit)
    let after ← { channel with bank }.begin clock memory
    return (.ok (), after)

/-- A bus read. -/
def read [Bus μ] (channel : Channel) (clock : Clock) (memory : μ) (width : Width)
    (address : UInt32) : Traced Signal (UInt32 × Channel × Clock × μ) := do
  let (channel, clock, memory) ← channel.catchUp clock memory
  match ← Selection.noted .note "dma" registers width address with
  | none => return (0, channel, clock, memory)
  | some selection =>
      let (value, bank) := channel.bank.read selection
      return (value, { channel with bank }, clock, memory)

/-- What a change of the control register does: the start bit begins a transfer, and the error
bit changes only with transfers. -/
def controlled [Bus μ] (channel : Channel) (clock : Clock) (memory : μ) (change : Change) :
    Run Signal (Channel × Clock × μ) :=
  let kept := (change.new &&& ~~~errorBit) ||| (change.old &&& errorBit)
  let bank := channel.bank.set controlIndex kept
  if change.rising &&& startBit ≠ 0 then
    { channel with bank := bank.clearBits controlIndex errorBit }.begin clock memory
  else pure ({ channel with bank }, clock, memory)

/-- A bus write. -/
def write [Bus μ] (channel : Channel) (clock : Clock) (memory : μ) (width : Width)
    (address value : UInt32) : Run Signal (Channel × Clock × μ) := do
  let (channel, clock, memory) ← channel.catchUp clock memory
  match ← (Selection.noted .note "dma" registers width address : Traced Signal _) with
  | none => return (channel, clock, memory)
  | some selection =>
      if channel.isActive then
        Run.signal (.note (.writeWhileActive channel.index address))
        return (channel, clock, memory)
      else
        let (change, bank) := channel.bank.write selection value
        let channel := { channel with bank }
        if selection.index = controlIndex then channel.controlled clock memory change
        else return (channel, clock, memory)

/-- Moves the units that are due, once the deadline of the last of them has been reached. -/
def poll [Bus μ] (channel : Channel) (clock : Clock) (memory : μ) :
    Traced Signal (Channel × Clock × μ) :=
  match channel.transfer with
  | none => pure (channel, clock, memory)
  | some transfer =>
      let (reached, due) := clock.claim transfer.due
      if reached then
        { channel with transfer := some { transfer with due } }.catchUp clock memory
      else pure (channel, clock, memory)

/-- Abandons the transfer and returns the registers to their power-on values. -/
def reset (channel : Channel) (clock : Clock) : Channel × Clock :=
  ({ channel with bank := channel.bank.reset, transfer := none },
    clock.dropAny (channel.transfer.bind (·.due)))

/-- Saves the channel. -/
def snapshot (channel : Channel) (clock : Clock) : Snapshot :=
  { regs := channel.bank.toList
    transfer := channel.transfer.map fun transfer =>
      { total := transfer.total
        moved := transfer.moved
        elapsed := clock.now - transfer.startedAt } }

/-- Takes up a saved transfer. Its unit and steps are those of the stored control word. -/
def resume (channel : Channel) (clock : Clock) (saved : TransferSnapshot) :
    Except Fault (Channel × Clock) := do
  let duration := boundedProduct saved.total.toUInt64 channel.cyclesPerUnit
  let rest := if saved.elapsed < duration then duration - saved.elapsed else 0
  let (due, clock) ← clock.scheduleIn rest
  let transfer := channel.described saved.total (clock.now - saved.elapsed) (some due)
  return ({ channel with transfer := some { transfer with moved := saved.moved } }, clock)

/-- Takes over a saved channel. -/
def restore (channel : Channel) (clock : Clock) (saved : Snapshot) :
    Except Fault (Except DeviceError Unit × Channel × Clock) := do
  match channel.bank.load? saved.regs with
  | none => return (.error (.snapshotMismatch "dma registers"), channel, clock)
  | some bank =>
      if saved.transfer.isSome ∧ channel.cyclesPerUnit = 0 then
        return (.error (.snapshotMismatch "dma transfer timing"), channel, clock)
      else
        let (idle, clock) := channel.reset clock
        let loaded := { idle with bank }
        match saved.transfer with
        | none => return (.ok (), loaded, clock)
        | some transfer =>
            let (resumed, clock) ← loaded.resume clock transfer
            return (.ok (), resumed, clock)

end Channel

end Dma

end SocPeripherals
