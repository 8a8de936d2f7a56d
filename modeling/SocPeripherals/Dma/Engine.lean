import SocPeripherals.Device
import SocPeripherals.Dma.Channel

/-!
# The direct memory access engine

The engine holds two channels, whose registers follow each other in its window. Both work on
the same host memory.
-/

namespace SocPeripherals

namespace Dma

/-- How many channels there are. -/
abbrev channelCount : Nat := 2

/-- The distance from one channel's registers to the next one's. -/
def stride : UInt32 := 0x10

end Dma

/-- The channels of the engine. -/
structure Dma where
  channels : Vector Dma.Channel Dma.channelCount
deriving DecidableEq

namespace Dma

variable {μ : Type}

/-- An engine at rest. -/
def initial (cyclesPerUnit : UInt64) : Dma :=
  ⟨Vector.ofFn fun index =>
    { index := index.val, source := Interrupt.dmaSources[index], cyclesPerUnit }⟩

/-- The channel whose registers are around an address, and the offset within them. -/
def route? (address : UInt32) : Option (Fin channelCount × UInt32) :=
  if within : (address / stride).toNat < channelCount then
    some (⟨_, within⟩, address % stride)
  else none

/-- The channel of a number. -/
def channel? (number : Nat) : Option (Fin channelCount) :=
  if within : number < channelCount then some ⟨number, within⟩ else none

/-- Replaces a channel. -/
def set (dma : Dma) (index : Fin channelCount) (channel : Channel) : Dma :=
  ⟨dma.channels.set index channel index.isLt⟩

/-- A transfer is under way on the channel of a number. -/
def isActive (dma : Dma) (number : Nat) : Bool :=
  match channel? number with
  | none => false
  | some index => dma.channels[index].isActive

/-- Begins a transfer for the host. -/
def start [Bus μ] (dma : Dma) (clock : Clock) (memory : μ) (number : Nat)
    (source target count control : UInt32) :
    Run Signal (Except DeviceError Unit × Dma × Clock × μ) := do
  match channel? number with
  | none => return (.error (.invalidState "no such dma channel"), dma, clock, memory)
  | some index =>
      let (answer, channel, clock, memory) ←
        dma.channels[index].start clock memory source target count control
      return (answer, dma.set index channel, clock, memory)

/-- A bus read. -/
def read [Bus μ] (dma : Dma) (clock : Clock) (memory : μ) (width : Width) (address : UInt32) :
    Traced Signal (UInt32 × Dma × Clock × μ) := do
  match route? address with
  | none =>
      Traced.signal (.note (.noRegister "dma" address))
      return (0, dma, clock, memory)
  | some (index, offset) =>
      let (value, channel, clock, memory) ← dma.channels[index].read clock memory width offset
      return (value, dma.set index channel, clock, memory)

/-- A bus write. -/
def write [Bus μ] (dma : Dma) (clock : Clock) (memory : μ) (width : Width)
    (address value : UInt32) : Run Signal (Dma × Clock × μ) := do
  match route? address with
  | none =>
      Run.signal (.note (.noRegister "dma" address))
      return (dma, clock, memory)
  | some (index, offset) =>
      let (channel, clock, memory) ←
        dma.channels[index].write clock memory width offset value
      return (dma.set index channel, clock, memory)

/-- Polls one channel. -/
def pollChannel [Bus μ] (dma : Dma) (clock : Clock) (memory : μ) (index : Fin channelCount) :
    Traced Signal (Dma × Clock × μ) := do
  let (channel, clock, memory) ← dma.channels[index].poll clock memory
  return (dma.set index channel, clock, memory)

/-- Does what has become due, channel by channel. -/
def poll [Bus μ] (dma : Dma) (clock : Clock) (memory : μ) : Traced Signal (Dma × Clock × μ) := do
  let (dma, clock, memory) ← dma.pollChannel clock memory 0
  dma.pollChannel clock memory 1

/-- Resets one channel. -/
def resetChannel (dma : Dma) (clock : Clock) (index : Fin channelCount) : Dma × Clock :=
  let (channel, clock) := dma.channels[index].reset clock
  (dma.set index channel, clock)

/-- Resets the channels. -/
def reset (dma : Dma) (clock : Clock) : Dma × Clock :=
  let (dma, clock) := dma.resetChannel clock 0
  dma.resetChannel clock 1

/-- Saves the channels. -/
def snapshot (dma : Dma) (clock : Clock) : List Snapshot :=
  dma.channels.toList.map fun channel => channel.snapshot clock

/-- Takes over a saved channel. -/
def restoreChannel (dma : Dma) (clock : Clock) (index : Fin channelCount) (saved : Snapshot) :
    Except Fault (Except DeviceError Unit × Dma × Clock) := do
  let (answer, channel, clock) ← dma.channels[index].restore clock saved
  return (answer, dma.set index channel, clock)

/-- Takes over saved channels in order, up to the first that does not fit. -/
def restore (dma : Dma) (clock : Clock) :
    List Snapshot → Except Fault (Except DeviceError Unit × Dma × Clock)
  | [first, second] => do
      let (answer, dma, clock) ← dma.restoreChannel clock 0 first
      match answer with
      | .error error => return (.error error, dma, clock)
      | .ok () => dma.restoreChannel clock 1 second
  | _ => .ok (.error (.snapshotMismatch "dma channel count"), dma, clock)

/-- An engine with the memory it works on. -/
structure Attached (μ : Type) where
  dma : Dma
  memory : μ

namespace Attached

/-- Begins a transfer for the host. -/
def start [Bus μ] (attached : Attached μ) (clock : Clock) (number : Nat)
    (source target count control : UInt32) :
    Run Signal (Except DeviceError Unit × Attached μ × Clock) := do
  let (answer, dma, clock, memory) ←
    attached.dma.start clock attached.memory number source target count control
  return (answer, ⟨dma, memory⟩, clock)

/-- Takes over saved channels. -/
def restore (attached : Attached μ) (clock : Clock) (saved : List Snapshot) :
    Run Signal (Except DeviceError Unit × Attached μ × Clock) := do
  let (answer, dma, clock) ← attached.dma.restore clock saved
  return (answer, { attached with dma }, clock)

end Attached

instance [Bus μ] : Device (Attached μ) where
  read attached clock width address := do
    let (value, dma, clock, memory) ← attached.dma.read clock attached.memory width address
    return (value, ⟨dma, memory⟩, clock)
  write attached clock width address value := do
    let (dma, clock, memory) ← attached.dma.write clock attached.memory width address value
    return ((), ⟨dma, memory⟩, clock)
  poll attached clock := do
    let (dma, clock, memory) ← attached.dma.poll clock attached.memory
    return ((), ⟨dma, memory⟩, clock)
  reset attached clock :=
    let (dma, clock) := attached.dma.reset clock
    pure ((), ⟨dma, attached.memory⟩, clock)

end Dma

end SocPeripherals
