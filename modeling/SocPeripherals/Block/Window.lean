import SocPeripherals.Block.Basic

/-!
# The block's bus window

The window gives each part of the block a range of addresses. An access beside the window
fails; one inside it that meets no part reads 0 or is ignored.
-/

namespace SocPeripherals

namespace Block

/-- The number of addresses in the window. -/
def windowSize : UInt32 := 0x2000

/-- The first address of the interrupt controller. -/
def controllerBase : UInt32 := 0x0800

/-- The first address of the direct memory access engine. -/
def dmaBase : UInt32 := 0x1000

/-- The first address of the timers. -/
def timerBase : UInt32 := 0x1400

/-- The first address of the serial interfaces. -/
def uartBase : UInt32 := 0x1800

/-- A part of the block that answers bus accesses. -/
inductive Part where
  | misc
  | controller
  | dma
  | timer (index : Fin timerCount)
  | uart (index : Fin uartCount)
deriving DecidableEq, Repr

/-- The part that answers at an address of the window, and the offset within it. -/
def route? (address : UInt32) : Option (Part × UInt32) :=
  if address < 0x8 then some (.misc, address)
  else if controllerBase ≤ address ∧ address < controllerBase + 0xc then
    some (.controller, address - controllerBase)
  else if dmaBase ≤ address ∧ address < dmaBase + 2 * Dma.stride then
    some (.dma, address - dmaBase)
  else if timerBase ≤ address ∧ address < timerBase + 4 * Timer.stride then
    let offset := address - timerBase
    some (.timer (Fin.ofNat timerCount (offset / Timer.stride).toNat), offset % Timer.stride)
  else if uartBase ≤ address ∧ address < uartBase + 2 * Uart.stride then
    let offset := address - uartBase
    some (.uart (Fin.ofNat uartCount (offset / Uart.stride).toNat), offset % Uart.stride)
  else none

variable {μ : Type}

/-- A bus read of the identification registers. -/
def readMisc (block : Block μ) (width : Width) (offset : UInt32) :
    Traced Event (UInt32 × Block μ) := do
  match ← Selection.noted .note "misc" miscRegisters width offset with
  | none => return (0, block)
  | some selection =>
      let (value, misc) := block.misc.read selection
      return (value, { block with misc })

/-- A bus write to the identification registers. -/
def writeMisc (block : Block μ) (width : Width) (offset value : UInt32) :
    Traced Event (Block μ) := do
  match ← Selection.noted .note "misc" miscRegisters width offset with
  | none => return block
  | some selection => return { block with misc := (block.misc.write selection value).2 }

variable [Bus μ]

/-- A bus read of a part. -/
def readPart (block : Block μ) (width : Width) (offset : UInt32) :
    Part → Run Event (UInt32 × Block μ)
  | .misc => Run.ofTraced (block.readMisc width offset)
  | .controller =>
      Run.ofTraced (block.onController fun controller => controller.read width offset)
  | .dma => block.onDma fun attached clock => Device.read attached clock width offset
  | .timer index =>
      block.onTimer index fun timer clock => Device.read timer clock width offset
  | .uart index => block.onUart index fun uart clock => Device.read uart clock width offset

/-- A bus write to a part. -/
def writePart (block : Block μ) (width : Width) (offset value : UInt32) :
    Part → Run Event (Unit × Block μ)
  | .misc => do return ((), ← block.writeMisc width offset value)
  | .controller =>
      Run.ofTraced (block.onController fun controller => do
        return ((), ← controller.write width offset value))
  | .dma => block.onDma fun attached clock => Device.write attached clock width offset value
  | .timer index =>
      block.onTimer index fun timer clock => Device.write timer clock width offset value
  | .uart index =>
      block.onUart index fun uart clock => Device.write uart clock width offset value

/-- A bus read. -/
def read (block : Block μ) (width : Width) (address : UInt32) :
    Run Event (Except BusError UInt32 × Block μ) := do
  if windowSize ≤ address then
    Run.signal (.note (.readOutOfRange address))
    return (.error .loadFault, block)
  else
    match route? address with
    | none =>
        Run.signal (.note (.readUnmapped address))
        return (.ok 0, block)
    | some (part, offset) =>
        let (value, block) ← block.readPart width offset part
        return (.ok value, block)

/-- A bus write. -/
def write (block : Block μ) (width : Width) (address value : UInt32) :
    Run Event (Except BusError Unit × Block μ) := do
  if windowSize ≤ address then
    Run.signal (.note (.writeOutOfRange address))
    return (.error .storeFault, block)
  else
    match route? address with
    | none =>
        Run.signal (.note (.writeUnmapped address))
        return (.ok (), block)
    | some (part, offset) =>
        let ((), block) ← block.writePart width offset value part
        return (.ok (), block)

/-- A table of registers moved to a base address. -/
def placed (base : UInt32) (table : List Register) : List Register :=
  table.map fun register => { register with offset := base + register.offset }

/-- The identification registers with the power-on values of this block. -/
def miscMap (block : Block μ) : List Register :=
  (List.finRange miscRegisters.length).map fun index =>
    { miscRegisters.get index with reset := block.misc.resetValue index }

/-- All registers of the block at their addresses in the window. -/
def registerMap (block : Block μ) : List Register :=
  block.miscMap ++ placed controllerBase Interrupt.registers
    ++ (List.range Dma.channelCount).flatMap (fun index =>
      placed (dmaBase + Dma.stride * UInt32.ofNat index) Dma.registers)
    ++ (List.range timerCount).flatMap (fun index =>
      placed (timerBase + Timer.stride * UInt32.ofNat index) Timer.registers)
    ++ (List.range uartCount).flatMap (fun index =>
      placed (uartBase + Uart.stride * UInt32.ofNat index) Uart.registers)

end Block

end SocPeripherals
