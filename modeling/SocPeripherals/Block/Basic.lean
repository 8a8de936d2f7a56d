import SocPeripherals.Dma.Engine
import SocPeripherals.Timer
import SocPeripherals.Uart

/-!
# The peripheral block

The block joins identification registers, the interrupt controller, the direct memory access
engine, four timers and two serial interfaces into one bus window. It lives on a clock and works on
the host's memory.
-/

namespace SocPeripherals

namespace Block

/-- The identification registers. The power-on values are those of an unconfigured board. -/
def miscRegisters : List Register :=
  [{ name := "SYSID", offset := 0x0, width := .word, reset := 0x00879598, access := .readOnly },
   { name := "CFGR", offset := 0x4, width := .word, reset := 0, access := .readOnly }]

/-- The register of the system's identification. -/
def identityIndex : Fin miscRegisters.length := ⟨0, by decide⟩

/-- The register of the board's configuration. -/
def configurationIndex : Fin miscRegisters.length := ⟨1, by decide⟩

/-- The identification of an unconfigured board. -/
def defaultIdentity : UInt32 := 0x00879598

/-- How many timers there are. -/
abbrev timerCount : Nat := 4

/-- How many serial interfaces there are. -/
abbrev uartCount : Nat := 2

/-- What a board settles about its block. -/
structure Settings where
  identity : UInt32 := defaultIdentity
  configuration : UInt32 := 0
  /-- How many received bytes each serial interface keeps. -/
  uartCapacity : Nat := Uart.defaultCapacity
  /-- The cycles of a memory transfer's unit, 0 for transfers that happen at once. -/
  dmaCycles : UInt64 := 0
deriving DecidableEq, Repr

end Block

/-- The peripheral block, with its clock and the host's memory. -/
structure Block (μ : Type) where
  clock : Clock
  memory : μ
  misc : Bank Block.miscRegisters
  controller : Interrupt.Controller
  timers : Vector Timer Block.timerCount
  uarts : Vector Uart Block.uartCount
  dma : Dma
deriving DecidableEq

namespace Block

variable {μ α : Type}

/-- A block at power-on. -/
def initial (settings : Settings) (clock : Clock) (memory : μ) : Block μ :=
  { clock
    memory
    misc := ((Bank.initial miscRegisters).withReset identityIndex settings.identity).withReset
      configurationIndex settings.configuration
    controller := {}
    timers := Vector.ofFn fun index =>
      { index := index.val, source := Interrupt.timerSources[index] }
    uarts := Vector.ofFn fun index =>
      { index := index.val, source := Interrupt.uartSources[index]
        capacity := settings.uartCapacity }
    dma := Dma.initial settings.dmaCycles }

/-- A block at power-on, with room in the queues of its serial interfaces. -/
def create (settings : Settings) (clock : Clock) (memory : μ) : Except Fault (Block μ) := do
  Storage.reserve settings.uartCapacity
  return initial settings clock memory

/-- Lets a timer act. -/
def onTimer (block : Block μ) (index : Fin timerCount)
    (action : Timer → Clock → Run Signal (α × Timer × Clock)) : Run Event (α × Block μ) := do
  let ((answer, timer, clock), controller) ←
    block.controller.relay (action block.timers[index] block.clock)
  return (answer,
    { block with clock, controller, timers := block.timers.set index timer index.isLt })

/-- Lets a serial interface act. -/
def onUart (block : Block μ) (index : Fin uartCount)
    (action : Uart → Clock → Run Signal (α × Uart × Clock)) : Run Event (α × Block μ) := do
  let ((answer, uart, clock), controller) ←
    block.controller.relay (action block.uarts[index] block.clock)
  return (answer,
    { block with clock, controller, uarts := block.uarts.set index uart index.isLt })

/-- Lets the direct memory access engine act. -/
def onDma (block : Block μ)
    (action : Dma.Attached μ → Clock → Run Signal (α × Dma.Attached μ × Clock)) :
    Run Event (α × Block μ) := do
  let ((answer, attached, clock), controller) ←
    block.controller.relay (action ⟨block.dma, block.memory⟩ block.clock)
  return (answer,
    { block with clock, controller, dma := attached.dma, memory := attached.memory })

/-- Lets the interrupt controller act. -/
def onController (block : Block μ)
    (action : Interrupt.Controller → Traced Event (α × Interrupt.Controller)) :
    Traced Event (α × Block μ) := do
  let (answer, controller) ← action block.controller
  return (answer, { block with controller })

/-- The interrupt line is high. -/
def isInterruptPending (block : Block μ) : Bool := block.controller.line

/-- The timer of a number. -/
def timer? (block : Block μ) (number : Nat) : Option Timer := block.timers[number]?

/-- The serial interface of a number. -/
def uart? (block : Block μ) (number : Nat) : Option Uart := block.uarts[number]?

/-- The index of a serial interface's number. -/
def uartIndex? (number : Nat) : Option (Fin uartCount) :=
  if within : number < uartCount then some ⟨number, within⟩ else none

end Block

end SocPeripherals
