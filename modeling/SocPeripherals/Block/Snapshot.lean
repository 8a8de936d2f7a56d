import SocPeripherals.Block.Basic

/-!
# Saving and restoring the block

A saved block holds what each of its parts saves. Restoring checks first that there is
something for every part, then hands the parts theirs in order, and stops at the first that
refuses; the parts before it have taken over what was saved.
-/

namespace SocPeripherals

namespace Block

/-- What the block saves. -/
structure Snapshot where
  misc : List UInt32
  controller : Interrupt.Snapshot
  timers : List Timer.Snapshot
  uarts : List Uart.Snapshot
  dma : List Dma.Snapshot
deriving DecidableEq, Repr

/-- What is wrong with the shape of a saved block. -/
def Snapshot.mismatch? (saved : Snapshot) : Option DeviceError :=
  if saved.misc.length ≠ miscRegisters.length then some (.snapshotMismatch "misc registers")
  else if saved.timers.length ≠ timerCount then some (.snapshotMismatch "timer count")
  else if saved.uarts.length ≠ uartCount then some (.snapshotMismatch "uart count")
  else if saved.dma.length ≠ Dma.channelCount then
    some (.snapshotMismatch "dma channel count")
  else none

variable {μ : Type}

/-- Saves the block. -/
def snapshot (block : Block μ) : Snapshot :=
  { misc := block.misc.toList
    controller := block.controller.snapshot
    timers := block.timers.toList.map fun timer => timer.snapshot block.clock
    uarts := block.uarts.toList.map fun uart => uart.snapshot block.clock
    dma := block.dma.snapshot block.clock }

/-- A step of a restoration: a part that takes over what was saved, or refuses it. -/
abbrev Restoration (μ : Type) := Block μ → Run Event (Except DeviceError Unit × Block μ)

/-- Takes the steps in order, up to the first that is refused. -/
def restoreAll : List (Restoration μ) → Restoration μ
  | [], block => pure (.ok (), block)
  | step :: rest, block => do
      let (answer, block) ← step block
      match answer with
      | .error error => return (.error error, block)
      | .ok () => restoreAll rest block

/-- The identification registers take over saved values. -/
def restoreMisc (saved : List UInt32) : Restoration μ := fun block =>
  match block.misc.load? saved with
  | none => pure (.error (.snapshotMismatch "misc registers"), block)
  | some misc => pure (.ok (), { block with misc })

/-- The interrupt controller takes over a saved one. -/
def restoreController (saved : Interrupt.Snapshot) : Restoration μ := fun block =>
  Run.ofTraced (block.onController fun controller => controller.restore saved)

/-- A timer takes over a saved one. -/
def restoreTimer (index : Fin timerCount) (saved : Timer.Snapshot) : Restoration μ :=
  fun block => block.onTimer index fun timer clock => timer.restore clock saved

/-- A serial interface takes over a saved one. -/
def restoreUart (index : Fin uartCount) (saved : Uart.Snapshot) : Restoration μ :=
  fun block => block.onUart index fun uart clock => do return ← uart.restore clock saved

/-- The direct memory access engine takes over saved channels. -/
def restoreDma (saved : List Dma.Snapshot) : Restoration μ := fun block =>
  block.onDma fun attached clock => attached.restore clock saved

/-- The steps that restore a saved block. -/
def restorations (saved : Snapshot) : List (Restoration μ) :=
  [restoreMisc saved.misc, restoreController saved.controller]
    ++ ((List.finRange timerCount).zip saved.timers).map (fun (index, timer) =>
      restoreTimer index timer)
    ++ ((List.finRange uartCount).zip saved.uarts).map (fun (index, uart) =>
      restoreUart index uart)
    ++ [restoreDma saved.dma]

/-- Takes over a saved block. -/
def restore (block : Block μ) (saved : Snapshot) :
    Run Event (Except DeviceError Unit × Block μ) :=
  match saved.mismatch? with
  | some error => pure (.error error, block)
  | none => restoreAll (restorations saved) block

end Block

end SocPeripherals
