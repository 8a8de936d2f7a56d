import SocPeripherals.Block.Basic

/-!
# The block in time

Polling lets every device do what has become due, in a fixed order. The clock can be moved on in
one step with a poll at its end, or from deadline to deadline, so that each device is polled at
the cycle it asked for.
-/

namespace SocPeripherals

namespace Block

variable {μ : Type} [Bus μ]

/-- Polls a timer. -/
def pollTimer (block : Block μ) (index : Fin timerCount) : Run Event (Block μ) := do
  let ((), block) ← block.onTimer index Device.poll
  return block

/-- Polls a serial interface. -/
def pollUart (block : Block μ) (index : Fin uartCount) : Run Event (Block μ) := do
  let ((), block) ← block.onUart index Device.poll
  return block

/-- Polls the timers, the serial interfaces and the direct memory access channels, in this order. -/
def poll (block : Block μ) : Run Event (Block μ) := do
  let block ← [0, 1, 2, 3].foldlM pollTimer block
  let block ← [0, 1].foldlM pollUart block
  let ((), block) ← block.onDma Device.poll
  return block

/-- Resets a timer. -/
def resetTimer (block : Block μ) (index : Fin timerCount) : Run Event (Block μ) := do
  let ((), block) ← block.onTimer index Device.reset
  return block

/-- Resets a serial interface. -/
def resetUart (block : Block μ) (index : Fin uartCount) : Run Event (Block μ) := do
  let ((), block) ← block.onUart index Device.reset
  return block

/-- Returns every part to its power-on state, the interrupt controller last. -/
def reset (block : Block μ) : Run Event (Block μ) := do
  let block ← [0, 1, 2, 3].foldlM resetTimer block
  let block ← [0, 1].foldlM resetUart block
  let ((), block) ← block.onDma Device.reset
  let ((), block) ← { block with misc := block.misc.reset }.onController fun controller => do
    return ((), ← controller.reset)
  return block

/-- Moves the clock on without a poll. Answers whether a deadline was reached. -/
def increment (block : Block μ) (cycles : UInt64) : Except Fault (Bool × Block μ) := do
  let (reached, clock) ← block.clock.increment cycles
  return (reached, { block with clock })

/-- Moves the clock on and polls the block if a deadline was reached. -/
def tick (block : Block μ) (cycles : UInt64) : Run Event (Bool × Block μ) := do
  let (reached, block) ← block.increment cycles
  if reached then return (true, ← block.poll) else return (false, block)

/-- The cycles to the next deadline, but no more than `left`. -/
def nextStep (block : Block μ) (left : UInt64) : UInt64 :=
  match block.clock.nextDistance with
  | none => left
  | some distance => min distance left

/-- Ticks from deadline to deadline over `left` cycles, in at most `steps` ticks. The events so
far are given latest first. -/
def hop : Nat → Block μ → UInt64 → Bool → List Event → Run Event (Bool × Block μ)
  | 0, block, _, polled, seen => ⟨.ok (polled, block), seen.reverse⟩
  | steps + 1, block, left, polled, seen =>
      let cycles := block.nextStep left
      let ticked := block.tick cycles
      let seen := ticked.signals.reverseAux seen
      match ticked.outcome with
      | .error fault => ⟨.error fault, seen.reverse⟩
      | .ok (reached, after) =>
          if left = cycles then ⟨.ok (polled || reached, after), seen.reverse⟩
          else hop steps after (left - cycles) (polled || reached) seen

/-- Moves the clock on from deadline to deadline and polls the block at each. Answers whether it
was polled. Each tick but the first takes at least one cycle, so the ticks suffice. -/
def advance (block : Block μ) (cycles : UInt64) : Run Event (Bool × Block μ) :=
  hop (cycles.toNat + 2) block cycles false []

end Block

end SocPeripherals
