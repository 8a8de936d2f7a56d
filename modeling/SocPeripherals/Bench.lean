import SocPeripherals.Device

/-!
# The bench

The bench is the smallest surrounding of a device: a clock and an interrupt controller of its
own. What can be done to a device there is a command, and a run of commands is a list of them.
-/

namespace SocPeripherals

/-- A device with a clock and an interrupt controller of its own. -/
structure Bench (δ : Type) where
  clock : Clock
  controller : Interrupt.Controller := {}
  device : δ
deriving DecidableEq

namespace Bench

variable {δ α : Type}

/-- Lets the device act. -/
def act (bench : Bench δ) (action : δ → Clock → Run Signal (α × δ × Clock)) :
    Run Event (α × Bench δ) := do
  let ((answer, device, clock), controller) ←
    bench.controller.relay (action bench.device bench.clock)
  return (answer, { clock, controller, device })

/-- Lets the surroundings use the controller. -/
def control (bench : Bench δ)
    (action : Interrupt.Controller → Traced Event Interrupt.Controller) :
    Traced Event (Bench δ) := do
  let controller ← action bench.controller
  return { bench with controller }

/-- Moves the clock on. Answers whether a deadline was reached. -/
def increment (bench : Bench δ) (cycles : UInt64) : Except Fault (Bool × Bench δ) := do
  let (reached, clock) ← bench.clock.increment cycles
  return (reached, { bench with clock })

section

variable [Device δ]

/-- A bus read. -/
def read (bench : Bench δ) (width : Width) (address : UInt32) :
    Run Event (UInt32 × Bench δ) :=
  bench.act fun device clock => Device.read device clock width address

/-- A bus write. -/
def write (bench : Bench δ) (width : Width) (address value : UInt32) :
    Run Event (Unit × Bench δ) :=
  bench.act fun device clock => Device.write device clock width address value

/-- Lets the device do what has become due. -/
def poll (bench : Bench δ) : Run Event (Unit × Bench δ) := bench.act Device.poll

/-- Resets the device. -/
def reset (bench : Bench δ) : Run Event (Unit × Bench δ) := bench.act Device.reset

/-- Moves the clock on and polls the device if a deadline was reached. -/
def tick (bench : Bench δ) (cycles : UInt64) : Run Event (Bool × Bench δ) := do
  let (reached, bench) ← bench.increment cycles
  if reached then
    let ((), bench) ← bench.poll
    return (true, bench)
  else return (false, bench)

end

/-- What can be done to a device on a bench. -/
inductive Command where
  | read (width : Width) (address : UInt32)
  | write (width : Width) (address value : UInt32)
  | poll
  | reset
  | increment (cycles : UInt64)
  | tick (cycles : UInt64)
  /-- Makes an interrupt source not pending. -/
  | clear (source : UInt8)
deriving DecidableEq, Repr

/-- What a command answers. -/
inductive Response where
  | done
  | value (value : UInt32)
  /-- Whether a deadline was reached. -/
  | reached (reached : Bool)
deriving DecidableEq, Repr

variable [Device δ]

/-- Carries out a command. -/
def perform (bench : Bench δ) : Command → Run Event (Response × Bench δ)
  | .read width address => do
      let (value, bench) ← bench.read width address
      return (.value value, bench)
  | .write width address value => do return (.done, (← bench.write width address value).2)
  | .poll => do return (.done, (← bench.poll).2)
  | .reset => do return (.done, (← bench.reset).2)
  | .increment cycles => do
      let (reached, bench) ← bench.increment cycles
      return (.reached reached, bench)
  | .tick cycles => do
      let (reached, bench) ← bench.tick cycles
      return (.reached reached, bench)
  | .clear source => do return (.done, ← bench.control (·.clear source))

/-- Carries out commands in order. -/
def performAll (bench : Bench δ) : List Command → Run Event (List Response × Bench δ)
  | [] => pure ([], bench)
  | command :: rest => do
      let (response, bench) ← bench.perform command
      let (responses, bench) ← bench.performAll rest
      return (response :: responses, bench)

end Bench

end SocPeripherals
