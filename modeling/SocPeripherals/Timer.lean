import SocPeripherals.Device

/-!
# Timers

A timer counts down from the value of its count register to 0, one step every prescale plus one
cycles, and asks for its interrupt when the count wraps, which is count plus one steps after the
period began. It stops there, or begins the next period at once. The count and the prescale are
latched when a period begins; periods run back to back however late they are handled, and the
periods that were missed altogether are skipped.
-/

namespace SocPeripherals

namespace Timer

/-- The timer's registers. -/
def registers : List Register :=
  [{ name := "TMCON", offset := 0x0, width := .word, reset := 0, access := .readWrite },
   { name := "TMCNT", offset := 0x4, width := .halfWord, reset := 0, access := .readWrite }]

/-- The control register. -/
def controlIndex : Fin registers.length := ⟨0, by decide⟩

/-- The count register. -/
def countIndex : Fin registers.length := ⟨1, by decide⟩

/-- The distance from one timer's registers to the next one's. -/
def stride : UInt32 := 8

/-- The control bit that lets the timer run. -/
def enableBit : UInt32 := 1

/-- The control bit that begins a new period after each one. -/
def periodicBit : UInt32 := 2

theorem one_cycle_ne_zero : (1 : UInt64) ≠ 0 := by decide

/-- What is latched when a period begins. -/
structure Latch where
  /-- The value that the count starts from. -/
  reload : UInt16 := 0
  /-- The cycles that each step of the count takes. -/
  stepCycles : UInt64 := 1
  stepCycles_ne_zero : stepCycles ≠ 0 := by exact SocPeripherals.Timer.one_cycle_ne_zero
deriving DecidableEq

namespace Latch

/-- The length of the period. It is a fault if it does not fit a word. -/
def period (latch : Latch) : Except Fault UInt64 :=
  if (latch.reload.toNat + 1) * latch.stepCycles.toNat < UInt64.size then
    .ok ((latch.reload.toUInt64 + 1) * latch.stepCycles)
  else .error .productOverflow

/-- The count after a number of cycles of the period. -/
def countAfter (latch : Latch) (cycles : UInt64) : UInt16 :=
  UInt16.ofNat (latch.reload.toNat - (cycles / latch.stepCycles).toNat)

end Latch

/-- The period that a timer is in. -/
inductive Phase where
  | stopped
  /-- The period began at a cycle and ends at a deadline. -/
  | running (start : UInt64) (expiry : Deadline)
deriving DecidableEq, Repr

/-- What a timer saves. Times are kept relative to the clock. -/
structure Snapshot where
  regs : List UInt32
  running : Bool
  reload : UInt16
  stepCycles : UInt64
  /-- The cycles since the period began. -/
  elapsed : UInt64
  /-- The cycles until the period ends. -/
  remaining : Option UInt64
deriving DecidableEq, Repr

end Timer

/-- A timer with the source of its interrupt. -/
structure Timer where
  index : Nat
  source : UInt8
  bank : Bank Timer.registers := .initial Timer.registers
  latch : Timer.Latch := {}
  phase : Timer.Phase := .stopped
deriving DecidableEq

namespace Timer

/-- The timer is in a period. -/
def isRunning (timer : Timer) : Bool :=
  match timer.phase with
  | .stopped => false
  | .running .. => true

/-- The count: that of the period while the timer runs, else the stored one. -/
def count (timer : Timer) (clock : Clock) : UInt16 :=
  match timer.phase with
  | .stopped => (timer.bank.get countIndex).toUInt16
  | .running start _ => timer.latch.countAfter (clock.now - start)

/-- The period that the stored registers describe. -/
def latched (timer : Timer) : Latch :=
  let prescale := (timer.bank.get controlIndex >>> 8).toUInt8
  { reload := (timer.bank.get countIndex).toUInt16
    stepCycles := UInt64.ofNat (prescale.toNat + 1)
    stepCycles_ne_zero := by
      intro zero
      have bound := prescale.toNat_lt
      have value := congrArg UInt64.toNat zero
      rw [UInt64.toNat_ofNat_of_lt' (by simp only [UInt64.size]; omega)] at value
      simp at value }

/-- The start of a period, moved on by the whole periods that lie between it and the present,
and their number. A start that has not come yet stays where it is. -/
def skipMissed (now start period : UInt64) : UInt64 × UInt64 :=
  let missed := if start - now ≤ Clock.horizon then 0 else (now - start) / period
  (start + missed * period, missed)

/-- Puts the timer in a period that begins at a cycle, with the stored registers. -/
def place (timer : Timer) (clock : Clock) (begun period : UInt64) : Run Signal (Timer × Clock) := do
  let (expiry, clock) ← clock.scheduleAt (begun + period)
  return ({ timer with latch := timer.latched, phase := .running begun expiry }, clock)

/-- Begins a period with the stored registers at a cycle, without the periods missed since. -/
def arm (timer : Timer) (clock : Clock) (start : UInt64) : Run Signal (Timer × Clock) := do
  let period ← timer.latched.period
  let (begun, missed) := skipMissed clock.now start period
  if 0 < missed then Run.signal (.note (.periodsSkipped missed))
  timer.place clock begun period

/-- Leaves the period, if the timer is in one. -/
def halt (timer : Timer) (clock : Clock) : Timer × Clock :=
  match timer.phase with
  | .stopped => (timer, clock)
  | .running _ expiry => ({ timer with phase := .stopped }, clock.drop expiry)

/-- A bus read. -/
def read (timer : Timer) (clock : Clock) (width : Width) (address : UInt32) :
    Traced Signal (UInt32 × Timer) := do
  match ← Selection.noted .note "timer" registers width address with
  | none => return (0, timer)
  | some selection =>
      if selection.index = countIndex then
        return (selection.lane.extract (timer.count clock).toUInt32, timer)
      else
        let (value, bank) := timer.bank.read selection
        return (value, { timer with bank })

/-- What a change of the control register does: the enable bit starts and stops the timer. -/
def controlled (timer : Timer) (clock : Clock) (change : Change) : Run Signal (Timer × Clock) := do
  if change.rising &&& enableBit ≠ 0 then
    Run.signal (.note (.timerStarted timer.index (timer.bank.get countIndex)))
    if timer.isRunning then return (timer, clock) else timer.arm clock clock.now
  else if change.falling &&& enableBit ≠ 0 then
    Run.signal (.note (.timerStopped timer.index))
    return timer.halt clock
  else return (timer, clock)

/-- A bus write. A new count waits for the next period. -/
def write (timer : Timer) (clock : Clock) (width : Width) (address value : UInt32) :
    Run Signal (Timer × Clock) := do
  match ← (Selection.noted .note "timer" registers width address : Traced Signal _) with
  | none => return (timer, clock)
  | some selection =>
      let (change, bank) := timer.bank.write selection value
      let timer := { timer with bank }
      if selection.index = controlIndex then timer.controlled clock change
      else return (timer, clock)

/-- Ends the period, if its deadline has been reached: the next one begins at that deadline, or
the timer stops and clears its enable bit. -/
def poll (timer : Timer) (clock : Clock) : Run Signal (Timer × Clock) := do
  match timer.phase with
  | .stopped => return (timer, clock)
  | .running start expiry =>
      if clock.hasReached expiry.time then
        Run.signal (.note (.timerExpired timer.index))
        let after ←
          if timer.bank.get controlIndex &&& periodicBit ≠ 0 then
            let period ← timer.latch.period
            timer.arm clock (start + period)
          else
            let bank := timer.bank.clearBits controlIndex enableBit
            pure ({ timer with bank, phase := .stopped }, clock)
        Run.signal (.interrupt timer.source)
        return after
      else return (timer, clock)

/-- Stops the timer and returns its registers to their power-on values. -/
def reset (timer : Timer) (clock : Clock) : Timer × Clock :=
  let (halted, clock) := timer.halt clock
  ({ halted with bank := halted.bank.reset }, clock)

/-- Saves the timer. -/
def snapshot (timer : Timer) (clock : Clock) : Snapshot :=
  { regs := timer.bank.toList
    running := timer.isRunning
    reload := timer.latch.reload
    stepCycles := timer.latch.stepCycles
    elapsed := match timer.phase with
      | .stopped => 0
      | .running start _ => clock.now - start
    remaining := match timer.phase with
      | .stopped => none
      | .running _ expiry => some (clock.remaining expiry) }

/-- Takes over the period of a saved timer, which ends when its saved remainder has passed, or
else when its length has. -/
def resume (timer : Timer) (clock : Clock) (latch : Latch) (saved : Snapshot) :
    Run Signal (Timer × Clock) := do
  let remaining ← match saved.remaining with
    | some cycles => pure cycles
    | none =>
        let period ← latch.period
        pure (if saved.elapsed < period then period - saved.elapsed else 0)
  let (expiry, clock) ← clock.scheduleIn remaining
  return ({ timer with latch, phase := .running (clock.now - saved.elapsed) expiry }, clock)

/-- Takes over a saved timer. A timer that was saved stopped brings nothing but its
registers. -/
def restore (timer : Timer) (clock : Clock) (saved : Snapshot) :
    Run Signal (Except DeviceError Unit × Timer × Clock) := do
  let mismatch : Except DeviceError Unit := .error (.snapshotMismatch "timer registers")
  if present : saved.stepCycles ≠ 0 then
    match timer.bank.load? saved.regs with
    | none => return (mismatch, timer, clock)
    | some bank =>
        let (halted, clock) := timer.halt clock
        let loaded := { halted with bank }
        if saved.running then
          let latch := ⟨saved.reload, saved.stepCycles, present⟩
          let (resumed, clock) ← loaded.resume clock latch saved
          return (.ok (), resumed, clock)
        else return (.ok (), loaded, clock)
  else return (mismatch, timer, clock)

instance : Device Timer where
  read timer clock width address := do
    let (value, timer) ← timer.read clock width address
    return (value, timer, clock)
  write timer clock width address value := do return ((), ← timer.write clock width address value)
  poll timer clock := do return ((), ← timer.poll clock)
  reset timer clock := pure ((), timer.reset clock)

end Timer

end SocPeripherals
