import SocPeripherals.Proofs.Late.Uart
import SocPeripherals.Proofs.Uart.Access

/-!
# Bytes on their way out

A byte written to the transmit register of an enabled and idle interface is an order. It is due one
frame after it was accepted, with the frame as it was configured then, and it is delivered by the
first poll from that cycle on, unless the interface is disabled or reset before. The ledger of an
interface follows the orders by the commands alone. What is sent is what the ledger says was
delivered, in that order, whatever else the interface does and however the cycle counter wraps
around.
-/

namespace SocPeripherals

namespace Uart

/-- A byte that was accepted, with the cycles at which the interface has been polled since. -/
structure Order where
  byte : UInt8
  accepted : Nat
  /-- The cycles of a frame, as configured when the byte was accepted. -/
  frame : Nat
  polls : List Nat := []
deriving DecidableEq, Repr

/-- What became of an order. -/
inductive Fate where
  | delivered (cycle : Nat)
  | cancelled
deriving DecidableEq, Repr

namespace Order

/-- The cycle at which the byte has been sent. -/
def due (order : Order) : Nat := order.accepted + order.frame

/-- The order with one more poll. -/
def polled (order : Order) (cycle : Nat) : Order := { order with polls := order.polls ++ [cycle] }

/-- No poll has come at or after the cycle at which the order is due. -/
def IsWaiting (order : Order) : Prop := ∀ poll ∈ order.polls, poll < order.due

/-- An order is delivered by the first poll at or after the cycle at which it is due, or cancelled
before there was one. -/
def Met (order : Order) : Fate → Prop
  | .delivered cycle => ∃ earlier, order.polls = earlier ++ [cycle] ∧
      (∀ poll ∈ earlier, poll < order.due) ∧ order.due ≤ cycle
  | .cancelled => order.IsWaiting

end Order

/-- The orders of an interface, oldest first, with what became of them, and the one under way. -/
structure Ledger where
  past : List (Order × Fate) := []
  underway : Option Order := none
deriving DecidableEq, Repr

namespace Ledger

/-- The order under way is cancelled, if there is one. -/
def cancel (ledger : Ledger) : Ledger :=
  match ledger.underway with
  | none => ledger
  | some order => { past := ledger.past ++ [(order, .cancelled)] }

/-- The interface is polled: the order under way is delivered, if it is due. -/
def poll (ledger : Ledger) (cycle : Nat) : Ledger :=
  match ledger.underway with
  | none => ledger
  | some order =>
      if order.due ≤ cycle then
        { past := ledger.past ++ [(order.polled cycle, .delivered cycle)] }
      else { ledger with underway := some (order.polled cycle) }

/-- What a command at a cycle makes of the orders. Only a write of the lowest byte of the transmit
register is an order, and only what disables the interface or resets it cancels one. -/
def after (ledger : Ledger) (cycle : Nat) (uart after : Uart) : Command → Ledger
  | .write width address value =>
      if after.isEnabled = false then ledger.cancel
      else if uart.isEnabled ∧ ledger.underway = none ∧
          (registers.get transmitIndex).IsLowest width address then
        { ledger with underway := some ⟨value.toUInt8, cycle, uart.frameCycles.toNat, []⟩ }
      else ledger
  | .poll => ledger.poll cycle
  | .reset => ledger.cancel
  | .read .. | .receive _ | .setLine _ => ledger

/-- The bytes that were delivered, in order. -/
def delivered (ledger : Ledger) : List UInt8 :=
  ledger.past.filterMap fun (order, fate) =>
    match fate with
    | .delivered _ => some order.byte
    | .cancelled => none

/-- What a poll at a cycle reports of the order under way. -/
def report (ledger : Ledger) (cycle : Nat) (uart : Uart) : List Signal :=
  match ledger.underway with
  | none => []
  | some order => if order.due ≤ cycle then uart.report order.byte else []

/-- What has become of an interface since it was created: the cycles that have passed, whether a
poll is owed, the orders and what has been signalled. The clock moves on only while no poll is owed,
and a poll is owed when it has reached a deadline. Others may use the clock as well. -/
inductive History : Uart → Clock → Nat → Bool → Ledger → List Signal → Prop where
  | start {index capacity : Nat} {source : UInt8} {uart : Uart}
      (created : create index source capacity = .ok uart) (clock : Clock) :
      History uart clock 0 false {} []
  | perform {uart later : Uart} {clock next : Clock} {cycle : Nat} {owed : Bool} {ledger : Ledger}
      {signals : List Signal} (history : History uart clock cycle owed ledger signals)
      (command : Command) (prompt : owed = true → command = .poll)
      (done : (uart.perform clock command).outcome = .ok (later, next)) :
      History later next cycle false (ledger.after cycle uart later command)
        (signals ++ (uart.perform clock command).signals)
  | increment {uart : Uart} {clock next : Clock} {cycle : Nat} {ledger : Ledger}
      {signals : List Signal} (history : History uart clock cycle false ledger signals)
      (cycles : UInt64) {reached : Bool} (moved : clock.increment cycles = .ok (reached, next)) :
      History uart next (cycle + cycles.toNat) reached ledger signals
  | share {uart : Uart} {clock next : Clock} {cycle : Nat} {owed : Bool} {ledger : Ledger}
      {signals : List Signal} (history : History uart clock cycle owed ledger signals)
      (leaves : clock.Leaves uart.held next) : History uart next cycle owed ledger signals

end Ledger

variable {uart after : Uart} {clock later : Clock} {cycle : Nat} {owed : Bool} {ledger : Ledger}
  {signals : List Signal} {width : Width} {address value : UInt32} {deadline : Deadline} {due : Nat}

/-! ## What a write does to the shifter -/

/-- The lowest byte that is written is stored. -/
theorem toUInt8_merge {lane : Lane} (lowest : lane.IsLowest) (old value : UInt32) :
    (lane.merge old value).toUInt8 = value.toUInt8 := by
  have unstored : old &&& ~~~lane.mask &&& 0xff = 0 := by
    rw [← lowest.mask, UInt32.and_assoc, ← UInt32.and_assoc (~~~lane.mask), UInt32.not_and_self,
      UInt32.zero_and, UInt32.and_zero]
  have stored : lane.merge old value &&& 0xff = value &&& 0xff := by
    rw [Lane.merge, or_and_distrib, unstored, UInt32.zero_or, Lane.place, lowest.shift,
      UInt32.shiftLeft_zero, UInt32.and_assoc, lowest.mask]
  have low : ∀ word : UInt32, word.toUInt8 = (word &&& 0xff).toUInt8 := by
    intro word
    rw [UInt32.toUInt8_and]
    exact UInt8.and_neg_one.symm
  rw [low, stored, ← low]

theorem frameCycles_congr (control : after.bank.get controlIndex = uart.bank.get controlIndex)
    (divisor : after.bank.get divisorIndex = uart.bank.get divisorIndex) :
    after.frameCycles = uart.frameCycles := by
  unfold frameCycles frameBits cyclesPerBit controls
  rw [control, divisor]

theorem isEnabled_congr (control : after.bank.get controlIndex = uart.bank.get controlIndex) :
    after.isEnabled = uart.isEnabled := by
  unfold isEnabled controls
  rw [control]

/-- A write of the lowest byte of the transmit register writes that byte. -/
theorem toUInt8_write {bank : Bank registers} {selection : Selection registers}
    (found : Selection.find? registers width address = some selection)
    (transmit : selection.index = transmitIndex)
    (covers : (registers.get transmitIndex).IsLowest width address) :
    (bank.write selection value).1.new.toUInt8 = value.toUInt8 := by
  obtain ⟨index, lane⟩ := selection
  cases transmit
  have lanes : lane = (registers.get transmitIndex).lane width address :=
    (Selection.contains_of_find? found).2
  have lowest : lane.IsLowest := by
    rw [lanes]
    exact covers.lane (by decide)
  exact toUInt8_merge lowest _ value

/-- The interface sends a byte that is due one frame from now. -/
def Begins (uart : Uart) (clock : Clock) (byte : UInt8) (after : Uart) : Prop :=
  ∃ deadline, after.shifter = some (byte, deadline) ∧ deadline.time = clock.now + uart.frameCycles

/-- A write that leaves the interface enabled puts a byte into the shifter of an enabled and idle
interface, or leaves the shifter alone. -/
structure Shifts (uart : Uart) (clock : Clock) (accepts : Prop) (byte : UInt8) (after : Uart) :
    Prop where
  begins : uart.isEnabled = true → uart.shifter = none → accepts → uart.Begins clock byte after
  keeps : ¬(uart.isEnabled = true ∧ uart.shifter = none ∧ accepts) → after.shifter = uart.shifter

theorem Transmits.shifts {byte : UInt8} (transmits : Transmits uart clock byte after later) :
    uart.Shifts clock True byte after := by
  cases transmits with
  | refused refuses => exact ⟨fun on idle => absurd ⟨on, idle⟩ refuses, fun _ => rfl⟩
  | begins enabled idle placed =>
      refine ⟨fun _ _ _ => ⟨_, rfl, (Clock.pending_of_scheduleAt placed).2⟩, fun refused => ?_⟩
      exact absurd ⟨enabled, idle, True.intro⟩ refused

/-- What a change of the control register leaves enabled keeps its byte. -/
theorem Obeys.shifter {change : Change} (obeys : Obeys uart clock change after later)
    (stored : uart.bank.get controlIndex = change.new) (enabled : after.isEnabled = true) :
    after.shifter = uart.shifter := by
  cases obeys with
  | disabled falls =>
      have unset := ((falls_iff change).1 falls).2
      rw [isEnabled_iff] at enabled
      exact absurd (stored ▸ enabled) unset
  | enabled => rfl
  | kept => rfl

theorem write_shifts (uart : Uart) (clock : Clock) (width : Width) (address value : UInt32) :
    (uart.write clock width address value).Ensures fun (after, _) => after.isEnabled = true →
      uart.Shifts clock ((registers.get transmitIndex).IsLowest width address) value.toUInt8
        after := by
  have lowest {selection : Selection registers}
      (found : Selection.find? registers width address = some selection) :
      (registers.get transmitIndex).IsLowest width address ↔
        selection.index = transmitIndex ∧ selection.lane.touches dataBits = true :=
    Selection.isLowest_iff registers_apart found
  refine (uart.write_writes clock width address value).imp ?_
  rintro ⟨after, later⟩ writes enabled
  cases writes with
  | missed missed =>
      have elsewhere : ¬(registers.get transmitIndex).IsLowest width address :=
        Selection.not_isLowest_of_missed registers_apart missed
      exact ⟨fun _ _ covers => absurd covers elsewhere, fun _ => rfl⟩
  | @control selection _ _ found control obeys =>
      have elsewhere : ¬(registers.get transmitIndex).IsLowest width address := by
        rw [lowest found, control]
        exact fun covers => absurd covers.1 (by decide)
      have stored : ((uart.bank.write selection value).2).get controlIndex
          = (uart.bank.write selection value).1.new := control ▸ Bank.get_put_self _ _ _
      exact ⟨fun _ _ covers => absurd covers elsewhere, fun _ => obeys.shifter stored enabled⟩
  | @transmit selection _ _ found covers transmits =>
      have other : selection.index ≠ controlIndex := by
        rw [covers.1]
        decide
      have elsewhere : selection.index ≠ divisorIndex := by
        rw [covers.1]
        decide
      have byte : (uart.bank.write selection value).1.new.toUInt8 = value.toUInt8 :=
        toUInt8_write found covers.1 ((lowest found).2 covers)
      have control := Bank.get_write_of_ne uart.bank other value
      have divisor := Bank.get_write_of_ne uart.bank elsewhere value
      rw [byte] at transmits
      have shifts := transmits.shifts
      constructor
      · intro enabled idle _
        obtain ⟨deadline, sending, due⟩ :=
          shifts.begins ((isEnabled_congr control).trans enabled) idle True.intro
        exact ⟨deadline, sending, due.trans (congrArg _ (frameCycles_congr control divisor))⟩
      · intro refused
        refine shifts.keeps fun accepted => refused ⟨?_, accepted.2.1, (lowest found).2 covers⟩
        exact (isEnabled_congr control).symm.trans accepted.1
  | store found _ misses =>
      exact ⟨fun _ _ covers => absurd ((lowest found).1 covers) misses, fun _ => rfl⟩

/-! ## What leaves the shifter alone -/

theorem shifter_read (uart : Uart) (width : Width) (address : UInt32) :
    (uart.read width address).value.2.shifter = uart.shifter := by
  have looked := (uart.read_looked width address).2
  split at looked
  next => rw [looked]
  next =>
    rw [looked]
    unfold Uart.looked
    split
    next => rfl
    next => split <;> rfl

theorem shifter_receive (uart : Uart) (byte : UInt8) :
    (uart.receive byte).value.shifter = uart.shifter := by
  have receives := uart.receive_receives byte
  generalize uart.receive byte = received at receives ⊢
  cases receives <;> rfl

theorem shifter_setLine {high : Bool} (done : uart.setLine clock high = .ok (after, later)) :
    after.shifter = uart.shifter := by
  cases of_setLine done <;> rfl

/-! ## What only a poll signals -/

/-- No byte is sent on any port. -/
def SendsNothing (signals : List Signal) : Prop :=
  ∀ port, signals.filterMap (Signal.sent? port) = []

/-- Remarks and requests send nothing. -/
theorem SendsNothing.of_answers (answers : ∀ signal ∈ signals, uart.Answers signal) :
    SendsNothing signals := by
  intro port
  refine List.filterMap_eq_nil_iff.2 fun signal signalled => ?_
  cases answers signal signalled with
  | _ => rfl

/-- Only a poll tells of more than accesses and received bytes. -/
theorem perform_answers (uart : Uart) (clock : Clock) {command : Command}
    (quiet : command ≠ .poll) : (uart.perform clock command).SignalsOnly uart.Answers := by
  cases command with
  | read width address =>
      exact .bind (.traced (read_answers uart width address)) (.trivial _) fun _ _ => .pure _
  | write width address value => exact write_answers uart clock width address value
  | receive byte => exact .bind (.traced (receive_answers uart byte)) (.trivial _) fun _ _ => .pure _
  | setLine high => exact .except _
  | poll => contradiction
  | reset => exact .pure _

/-- Only a poll sends. -/
theorem perform_sendsNothing (uart : Uart) (clock : Clock) {command : Command}
    (quiet : command ≠ .poll) : SendsNothing (uart.perform clock command).signals :=
  .of_answers (perform_answers uart clock quiet)

/-! ## The time of an order -/

/-- The deadline of an order that is due at a cycle lies ahead as long as that cycle does. From then
on it has been reached and a poll is owed. -/
inductive Timed (clock : Clock) (cycle due : Nat) (deadline : Deadline) (owed : Bool) : Prop where
  | ahead (later : cycle < due) (distance : (clock.distance deadline.time).toNat = due - cycle)
      (near : clock.distance deadline.time < Clock.horizon)
  | reached (owes : owed = true) (passed : due ≤ cycle)
      (reached : clock.hasReached deadline.time = true)

theorem Timed.hasReached_iff (timed : Timed clock cycle due deadline owed) :
    clock.hasReached deadline.time = true ↔ due ≤ cycle := by
  cases timed with
  | ahead later distance near =>
      refine iff_of_false ?_ (Nat.not_le.2 later)
      rw [Bool.not_eq_true, Clock.hasReached_eq_false_iff near, UInt64.lt_iff_toNat_lt, distance]
      exact Nat.sub_pos_of_lt later
  | reached owes passed reached => exact iff_of_true reached passed

theorem Timed.congr (timed : Timed clock cycle due deadline owed) (now : later.now = clock.now) :
    Timed later cycle due deadline owed := by
  cases timed with
  | ahead before distance near =>
      rw [← Clock.distance_congr now] at distance near
      exact .ahead before distance near
  | reached owes passed reached =>
      rw [← Clock.hasReached_congr now] at reached
      exact .reached owes passed reached

/-- An order that is not due yet waits for no poll. -/
theorem Timed.of_lt (timed : Timed clock cycle due deadline owed) (before : cycle < due) :
    Timed clock cycle due deadline false := by
  cases timed with
  | ahead later distance near => exact .ahead later distance near
  | reached owes passed reached => exact absurd passed (Nat.not_le.2 before)

/-- The clock moves on, and a poll is owed if it reaches the deadline. -/
theorem Timed.increment (timed : Timed clock cycle due deadline false)
    (pending : deadline ∈ clock.pending) {cycles : UInt64} {reached : Bool}
    (moved : clock.increment cycles = .ok (reached, later)) :
    Timed later (cycle + cycles.toNat) due deadline reached := by
  cases timed with
  | reached owes => contradiction
  | ahead before distance near =>
      have short := Clock.short_of_increment moved
      have arrives := Clock.hasReached_moved_iff near short
      rw [UInt64.le_iff_toNat_le, distance] at arrives
      have apart := Clock.distance_moved clock cycles deadline.time
      rw [Clock.increment_of_lt short] at moved
      cases moved
      by_cases passed : due ≤ cycle + cycles.toNat
      · have here : (clock.moved cycles).hasReached deadline.time = true :=
          arrives.2 (by omega)
        exact .reached (List.any_eq_true.2 ⟨deadline, pending, here⟩) passed here
      · have left : (clock.distance deadline.time - cycles).toNat
            = due - (cycle + cycles.toNat) := by
          rw [UInt64.toNat_sub_of_le _ _ (UInt64.le_iff_toNat_le.2 (by omega)), distance]
          omega
        refine .ahead (Nat.not_le.1 passed) ?_ ?_
        · exact (congrArg UInt64.toNat apart).trans left
        · change (clock.moved cycles).distance deadline.time < Clock.horizon
          rw [apart, UInt64.lt_iff_toNat_lt, left]
          rw [UInt64.lt_iff_toNat_lt, distance] at near
          omega

/-- The shifter holds the byte of the order under way. -/
inductive Carries (clock : Clock) (cycle : Nat) (owed : Bool) :
    Option (UInt8 × Deadline) → Option Order → Prop where
  | idle : Carries clock cycle owed none none
  | sending {order : Order} {deadline : Deadline} (waiting : order.IsWaiting)
      (timed : Timed clock cycle order.due deadline owed) :
      Carries clock cycle owed (some (order.byte, deadline)) (some order)

theorem Carries.congr {shifter : Option (UInt8 × Deadline)} {underway : Option Order}
    (carries : Carries clock cycle owed shifter underway) (now : later.now = clock.now) :
    Carries later cycle owed shifter underway := by
  cases carries with
  | idle => exact .idle
  | sending waiting timed => exact .sending waiting (timed.congr now)

theorem Carries.idle_iff (carries : Carries clock cycle owed uart.shifter ledger.underway) :
    uart.shifter = none ↔ ledger.underway = none := by
  generalize uart.shifter = shifter at carries
  generalize ledger.underway = underway at carries
  cases carries with
  | idle => exact iff_of_true rfl rfl
  | sending => exact iff_of_false nofun nofun

theorem Ledger.poll_of_idle (idle : ledger.underway = none) (cycle : Nat) (uart : Uart) :
    ledger.poll cycle = ledger ∧ ledger.report cycle uart = [] := by
  unfold poll report
  rw [idle]
  exact ⟨rfl, rfl⟩

theorem Ledger.poll_of_due {order : Order} (sending : ledger.underway = some order)
    (due : order.due ≤ cycle) (uart : Uart) :
    ledger.poll cycle = { past := ledger.past ++ [(order.polled cycle, .delivered cycle)] } ∧
      ledger.report cycle uart = uart.report order.byte := by
  unfold poll report
  rw [sending]
  exact ⟨if_pos due, if_pos due⟩

theorem Ledger.poll_of_early {order : Order} (sending : ledger.underway = some order)
    (early : ¬order.due ≤ cycle) (uart : Uart) :
    ledger.poll cycle = { ledger with underway := some (order.polled cycle) } ∧
      ledger.report cycle uart = [] := by
  unfold poll report
  rw [sending]
  exact ⟨if_neg early, if_neg early⟩

/-- A poll reports the order under way if it is due. -/
theorem Carries.pollShifter (carries : Carries clock cycle owed uart.shifter ledger.underway) :
    (uart.pollShifter clock).signals = ledger.report cycle uart ∧
      Carries clock cycle false (uart.pollShifter clock).value.shifter
        (ledger.poll cycle).underway := by
  generalize held : uart.shifter = shifter at carries
  generalize ordered : ledger.underway = underway at carries
  cases carries with
  | idle =>
      obtain ⟨polled, reported⟩ := Ledger.poll_of_idle ordered cycle uart
      rw [pollShifter_of_idle held, polled, reported, Traced.value_pure, held, ordered]
      exact ⟨rfl, .idle⟩
  | @sending order deadline waiting timed =>
      by_cases due : order.due ≤ cycle
      · obtain ⟨polled, reported⟩ := Ledger.poll_of_due ordered due uart
        rw [pollShifter_of_reached held (timed.hasReached_iff.2 due), polled, reported]
        exact ⟨rfl, .idle⟩
      · obtain ⟨polled, reported⟩ := Ledger.poll_of_early ordered due uart
        have before := Nat.not_le.1 due
        have waits : (order.polled cycle).IsWaiting := by
          intro poll seen
          rcases List.mem_append.1 seen with earlier | now
          · exact waiting poll earlier
          · rw [List.mem_singleton.1 now]
            exact before
        rw [pollShifter_of_ahead held (mt timed.hasReached_iff.1 due), polled, reported,
          Traced.value_pure, held]
        exact ⟨rfl, .sending waits (timed.of_lt before)⟩

namespace Ledger

/-- What holds of an interface and its orders. -/
structure Standing (uart : Uart) (clock : Clock) (cycle : Nat) (owed : Bool) (ledger : Ledger)
    (signals : List Signal) : Prop where
  carries : Carries clock cycle owed uart.shifter ledger.underway
  met : ∀ entry ∈ ledger.past, entry.1.Met entry.2
  sent : ∀ port, signals.filterMap (Signal.sent? port)
    = if port = uart.index then ledger.delivered else []
  distinct : clock.Distinct uart.held
  keeps : clock.Keeps uart.held
  ahead : owed = false → ∀ deadline ∈ uart.held, clock.hasReached deadline.time = false
  built : uart.bank.Built
  consistent : uart.IsConsistent
  silent : uart.IsSilent

theorem delivered_cancel (ledger : Ledger) : ledger.cancel.delivered = ledger.delivered := by
  unfold cancel
  split
  next => rfl
  next => simp [delivered, List.filterMap_append]

theorem underway_cancel (ledger : Ledger) : ledger.cancel.underway = none := by
  unfold cancel
  split
  next idle => exact idle
  next => rfl

theorem Standing.met_cancel (standing : Standing uart clock cycle owed ledger signals) :
    ∀ entry ∈ ledger.cancel.past, entry.1.Met entry.2 := by
  have carries := standing.carries
  unfold cancel
  split
  next => exact standing.met
  next order underway =>
    rw [underway] at carries
    intro entry listed
    rcases List.mem_append.1 listed with before | last
    · exact standing.met entry before
    · rw [List.mem_singleton.1 last]
      generalize uart.shifter = shifter at carries
      cases carries with
      | sending waiting => exact waiting

/-- What a poll reports is what it delivers. -/
theorem delivered_poll (ledger : Ledger) (cycle : Nat) (uart : Uart) (port : Nat) :
    (if port = uart.index then (ledger.poll cycle).delivered else [])
      = (if port = uart.index then ledger.delivered else [])
        ++ (ledger.report cycle uart).filterMap (Signal.sent? port) := by
  cases ordered : ledger.underway with
  | none =>
      obtain ⟨polled, reported⟩ := poll_of_idle ordered cycle uart
      rw [polled, reported]
      exact (List.append_nil _).symm
  | some order =>
      by_cases due : order.due ≤ cycle
      · obtain ⟨polled, reported⟩ := poll_of_due ordered due uart
        have told : (uart.report order.byte).filterMap (Signal.sent? port)
            = if port = uart.index then [order.byte] else [] := by
          unfold Uart.report
          by_cases here : uart.index = port
          · split <;> simp [List.filterMap_cons, Signal.sent?, here]
          · split <;> simp [List.filterMap_cons, Signal.sent?, here, Ne.symm here]
        rw [polled, reported, told]
        split
        next => exact List.filterMap_append
        next => rfl
      · obtain ⟨polled, reported⟩ := poll_of_early ordered due uart
        rw [polled, reported]
        exact (List.append_nil _).symm

theorem Standing.met_poll (standing : Standing uart clock cycle owed ledger signals) :
    ∀ entry ∈ (ledger.poll cycle).past, entry.1.Met entry.2 := by
  have carries := standing.carries
  cases ordered : ledger.underway with
  | none =>
      rw [(poll_of_idle ordered cycle uart).1]
      exact standing.met
  | some order =>
      by_cases due : order.due ≤ cycle
      · rw [(poll_of_due ordered due uart).1]
        rw [ordered] at carries
        intro entry listed
        rcases List.mem_append.1 listed with before | last
        · exact standing.met entry before
        · rw [List.mem_singleton.1 last]
          generalize uart.shifter = shifter at carries
          cases carries with
          | sending waiting => exact ⟨order.polls, rfl, waiting, due⟩
      · rw [(poll_of_early ordered due uart).1]
        exact standing.met

/-! ## Steps of a history -/

/-- After a command no poll is owed. -/
theorem Standing.of_perform {next : Clock} {command : Command} {more : Ledger}
    {further : List Signal} (standing : Standing uart clock cycle owed ledger signals)
    (done : (uart.perform clock command).outcome = .ok (after, next))
    (carries : Carries clock cycle false after.shifter more.underway)
    (met : ∀ entry ∈ more.past, entry.1.Met entry.2)
    (sent : ∀ port, (if port = uart.index then more.delivered else [])
      = (if port = uart.index then ledger.delivered else [])
        ++ further.filterMap (Signal.sent? port))
    (ahead : ∀ deadline ∈ after.held, next.hasReached deadline.time = false) :
    Standing after next cycle false more (signals ++ further) := by
  have does := perform_does done
  have step : Step 1 uart clock after next :=
    does.step (UInt64.le_refl 1) nofun nofun standing.silent
  have serves := step.serves.alone standing.distinct standing.keeps
  constructor
  · exact carries.congr step.serves.follows.now
  · exact met
  · intro port
    rw [List.filterMap_append, standing.sent port, step.index, sent port]
  · exact serves.1
  · exact serves.2
  · exact fun _ => ahead
  · exact ⟨step.resets.trans standing.built.resets, step.fits standing.built.fits⟩
  · exact does.isConsistent nofun standing.built standing.consistent
  · exact step.silent standing.silent

/-- What leaves the byte in the shifter leaves the order. -/
theorem Standing.of_same {next : Clock} {command : Command}
    (standing : Standing uart clock cycle false ledger signals) (quiet : command ≠ .poll)
    (done : (uart.perform clock command).outcome = .ok (after, next))
    (same : after.shifter = uart.shifter) :
    Standing after next cycle false ledger
      (signals ++ (uart.perform clock command).signals) := by
  have step := (perform_does done).step (UInt64.le_refl 1) nofun nofun standing.silent
  refine standing.of_perform done (same ▸ standing.carries) standing.met (fun port => ?_) ?_
  · rw [perform_sendsNothing uart clock quiet port, List.append_nil]
  · exact step.serves.hasReached (by decide) (standing.ahead rfl)

/-- What empties the shifter cancels the order. -/
theorem Standing.of_none {next : Clock} {command : Command}
    (standing : Standing uart clock cycle false ledger signals) (quiet : command ≠ .poll)
    (done : (uart.perform clock command).outcome = .ok (after, next))
    (idle : after.shifter = none) :
    Standing after next cycle false ledger.cancel
      (signals ++ (uart.perform clock command).signals) := by
  have step := (perform_does done).step (UInt64.le_refl 1) nofun nofun standing.silent
  refine standing.of_perform done ?_ standing.met_cancel (fun port => ?_) ?_
  · rw [idle, underway_cancel]
    exact .idle
  · rw [perform_sendsNothing uart clock quiet port, List.append_nil, delivered_cancel]
  · exact step.serves.hasReached (by decide) (standing.ahead rfl)

theorem Standing.write {next : Clock}
    (standing : Standing uart clock cycle false ledger signals)
    (done : (uart.perform clock (.write width address value)).outcome = .ok (after, next)) :
    Standing after next cycle false (ledger.after cycle uart after (.write width address value))
      (signals ++ (uart.perform clock (.write width address value)).signals) := by
  have quiet : Command.write width address value ≠ .poll := nofun
  have step := (perform_does done).step (UInt64.le_refl 1) nofun nofun standing.silent
  dsimp only [Ledger.after]
  split
  next disabled =>
    have consistent := (perform_does done).isConsistent nofun standing.built standing.consistent
    have idle : after.shifter = none := by
      refine Option.not_isSome_iff_eq_none.1 fun sending => ?_
      have enabled := isEnabled_iff.2 (consistent.sending sending)
      exact absurd (disabled.symm.trans enabled) Bool.false_ne_true
    exact standing.of_none quiet done idle
  next enabled =>
    have stays : after.isEnabled = true := by simpa using enabled
    have shifts := write_shifts uart clock width address value _ done stays
    split
    next accepted =>
      obtain ⟨on, idle, covers⟩ := accepted
      obtain ⟨deadline, sending, due⟩ :=
        shifts.begins on (standing.carries.idle_iff.2 idle) covers
      have frame := uart.toNat_frameCycles.1
      have distance : clock.distance deadline.time = uart.frameCycles := by
        rw [due, Clock.distance_add]
      have waiting : Order.IsWaiting ⟨value.toUInt8, cycle, uart.frameCycles.toNat, []⟩ :=
        fun _ polled => absurd polled List.not_mem_nil
      refine standing.of_perform done ?_ standing.met (fun port => ?_) ?_
      · rw [sending]
        refine .sending waiting (.ahead ?_ ?_ ?_)
        · exact Nat.lt_add_of_pos_right frame
        · rw [distance]
          exact (Nat.add_sub_cancel_left _ _).symm
        · rw [distance]
          exact uart.frameCycles_lt_horizon
      · rw [perform_sendsNothing uart clock quiet port, List.append_nil]
        rfl
      · exact step.serves.hasReached (by decide) (standing.ahead rfl)
    next refused =>
      refine standing.of_same quiet done (shifts.keeps fun accepted => refused ?_)
      exact ⟨accepted.1, standing.carries.idle_iff.1 accepted.2.1, accepted.2.2⟩

theorem Standing.poll (standing : Standing uart clock cycle owed ledger signals) :
    Standing (uart.poll clock).value clock cycle false (ledger.poll cycle)
      (signals ++ (uart.poll clock).signals) := by
  obtain ⟨reported, carries⟩ := standing.carries.pollShifter
  have done : (uart.perform clock .poll).outcome = .ok ((uart.poll clock).value, clock) := rfl
  refine standing.of_perform done ?_ standing.met_poll (fun port => ?_) (poll_step uart clock).2
  · have kept := (pollBreak_step (uart.pollShifter clock).value clock).2.1
    exact kept.symm ▸ carries
  · have sent : (uart.poll clock).signals.filterMap (Signal.sent? port)
        = (ledger.report cycle uart).filterMap (Signal.sent? port) := by
      unfold Uart.poll
      rw [Traced.signals_bind, List.filterMap_append, sent_pollBreak, List.append_nil, reported]
    rw [sent]
    exact delivered_poll ledger cycle uart port

theorem Standing.perform {next : Clock} {command : Command}
    (standing : Standing uart clock cycle owed ledger signals)
    (prompt : owed = true → command = .poll)
    (done : (uart.perform clock command).outcome = .ok (after, next)) :
    Standing after next cycle false (ledger.after cycle uart after command)
      (signals ++ (uart.perform clock command).signals) := by
  by_cases polls : command = .poll
  · subst polls
    have told : (uart.perform clock .poll).signals = (uart.poll clock).signals :=
      List.append_nil _
    cases done
    rw [told]
    exact standing.poll
  · have free : owed = false := Bool.eq_false_iff.2 fun owes => polls (prompt owes)
    subst free
    cases command with
    | read width address =>
        refine standing.of_same polls done ?_
        cases done
        exact shifter_read uart width address
    | write width address value => exact standing.write done
    | receive byte =>
        refine standing.of_same polls done ?_
        cases done
        exact shifter_receive uart byte
    | setLine high => exact standing.of_same polls done (shifter_setLine done)
    | poll => contradiction
    | reset =>
        refine standing.of_none polls done ?_
        cases done
        rfl

theorem Standing.increment {cycles : UInt64} {reached : Bool}
    (standing : Standing uart clock cycle false ledger signals)
    (moved : clock.increment cycles = .ok (reached, later)) :
    Standing uart later (cycle + cycles.toNat) reached ledger signals := by
  have placed : ∀ deadline ∈ uart.held, deadline ∈ clock.pending := fun deadline known =>
    standing.keeps deadline known (standing.ahead rfl deadline known)
  have pending {deadline : Deadline} : deadline ∈ later.pending ↔
      deadline ∈ clock.pending ∧ later.hasReached deadline.time = false :=
    Clock.pending_of_increment moved
  have carries := standing.carries
  refine { standing with carries := ?_, distinct := ?_, keeps := ?_, ahead := ?_ }
  · generalize held : uart.shifter = shifter at carries
    generalize ledger.underway = underway at carries
    cases carries with
    | idle => exact .idle
    | @sending order deadline waiting timed =>
        refine .sending waiting (timed.increment (placed deadline ?_) moved)
        exact Multiset.mem_add.2 (.inl (Deadline.mem_single.2 (by rw [held]; rfl)))
  · exact ⟨standing.distinct.nodup, fun deadline known =>
      (Clock.issued_of_increment moved).symm ▸ standing.distinct.issued deadline known⟩
  · exact fun deadline known left => pending.2 ⟨placed deadline known, left⟩
  · intro none deadline known
    exact Clock.ahead_of_increment (none ▸ moved) (placed deadline known)

theorem Standing.share (standing : Standing uart clock cycle owed ledger signals)
    (leaves : clock.Leaves uart.held later) : Standing uart later cycle owed ledger signals :=
  { standing with
    carries := standing.carries.congr leaves.now
    distinct := leaves.distinct standing.distinct
    keeps := leaves.keeps standing.keeps
    ahead := fun free deadline known => by
      rw [Clock.hasReached_congr leaves.now]
      exact standing.ahead free deadline known }

theorem standing_create {index capacity : Nat} {source : UInt8}
    (created : create index source capacity = .ok uart) (clock : Clock) :
    Standing uart clock 0 false {} [] := by
  have clear : (Bank.initial registers).get statusIndex = 0 := by decide
  cases of_create created
  constructor
  · exact .idle
  · exact fun _ listed => absurd listed List.not_mem_nil
  · intro port
    split <;> rfl
  · exact ⟨Multiset.nodup_zero, fun _ known => absurd known (Multiset.notMem_zero _)⟩
  · exact fun _ known => absurd known (Multiset.notMem_zero _)
  · exact fun _ _ known => absurd known (Multiset.notMem_zero _)
  · exact ⟨rfl, Bank.fits_initial (by decide)⟩
  · refine isConsistent_of_idle rfl rfl ?_
    rw [clear]
    decide
  · exact fun _ => rfl

theorem History.standing (history : History uart clock cycle owed ledger signals) :
    Standing uart clock cycle owed ledger signals := by
  induction history with
  | start created clock => exact standing_create created clock
  | perform _ command prompt done standing => exact standing.perform prompt done
  | increment _ cycles moved standing => exact standing.increment moved
  | share _ leaves standing => exact standing.share leaves

end Ledger

/-! ## What is sent -/

/-- The interrupt is asked for when a byte has been sent, if it is asked for then. -/
theorem interrupt_mem_report (uart : Uart) (byte : UInt8) :
    .interrupt uart.source ∈ uart.report byte ↔ uart.controls transmitInterruptBit = true := by
  unfold report
  split
  next asked => exact iff_of_true (by simp) asked
  next silent => exact iff_of_false (by simp) silent

/-- What a poll signals: what the ledger reports, and then perhaps a break. -/
theorem signals_poll (carries : Carries clock cycle owed uart.shifter ledger.underway) :
    ∃ rest, (uart.poll clock).signals = ledger.report cycle uart ++ rest ∧
      (rest = [] ∨ rest = .note (.breakDetected uart.index) :: uart.receiveRequest) := by
  refine ⟨((uart.pollShifter clock).value.pollBreak clock).signals, ?_, ?_⟩
  · unfold poll
    rw [Traced.signals_bind, carries.pollShifter.1]
  · obtain ⟨shifter, same⟩ := pollShifter_leaves uart clock
    rw [same]
    rcases pollBreak_cases uart clock with quiet | breaks
    · exact .inl (congrArg Traced.signals (quiet shifter))
    · exact .inr (congrArg Traced.signals (breaks shifter))

/-- However an interface is used, what it sends is what its ledger says was delivered: each order
once and in order, by the first poll from the cycle on at which it was due, with the interrupt if
that is asked for then. The status register shows whether an order is under way. -/
theorem sent_of_history (history : Ledger.History uart clock cycle owed ledger signals) :
    (∀ port, signals.filterMap (Signal.sent? port)
        = if port = uart.index then ledger.delivered else []) ∧
      (∀ entry ∈ ledger.past, entry.1.Met entry.2) ∧
      (∀ order ∈ ledger.underway, order.IsWaiting) ∧
      (∀ width address, (registers.get statusIndex).IsLowest width address →
        ((uart.read width address).value.1 &&& 0x20 = 0 ↔ ledger.underway.isSome = true)) ∧
      (∃ rest, (uart.poll clock).signals = ledger.report cycle uart ++ rest ∧
        (rest = [] ∨ rest = .note (.breakDetected uart.index) :: uart.receiveRequest)) ∧
      (∀ byte, .interrupt uart.source ∈ uart.report byte ↔
        uart.controls transmitInterruptBit = true) ∧
      ∀ command, ∃ result, (uart.perform clock command).outcome = .ok result := by
  have standing := history.standing
  have carries := standing.carries
  refine ⟨standing.sent, standing.met, ?_, ?_, signals_poll carries, uart.interrupt_mem_report,
    perform_ends uart clock⟩
  · intro order ordered
    generalize uart.shifter = shifter at carries
    rw [Option.mem_def.1 ordered] at carries
    cases carries with
    | sending waiting => exact waiting
  · intro width address covers
    obtain ⟨word, displays, answers⟩ :=
      read_status standing.consistent covers.1 (covers.contains (by decide))
    have lowest := covers.lane (by decide)
    rw [answers, lowest.extract_and word (by decide), displays.idle, isTransmitting,
      Option.isSome_iff_ne_none, Option.isSome_iff_ne_none]
    exact not_congr carries.idle_iff

/-- A byte that is polled when it is due is sent then, and the port is idle again. -/
theorem sent_of_history_prompt :
    ∃ (uart : Uart) (clock : Clock) (ledger : Ledger) (signals : List Signal),
      Ledger.History uart clock 288 false ledger signals ∧
        ledger.past = [(⟨65, 0, 288, [288]⟩, .delivered 288)] ∧
        signals.filterMap (Signal.sent? 0) = [65] ∧
        (uart.read .byte 0x08).value.1 &&& 0x20 ≠ 0 := by
  have created : create 0 9 1 = .ok { index := 0, source := 9, capacity := 1 } := rfl
  have enabled := (Ledger.History.start created {}).perform (.write .word 0x00 0x120) nofun rfl
  have ordered := enabled.perform (.write .word 0x0c 65) nofun rfl
  have due : Ledger.History _ _ 288 true _ _ := ordered.increment 288 rfl
  have sent := due.perform .poll (fun _ => rfl) rfl
  obtain ⟨delivered, -, -, idle, -⟩ := sent_of_history sent
  refine ⟨_, _, _, _, sent, by decide, delivered 0, fun busy => ?_⟩
  exact absurd ((idle .byte 0x08 (by decide)).1 busy) (by decide)

end Uart

end SocPeripherals
