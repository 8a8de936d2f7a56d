import SocPeripherals.Proofs.Signals
import SocPeripherals.Proofs.Uart.Orders
import SocPeripherals.Proofs.Uart.Queue

/-!
# Breaks of the receive line

A spell is a time through which an interface is enabled and its receive line is low, whichever of
the two came last. It is due one frame after it began, with the frame as it was configured then. A
spell that lasts until it is due is reported as a break, once and at that cycle, provided that the
interface is polled whenever one of its deadlines comes. The watch over an interface follows the
spells by the commands alone, and with them whether a report is still to be read.
-/

namespace SocPeripherals

namespace Uart

/-- A time through which the interface is enabled and its line is low. -/
structure Spell where
  began : Nat
  /-- The cycles of a frame, as configured when the spell began. -/
  frame : Nat
deriving DecidableEq, Repr

/-- The cycle at which the spell is a break, if it lasts so long. -/
def Spell.due (spell : Spell) : Nat := spell.began + spell.frame

/-- The line of an interface: its level, the spells that are over, oldest first and each with the
cycle at which it ended, the spell under way, and whether a break was reported that has not been
cleared since. -/
structure Watch where
  low : Bool := false
  past : List (Spell × Nat) := []
  current : Option Spell := none
  latched : Bool := false
deriving DecidableEq, Repr

/-- The line is low after a command. It is high at power-on and after a reset. -/
def Command.lowers (low : Bool) : Command → Bool
  | .setLine high => !high
  | .reset => false
  | .read .. | .write .. | .receive _ | .poll => low

/-- A report of a break is still to be read after a command. Only a read of the lowest byte of the
status register, a byte received while the interface is enabled and a reset take it back. -/
def Command.latches (latched : Bool) (uart : Uart) (signals : List Signal) : Command → Bool
  | .poll => latched || decide (.note (.breakDetected uart.index) ∈ signals)
  | .read width address => latched && !decide ((registers.get statusIndex).IsLowest width address)
  | .receive _ => latched && !uart.isEnabled
  | .reset => false
  | .write .. | .setLine _ => latched

namespace Watch

/-- What a command at a cycle makes of the watch: a spell begins where the interface comes to be
enabled with a low line, and ends where it comes not to be. -/
def after (watch : Watch) (cycle : Nat) (uart after : Uart) (signals : List Signal)
    (command : Command) : Watch :=
  let low := command.lowers watch.low
  let latched := command.latches watch.latched uart signals
  if after.isEnabled && low then
    let spell := watch.current.getD ⟨cycle, after.frameCycles.toNat⟩
    { watch with low, latched, current := some spell }
  else
    { low, latched, past := watch.past ++ (watch.current.map (·, cycle)).toList }

/-- The cycles at which spells were due that lasted until then. -/
def dues (spells : List (Spell × Nat)) : List Nat :=
  (spells.filter fun (spell, last) => spell.due ≤ last).map fun (spell, _) => spell.due

/-- The spells up to a cycle, each with the cycle up to which it has lasted. -/
def spells (watch : Watch) (cycle : Nat) : List (Spell × Nat) :=
  watch.past ++ (watch.current.map (·, cycle)).toList

/-- What has become of an interface since it was created: the cycles that have passed, whether a
poll is owed, the watch over its line and what has been signalled at which cycle. The clock moves on
only while no poll is owed and no further than to the next deadline of the interface, and a poll is
owed when it has reached a deadline. Others may use the clock as well. -/
inductive History : Uart → Clock → Nat → Bool → Watch → List (Nat × Signal) → Prop where
  | start {index capacity : Nat} {source : UInt8} {uart : Uart}
      (created : create index source capacity = .ok uart) (clock : Clock) :
      History uart clock 0 false {} []
  | perform {uart later : Uart} {clock next : Clock} {cycle : Nat} {owed : Bool} {watch : Watch}
      {heard : List (Nat × Signal)} (history : History uart clock cycle owed watch heard)
      (command : Command) (prompt : owed = true → command = .poll)
      (done : (uart.perform clock command).outcome = .ok (later, next)) :
      History later next cycle false
        (watch.after cycle uart later (uart.perform clock command).signals command)
        (heard ++ (uart.perform clock command).signals.map (cycle, ·))
  | increment {uart : Uart} {clock next : Clock} {cycle : Nat} {watch : Watch}
      {heard : List (Nat × Signal)} (history : History uart clock cycle false watch heard)
      (cycles : UInt64) (within : ∀ deadline ∈ uart.held, cycles ≤ clock.distance deadline.time)
      {reached : Bool} (moved : clock.increment cycles = .ok (reached, next)) :
      History uart next (cycle + cycles.toNat) reached watch heard
  | share {uart : Uart} {clock next : Clock} {cycle : Nat} {owed : Bool} {watch : Watch}
      {heard : List (Nat × Signal)} (history : History uart clock cycle owed watch heard)
      (leaves : clock.Leaves uart.held next) : History uart next cycle owed watch heard

end Watch

/-- The cycles at which the interface of a number reported a break. -/
def breakCycles (index : Nat) (heard : List (Nat × Signal)) : List Nat :=
  heard.filterMap fun (cycle, signal) =>
    if signal = .note (.breakDetected index) then some cycle else none

/-- The interface is enabled and its line is low. -/
def isDown (uart : Uart) : Bool := uart.isEnabled && uart.lineLow

variable {uart after : Uart} {clock later : Clock} {cycle : Nat} {owed : Bool} {watch : Watch}
  {heard : List (Nat × Signal)} {signals : List Signal} {told : List Nat} {width : Width}
  {address value : UInt32}

/-! ## What times a break -/

theorem isDown_of_disabled (disabled : uart.isEnabled = false) : uart.isDown = false := by
  rw [isDown, disabled, Bool.false_and]

theorem isDown_of_high (high : uart.lineLow = false) : uart.isDown = false := by
  rw [isDown, high, Bool.and_false]

/-- Nothing is timed of an interface that is disabled or whose line is high. -/
theorem breakDue_of_up (consistent : uart.IsConsistent) (up : uart.isDown = false) :
    uart.breakDue = none := by
  refine Option.not_isSome_iff_eq_none.1 fun timed => ?_
  obtain ⟨set, low⟩ := consistent.breaking timed
  have down : uart.isDown = true := Bool.and_eq_true_iff.2 ⟨isEnabled_iff.2 set, low⟩
  exact absurd (up.symm.trans down) Bool.false_ne_true

/-- What a command other than a poll makes of the timing of a break: it goes on while the interface
stays enabled with a low line, and starts when it comes to be so. -/
structure Retimes (uart : Uart) (clock : Clock) (after : Uart) : Prop where
  goesOn : uart.isDown = true → after.isDown = true → after.breakDue = uart.breakDue
  starts : uart.isDown = false → after.isDown = true →
    ∃ deadline, after.breakDue = some deadline ∧ deadline.time = clock.now + after.frameCycles

theorem Retimes.of_same (control : after.bank.get controlIndex = uart.bank.get controlIndex)
    (line : after.lineLow = uart.lineLow) (timed : after.breakDue = uart.breakDue)
    (clock : Clock) : uart.Retimes clock after where
  goesOn _ _ := timed
  starts up down := by
    rw [isDown, isEnabled_congr control, line] at down
    exact absurd (up.symm.trans down) Bool.false_ne_true

theorem Retimes.of_up (up : after.isDown = false) (clock : Clock) : uart.Retimes clock after where
  goesOn _ down := absurd (up.symm.trans down) Bool.false_ne_true
  starts _ down := absurd (up.symm.trans down) Bool.false_ne_true

theorem setLine_retimes {high : Bool} (done : uart.setLine clock high = .ok (after, later)) :
    uart.Retimes clock after ∧ after.lineLow = !high := by
  cases of_setLine done with
  | raised => exact ⟨.of_up (isDown_of_high rfl) clock, rfl⟩
  | kept low => exact ⟨.of_same rfl rfl rfl clock, low⟩
  | timed up _ placed =>
      have down : uart.isDown = false := isDown_of_high up
      refine ⟨⟨fun known => absurd (down.symm.trans known) Bool.false_ne_true, fun _ _ => ?_⟩, rfl⟩
      exact ⟨_, rfl, (Clock.pending_of_scheduleAt placed).2⟩
  | lowered _ disabled =>
      exact ⟨.of_up (isDown_of_disabled (by exact disabled)) clock, rfl⟩

/-- A change of the control register starts the timing of a break when it enables an interface with
a low line. -/
theorem Obeys.retimes {final : Uart} {change : Change} (obeys : Obeys after clock change final later)
    (stored : after.bank.get controlIndex = change.new)
    (old : uart.bank.get controlIndex = change.old) (line : after.lineLow = uart.lineLow)
    (timed : after.breakDue = uart.breakDue) :
    uart.Retimes clock final ∧ final.lineLow = uart.lineLow := by
  cases obeys with
  | disabled falls =>
      have off : (after.abandon clock).1.isEnabled = false := by
        have unset := ((falls_iff change).1 falls).2
        rw [← stored] at unset
        exact Bool.eq_false_iff.2 fun on => unset (isEnabled_iff.1 on)
      exact ⟨.of_up (isDown_of_disabled off) clock, line⟩
  | enabled rises low placed =>
      have off : uart.isEnabled = false := by
        have unset := ((rises_iff change).1 rises).2
        rw [← old] at unset
        exact Bool.eq_false_iff.2 fun on => unset (isEnabled_iff.1 on)
      have up := isDown_of_disabled off
      refine ⟨⟨fun down => absurd (up.symm.trans down) Bool.false_ne_true, fun _ _ => ?_⟩, line⟩
      refine ⟨_, rfl, (Clock.pending_of_scheduleAt placed).2.trans ?_⟩
      cases after.breakDue <;> rfl
  | kept _ others =>
      refine ⟨⟨fun _ _ => timed, fun up down => ?_⟩, line⟩
      obtain ⟨on, low⟩ := Bool.and_eq_true_iff.1 down
      have set : change.new &&& enableBit ≠ 0 := stored ▸ isEnabled_iff.1 on
      have unset : ¬change.old &&& enableBit ≠ 0 := by
        rw [← old, ← isEnabled_iff]
        intro enabled
        rw [isDown, enabled, ← line, low] at up
        exact absurd up (by decide)
      exact absurd ⟨(rises_iff change).2 ⟨set, unset⟩, low⟩ others

theorem Transmits.leaves {byte : UInt8} (transmits : Transmits uart clock byte after later) :
    after.bank = uart.bank ∧ after.lineLow = uart.lineLow ∧ after.breakDue = uart.breakDue := by
  cases transmits <;> exact ⟨rfl, rfl, rfl⟩

theorem write_retimes (uart : Uart) (clock : Clock) (width : Width) (address value : UInt32) :
    (uart.write clock width address value).Ensures fun (after, _) =>
      uart.Retimes clock after ∧ after.lineLow = uart.lineLow := by
  refine (uart.write_writes clock width address value).imp ?_
  rintro ⟨after, later⟩ writes
  cases writes with
  | missed => exact ⟨.of_same rfl rfl rfl clock, rfl⟩
  | control _ here obeys =>
      refine obeys.retimes ?_ ?_ rfl rfl
      · exact here ▸ Bank.get_put_self _ _ _
      · exact (congrArg uart.bank.get here).symm
  | transmit _ here transmits =>
      have other : _ ≠ controlIndex := fun control => absurd (here.1.symm.trans control) (by decide)
      obtain ⟨bank, line, timed⟩ := transmits.leaves
      have control : after.bank.get controlIndex = uart.bank.get controlIndex :=
        bank ▸ Bank.get_write_of_ne uart.bank other value
      exact ⟨.of_same control line timed clock, line⟩
  | store _ other =>
      refine ⟨.of_same ?_ ?_ ?_ clock, rfl⟩
      · exact Bank.get_write_of_ne uart.bank other value
      · rfl
      · rfl

theorem read_leaves (uart : Uart) (width : Width) (address : UInt32) :
    (uart.read width address).value.2.bank.get controlIndex = uart.bank.get controlIndex ∧
      (uart.read width address).value.2.lineLow = uart.lineLow ∧
      (uart.read width address).value.2.breakDue = uart.breakDue := by
  have looked := (uart.read_looked width address).2
  split at looked
  next =>
    rw [looked]
    exact ⟨rfl, rfl, rfl⟩
  next =>
    rw [looked]
    unfold Uart.looked
    split
    next => exact ⟨Bank.get_put_of_ne _ (by decide) _, rfl, rfl⟩
    next => split <;> exact ⟨rfl, rfl, rfl⟩

theorem receive_leaves (uart : Uart) (byte : UInt8) :
    (uart.receive byte).value.bank.get controlIndex = uart.bank.get controlIndex ∧
      (uart.receive byte).value.lineLow = uart.lineLow ∧
      (uart.receive byte).value.breakDue = uart.breakDue := by
  have cleared : (uart.bank.clearBits statusIndex breakBit).get controlIndex
      = uart.bank.get controlIndex := Bank.get_set_of_ne _ (by decide) _
  have receives := uart.receive_receives byte
  generalize uart.receive byte = received at receives ⊢
  cases receives with
  | refused => exact ⟨rfl, rfl, rfl⟩
  | stored => exact ⟨cleared, rfl, rfl⟩
  | dropped => exact ⟨(Bank.get_set_of_ne _ (by decide) _).trans cleared, rfl, rfl⟩

/-- What is done to an interface changes the level of the line as it says. The timing of a break
goes on, starts or ends by that and by the enable bit. -/
theorem perform_retimes {command : Command} (quiet : command ≠ .poll)
    (done : (uart.perform clock command).outcome = .ok (after, later)) :
    uart.Retimes clock after ∧ after.lineLow = command.lowers uart.lineLow := by
  cases command with
  | read width address =>
      obtain ⟨control, line, timed⟩ := uart.read_leaves width address
      cases done
      exact ⟨.of_same control line timed clock, line⟩
  | write width address value => exact write_retimes uart clock width address value _ done
  | receive byte =>
      obtain ⟨control, line, timed⟩ := uart.receive_leaves byte
      cases done
      exact ⟨.of_same control line timed clock, line⟩
  | setLine high => exact setLine_retimes done
  | poll => contradiction
  | reset =>
      cases done
      exact ⟨.of_up (isDown_of_high rfl) clock, rfl⟩

/-! ## What shows a break -/

/-- The status register stores that a break was reported. -/
def Shows (uart : Uart) : Prop := uart.bank.get statusIndex &&& breakBit ≠ 0

theorem shows_congr (status : after.bank.get statusIndex = uart.bank.get statusIndex) :
    after.Shows ↔ uart.Shows := by
  rw [Shows, Shows, status]

/-- A byte received while the interface is enabled takes back what was reported. -/
theorem receive_shows (uart : Uart) (byte : UInt8) :
    (uart.receive byte).value.Shows ↔ uart.Shows ∧ uart.isEnabled = false := by
  have cleared := Bank.clearBits_clears uart.bank statusIndex breakBit
  cases enabled : uart.isEnabled with
  | false =>
      rw [receive_of_disabled enabled]
      exact (and_iff_left rfl).symm
  | true =>
      refine iff_of_false (not_not.2 ?_) fun shown => absurd shown.2 (by decide)
      by_cases short : uart.received.length < uart.capacity
      · rw [receive_of_room enabled short]
        exact cleared
      · rw [receive_of_full enabled short]
        exact Bank.setBits_without cleared (by decide)

/-- A read of the lowest byte of the status register takes back what was reported. -/
theorem read_shows (uart : Uart) (width : Width) (address : UInt32) :
    (uart.read width address).value.2.Shows ↔
      uart.Shows ∧ ¬(registers.get statusIndex).IsLowest width address := by
  rw [Shows, status_read uart width address (by decide)]
  split
  next covers => exact iff_of_false (not_not.2 rfl) fun shown => shown.2 covers
  next misses => exact (and_iff_left misses).symm

theorem reset_shows (built : uart.bank.Built) (clock : Clock) : ¬(uart.reset clock).1.Shows := by
  have clear : (uart.reset clock).1.bank = Bank.initial registers :=
    Bank.reset_eq_initial built.resets
  rw [Shows, clear]
  decide

/-- What a command other than a poll leaves of what was reported. -/
theorem perform_shows {command : Command} (quiet : command ≠ .poll) (built : uart.bank.Built)
    (done : (uart.perform clock command).outcome = .ok (after, later)) {latched : Bool}
    (shows : uart.Shows ↔ latched = true) (signals : List Signal) :
    after.Shows ↔ command.latches latched uart signals = true := by
  cases command with
  | read width address =>
      cases done
      refine (read_shows uart width address).trans ?_
      rw [shows, Command.latches, Bool.and_eq_true, Bool.not_eq_true', decide_eq_false_iff_not]
  | write width address value =>
      have status := (write_retains uart clock width address value _ done).status
      exact (shows_congr status).trans shows
  | receive byte =>
      cases done
      refine (receive_shows uart byte).trans ?_
      rw [shows, Command.latches, Bool.and_eq_true, Bool.not_eq_true']
  | setLine high =>
      exact (shows_congr (setLine_retains done).status).trans shows
  | poll => contradiction
  | reset =>
      cases done
      exact iff_of_false (reset_shows built clock) Bool.false_ne_true

/-! ## Reports -/

theorem breakCycles_append (index : Nat) (heard more : List (Nat × Signal)) :
    breakCycles index (heard ++ more) = breakCycles index heard ++ breakCycles index more :=
  List.filterMap_append

theorem breakCycles_cons (index cycle : Nat) (heard : List (Nat × Signal)) :
    breakCycles index ((cycle, .note (.breakDetected index)) :: heard)
      = cycle :: breakCycles index heard := by
  simp [breakCycles]

theorem breakCycles_of_quiet {index : Nat}
    (quiet : ∀ signal ∈ signals, signal ≠ .note (.breakDetected index)) (cycle : Nat) :
    breakCycles index (signals.map (cycle, ·)) = [] := by
  refine List.filterMap_eq_nil_iff.2 fun entry dated => ?_
  obtain ⟨signal, signalled, rfl⟩ := List.mem_map.1 dated
  exact if_neg (quiet signal signalled)

theorem breakCycles_perform (uart : Uart) (clock : Clock) {command : Command}
    (quiet : command ≠ .poll) (cycle : Nat) :
    breakCycles uart.index ((uart.perform clock command).signals.map (cycle, ·)) = [] :=
  breakCycles_of_quiet
    (fun _ signalled => (perform_answers uart clock quiet _ signalled).ne_break uart.index) cycle

theorem pollShifter_ne_break (uart : Uart) (clock : Clock) (number : Nat) :
    ∀ signal ∈ (uart.pollShifter clock).signals, signal ≠ .note (.breakDetected number) := by
  have sends := uart.pollShifter_sends clock
  generalize uart.pollShifter clock = polled at sends ⊢
  intro signal signalled
  cases sends with
  | waits => exact absurd signalled List.not_mem_nil
  | sends =>
      simp only [report, List.mem_append, List.mem_cons, List.not_mem_nil, or_false] at signalled
      rcases signalled with (rfl | rfl) | requested
      · nofun
      · nofun
      · split at requested
        next =>
          rw [List.mem_singleton.1 requested]
          nofun
        next => exact absurd requested List.not_mem_nil

/-- A poll at which no break is due. -/
structure Passes (uart : Uart) (clock : Clock) : Prop where
  timed : (uart.poll clock).value.breakDue = uart.breakDue
  signals : (uart.poll clock).signals = (uart.pollShifter clock).signals
  shows : (uart.poll clock).value.Shows ↔ uart.Shows

/-- A poll that reports a break: the status register shows it from then on, and the interrupt is
asked for if something received asks for it. -/
structure Reports (uart : Uart) (clock : Clock) : Prop where
  timed : (uart.poll clock).value.breakDue = none
  signals : (uart.poll clock).signals = (uart.pollShifter clock).signals
    ++ .note (.breakDetected uart.index) :: uart.receiveRequest
  shows : (uart.poll clock).value.Shows

theorem poll_passes (ahead : ∀ deadline ∈ uart.breakDue, ¬clock.hasReached deadline.time = true) :
    uart.Passes clock := by
  obtain ⟨shifter, same⟩ := pollShifter_leaves uart clock
  have quiet : ({ uart with shifter } : Uart).pollBreak clock = pure { uart with shifter } := by
    cases timed : uart.breakDue with
    | none => exact pollBreak_of_none rfl clock
    | some deadline => exact pollBreak_of_ahead rfl (ahead deadline timed)
  constructor
  · unfold poll
    rw [Traced.value_bind, same, quiet, Traced.value_pure]
  · unfold poll
    rw [Traced.signals_bind, same, quiet]
    exact List.append_nil _
  · unfold poll
    rw [Traced.value_bind, same, quiet, Traced.value_pure]
    exact Iff.rfl

theorem poll_reports {deadline : Deadline} (timed : uart.breakDue = some deadline)
    (reached : clock.hasReached deadline.time = true) : uart.Reports clock := by
  obtain ⟨shifter, same⟩ := pollShifter_leaves uart clock
  have breaks := pollBreak_of_reached (show ({ uart with shifter } : Uart).breakDue = _ from timed)
    reached
  have shown : (uart.bank.setBits statusIndex breakBit).get statusIndex &&& breakBit ≠ 0 := by
    rw [Bank.setBits_and _ (by decide), ne_eq, UInt32.or_eq_zero_iff]
    exact fun none => absurd none.2 (by decide)
  constructor
  · unfold poll
    rw [Traced.value_bind, same, breaks]
  · unfold poll
    rw [Traced.signals_bind, same, breaks]
    rfl
  · unfold poll
    rw [Traced.value_bind, same, breaks]
    exact shown

theorem poll_cases (uart : Uart) (clock : Clock) : uart.Passes clock ∨ uart.Reports clock := by
  by_cases due : ∃ deadline ∈ uart.breakDue, clock.hasReached deadline.time = true
  · obtain ⟨deadline, timed, reached⟩ := due
    exact .inr (poll_reports timed reached)
  · exact .inl (poll_passes fun deadline timed reached => due ⟨deadline, timed, reached⟩)

/-- A poll that tells of a break is one that reports it. -/
theorem reports_iff : uart.Reports clock ↔
    .note (.breakDetected uart.index) ∈ (uart.poll clock).signals := by
  rcases poll_cases uart clock with passes | reports
  · have untold : .note (.breakDetected uart.index) ∉ (uart.poll clock).signals := by
      rw [passes.signals]
      exact fun told => pollShifter_ne_break uart clock uart.index _ told rfl
    refine iff_of_false (fun reports => untold ?_) untold
    rw [reports.signals]
    simp
  · refine iff_of_true reports ?_
    rw [reports.signals]
    simp

/-- What a poll leaves of what was reported, and adds to it. -/
theorem poll_shows {latched : Bool} (shows : uart.Shows ↔ latched = true) :
    (uart.poll clock).value.Shows
      ↔ Command.poll.latches latched uart (uart.poll clock).signals = true := by
  rw [Command.latches, Bool.or_eq_true, decide_eq_true_eq, ← reports_iff, ← shows]
  rcases poll_cases uart clock with passes | reports
  · have shown := passes.shows
    refine shown.trans (or_iff_left_of_imp fun reports => ?_).symm
    exact shown.1 reports.shows
  · exact iff_of_true reports.shows (.inr reports)

theorem poll_leaves (uart : Uart) (clock : Clock) :
    (uart.poll clock).value.bank.get controlIndex = uart.bank.get controlIndex ∧
      (uart.poll clock).value.lineLow = uart.lineLow := by
  obtain ⟨shifter, same⟩ := pollShifter_leaves uart clock
  unfold poll
  rw [Traced.value_bind, same]
  have breaks := pollBreak_breaks { uart with shifter } clock
  generalize ({ uart with shifter } : Uart).pollBreak clock = polled at breaks ⊢
  cases breaks with
  | waits => exact ⟨rfl, rfl⟩
  | breaks => exact ⟨Bank.get_set_of_ne _ (by decide) _, rfl⟩

theorem Passes.breakCycles_eq (passes : uart.Passes clock) (cycle : Nat) :
    breakCycles uart.index ((uart.poll clock).signals.map (cycle, ·)) = [] := by
  rw [passes.signals]
  exact breakCycles_of_quiet (pollShifter_ne_break uart clock uart.index) cycle

theorem Reports.breakCycles_eq (reports : uart.Reports clock) (cycle : Nat) :
    breakCycles uart.index ((uart.poll clock).signals.map (cycle, ·)) = [cycle] := by
  have requests := breakCycles_of_quiet (fun _ requested =>
    (uart.receiveRequest_answers _ requested).ne_break uart.index) cycle
  have shifted := breakCycles_of_quiet (pollShifter_ne_break uart clock uart.index) cycle
  rw [reports.signals, List.map_append, List.map_cons, breakCycles_append, breakCycles_cons,
    shifted, requests]
  rfl

/-! ## The time of a spell -/

/-- The deadline of a break is that of the spell under way, until that has been reported. -/
inductive Arms (clock : Clock) (cycle : Nat) (owed : Bool) :
    Option Deadline → Option Spell → List Nat → Prop where
  | idle : Arms clock cycle owed none none []
  | timing {spell : Spell} {deadline : Deadline}
      (timed : Timed clock cycle spell.due deadline owed) (early : cycle ≤ spell.due) :
      Arms clock cycle owed (some deadline) (some spell) []
  | reported {spell : Spell} (passed : spell.due ≤ cycle) :
      Arms clock cycle owed none (some spell) [spell.due]

variable {timed : Option Deadline} {current : Option Spell}

theorem Arms.congr (arms : Arms clock cycle owed timed current told) (now : later.now = clock.now) :
    Arms later cycle owed timed current told := by
  cases arms with
  | idle => exact .idle
  | timing timed early => exact .timing (timed.congr now) early
  | reported passed => exact .reported passed

/-- What has been reported of the spell under way, once no poll is owed. -/
theorem Arms.told_eq (arms : Arms clock cycle false timed current told) :
    told = Watch.dues (current.map (·, cycle)).toList := by
  cases arms with
  | idle => rfl
  | @timing spell deadline timed early =>
      cases timed with
      | ahead before => exact (by simp [Watch.dues, before])
      | reached owes => contradiction
  | reported passed => simp [Watch.dues, passed]

theorem Arms.increment {cycles : UInt64} {reached : Bool}
    (arms : Arms clock cycle false timed current told)
    (pending : ∀ deadline ∈ timed, deadline ∈ clock.pending)
    (within : ∀ deadline ∈ timed, cycles ≤ clock.distance deadline.time)
    (moved : clock.increment cycles = .ok (reached, later)) :
    Arms later (cycle + cycles.toNat) reached timed current told := by
  cases arms with
  | idle => exact .idle
  | @timing spell deadline timed early =>
      refine .timing (timed.increment (pending deadline rfl) moved) ?_
      cases timed with
      | ahead before distance near =>
          have step := UInt64.le_iff_toNat_le.1 (within deadline rfl)
          omega
      | reached owes => contradiction
  | reported passed => exact .reported (passed.trans (Nat.le_add_right _ _))

/-- A poll reports the spell under way if it is due, which it then is at that very cycle. -/
theorem Arms.poll (arms : Arms clock cycle owed uart.breakDue current told) :
    Arms clock cycle false (uart.poll clock).value.breakDue current
      (told ++ breakCycles uart.index ((uart.poll clock).signals.map (cycle, ·))) := by
  generalize due : uart.breakDue = timed at arms
  cases arms with
  | idle =>
      have passes : uart.Passes clock := poll_passes (by simp [due])
      rw [passes.timed, passes.breakCycles_eq, due]
      exact .idle
  | @timing spell deadline timed early =>
      by_cases reached : clock.hasReached deadline.time = true
      · have reports := poll_reports due reached
        have here : cycle = spell.due := early.antisymm (timed.hasReached_iff.1 reached)
        rw [reports.timed, reports.breakCycles_eq, here]
        exact .reported (Nat.le_refl _)
      · have passes : uart.Passes clock := poll_passes (by simpa [due] using reached)
        have before := Nat.not_le.1 (mt timed.hasReached_iff.2 reached)
        rw [passes.timed, passes.breakCycles_eq, due]
        exact .timing (timed.of_lt before) early
  | reported passed =>
      have passes : uart.Passes clock := poll_passes (by simp [due])
      rw [passes.timed, passes.breakCycles_eq, due, List.append_nil]
      exact .reported passed

/-! ## Steps of a history -/

namespace Watch

variable {command : Command}

theorem after_of_down (line : after.lineLow = command.lowers watch.low)
    (down : after.isDown = true) (uart : Uart) (signals : List Signal) :
    watch.after cycle uart after signals command = { watch with
      low := command.lowers watch.low
      latched := command.latches watch.latched uart signals
      current := some (watch.current.getD ⟨cycle, after.frameCycles.toNat⟩) } := by
  unfold Watch.after
  rw [isDown, line] at down
  exact if_pos down

theorem after_of_up (line : after.lineLow = command.lowers watch.low)
    (up : after.isDown = false) (uart : Uart) (signals : List Signal) :
    watch.after cycle uart after signals command = {
      low := command.lowers watch.low
      latched := command.latches watch.latched uart signals
      past := watch.past ++ (watch.current.map (·, cycle)).toList } := by
  unfold Watch.after
  rw [isDown, line] at up
  exact if_neg (up ▸ Bool.false_ne_true)

theorem low_after (watch : Watch) (cycle : Nat) (uart after : Uart) (signals : List Signal)
    (command : Command) :
    (watch.after cycle uart after signals command).low = command.lowers watch.low := by
  unfold Watch.after
  dsimp only
  split <;> rfl

theorem latched_after (watch : Watch) (cycle : Nat) (uart after : Uart) (signals : List Signal)
    (command : Command) : (watch.after cycle uart after signals command).latched
      = command.latches watch.latched uart signals := by
  unfold Watch.after
  dsimp only
  split <;> rfl

/-- A spell is under way just while the interface is enabled with a low line. -/
theorem current_after (line : after.lineLow = command.lowers watch.low) (cycle : Nat) (uart : Uart)
    (signals : List Signal) :
    (watch.after cycle uart after signals command).current.isSome = after.isDown := by
  cases down : after.isDown with
  | true => rw [after_of_down line down, Option.isSome_some]
  | false => rw [after_of_up line down, Option.isSome_none]

/-- The spells are as they were unless a spell begins or ends. -/
theorem after_of_same (line : after.lineLow = command.lowers watch.low)
    (same : watch.current.isSome = after.isDown) (uart : Uart) (signals : List Signal) :
    watch.after cycle uart after signals command = { watch with
      low := command.lowers watch.low
      latched := command.latches watch.latched uart signals } := by
  obtain ⟨low, past, current, latched⟩ := watch
  cases current with
  | none =>
      rw [after_of_up line same.symm]
      exact congrArg (Watch.mk _ · none _) (List.append_nil past)
  | some spell => exact after_of_down line same.symm uart signals

/-- How an interface stands to the watch over its line. -/
structure Standing (uart : Uart) (clock : Clock) (cycle : Nat) (owed : Bool) (watch : Watch)
    (heard : List (Nat × Signal)) : Prop where
  line : uart.lineLow = watch.low
  current : watch.current.isSome = uart.isDown
  shows : uart.Shows ↔ watch.latched = true
  told : ∃ told, Arms clock cycle owed uart.breakDue watch.current told ∧
    breakCycles uart.index heard = dues watch.past ++ told

theorem dues_append (first second : List (Spell × Nat)) :
    dues (first ++ second) = dues first ++ dues second := by
  unfold dues
  rw [List.filter_append, List.map_append]

/-- The timing of a break follows the spells. -/
theorem Standing.arms_perform {next : Clock}
    (standing : Standing uart clock cycle false watch heard)
    (retimes : uart.Retimes clock after) (line : after.lineLow = command.lowers watch.low)
    (now : next.now = clock.now) (ends : after.isDown = false → after.breakDue = none)
    (signals : List Signal) :
    ∃ told, Arms next cycle false after.breakDue
        (watch.after cycle uart after signals command).current told ∧
      breakCycles uart.index heard
        = dues (watch.after cycle uart after signals command).past ++ told := by
  obtain ⟨told, arms, heard_eq⟩ := standing.told
  cases down : after.isDown with
  | false =>
      rw [after_of_up line down, ends down]
      refine ⟨[], .idle, ?_⟩
      rw [dues_append, ← arms.told_eq, heard_eq, List.append_nil]
  | true =>
      rw [after_of_down line down]
      cases before : uart.isDown with
      | true =>
          obtain ⟨spell, under⟩ := Option.isSome_iff_exists.1 (standing.current.trans before)
          rw [under] at arms ⊢
          rw [retimes.goesOn before down]
          exact ⟨told, arms.congr now, heard_eq⟩
      | false =>
          have idle : watch.current = none :=
            Option.not_isSome_iff_eq_none.1 (Bool.eq_false_iff.1 (standing.current.trans before))
          obtain ⟨deadline, timed, time⟩ := retimes.starts before down
          have frame := after.toNat_frameCycles.1
          have distance : next.distance deadline.time = after.frameCycles := by
            rw [Clock.distance_congr now, time, Clock.distance_add]
          rw [arms.told_eq, idle] at heard_eq
          rw [idle, timed]
          refine ⟨[], .timing (.ahead ?_ ?_ ?_) (Nat.le_add_right _ _), heard_eq⟩
          · exact Nat.lt_add_of_pos_right frame
          · rw [distance]
            exact (Nat.add_sub_cancel_left _ _).symm
          · rw [distance]
            exact after.frameCycles_lt_horizon

theorem Standing.of_quiet {next : Clock} {ledger : Ledger}
    (standing : Standing uart clock cycle false watch heard)
    (orders : Ledger.Standing uart clock cycle false ledger signals) (quiet : command ≠ .poll)
    (done : (uart.perform clock command).outcome = .ok (after, next)) :
    Standing after next cycle false
      (watch.after cycle uart after (uart.perform clock command).signals command)
      (heard ++ (uart.perform clock command).signals.map (cycle, ·)) := by
  have does := perform_does done
  have step := does.step (UInt64.le_refl 1) nofun nofun orders.silent
  have consistent := does.isConsistent nofun orders.built orders.consistent
  obtain ⟨retimes, lowers⟩ := perform_retimes quiet done
  have line : after.lineLow = command.lowers watch.low := standing.line ▸ lowers
  have ends := breakDue_of_up consistent
  obtain ⟨told, arms, heard_eq⟩ := standing.arms_perform retimes line step.serves.follows.now ends
    (uart.perform clock command).signals
  constructor
  · rw [line, low_after]
  · exact current_after line cycle uart _
  · rw [latched_after]
    exact perform_shows quiet orders.built done standing.shows _
  · refine ⟨told, arms, ?_⟩
    rw [step.index, breakCycles_append, breakCycles_perform uart clock quiet, List.append_nil,
      heard_eq]

theorem Standing.poll (standing : Standing uart clock cycle owed watch heard) :
    Standing (uart.poll clock).value clock cycle false
      (watch.after cycle uart (uart.poll clock).value (uart.poll clock).signals .poll)
      (heard ++ (uart.poll clock).signals.map (cycle, ·)) := by
  obtain ⟨told, arms, heard_eq⟩ := standing.told
  obtain ⟨control, line⟩ := uart.poll_leaves clock
  have low : (uart.poll clock).value.lineLow = Command.poll.lowers watch.low :=
    line.trans standing.line
  have down : (uart.poll clock).value.isDown = uart.isDown := by
    rw [isDown, isDown, isEnabled_congr control, line]
  have index := (poll_step uart clock).1.index
  have after : watch.after cycle uart (uart.poll clock).value (uart.poll clock).signals .poll = _ :=
    after_of_same low (standing.current.trans down.symm) uart (uart.poll clock).signals
  constructor
  · rw [low, low_after]
  · exact current_after low cycle uart _
  · rw [latched_after]
    exact poll_shows standing.shows
  · rw [after, index, breakCycles_append, heard_eq, List.append_assoc]
    exact ⟨_, arms.poll, rfl⟩

theorem Standing.perform {next : Clock} {ledger : Ledger}
    (standing : Standing uart clock cycle owed watch heard)
    (orders : Ledger.Standing uart clock cycle owed ledger signals)
    (prompt : owed = true → command = .poll)
    (done : (uart.perform clock command).outcome = .ok (after, next)) :
    Standing after next cycle false
      (watch.after cycle uart after (uart.perform clock command).signals command)
      (heard ++ (uart.perform clock command).signals.map (cycle, ·)) := by
  by_cases polls : command = .poll
  · subst polls
    have told : (uart.perform clock .poll).signals = (uart.poll clock).signals :=
      List.append_nil _
    cases done
    rw [told]
    exact standing.poll
  · have free : owed = false := Bool.eq_false_iff.2 fun owes => polls (prompt owes)
    subst free
    exact standing.of_quiet orders polls done

theorem Standing.increment {ledger : Ledger} {cycles : UInt64} {reached : Bool}
    (standing : Standing uart clock cycle false watch heard)
    (orders : Ledger.Standing uart clock cycle false ledger signals)
    (within : ∀ deadline ∈ uart.held, cycles ≤ clock.distance deadline.time)
    (moved : clock.increment cycles = .ok (reached, later)) :
    Standing uart later (cycle + cycles.toNat) reached watch heard := by
  obtain ⟨told, arms, heard_eq⟩ := standing.told
  have held (deadline : Deadline) (timed : deadline ∈ uart.breakDue) : deadline ∈ uart.held :=
    Multiset.mem_add.2 (.inr (Deadline.mem_single.2 timed))
  have pending (deadline : Deadline) (timed : deadline ∈ uart.breakDue) :
      deadline ∈ clock.pending :=
    orders.keeps deadline (held deadline timed) (orders.ahead rfl deadline (held deadline timed))
  exact { standing with
    told := ⟨told, arms.increment pending (fun deadline timed =>
      within deadline (held deadline timed)) moved, heard_eq⟩ }

theorem Standing.share (standing : Standing uart clock cycle owed watch heard)
    (leaves : clock.Leaves uart.held later) : Standing uart later cycle owed watch heard := by
  obtain ⟨told, arms, heard_eq⟩ := standing.told
  exact { standing with told := ⟨told, arms.congr leaves.now, heard_eq⟩ }

theorem standing_create {index capacity : Nat} {source : UInt8}
    (created : create index source capacity = .ok uart) (clock : Clock) :
    Standing uart clock 0 false {} [] := by
  have clear : (Bank.initial registers).get statusIndex = 0 := by decide
  cases of_create created
  constructor
  · rfl
  · exact (isDown_of_high rfl).symm
  · refine iff_of_false ?_ Bool.false_ne_true
    rw [Shows, clear]
    decide
  · exact ⟨[], .idle, rfl⟩

/-- The orders of the interface have a history of their own. -/
theorem History.orders (history : History uart clock cycle owed watch heard) :
    ∃ ledger signals, Ledger.History uart clock cycle owed ledger signals := by
  induction history with
  | start created clock => exact ⟨_, _, .start created clock⟩
  | perform _ command prompt done ih =>
      obtain ⟨ledger, signals, orders⟩ := ih
      exact ⟨_, _, orders.perform command prompt done⟩
  | increment _ cycles _ moved ih =>
      obtain ⟨ledger, signals, orders⟩ := ih
      exact ⟨_, _, orders.increment cycles moved⟩
  | share _ leaves ih =>
      obtain ⟨ledger, signals, orders⟩ := ih
      exact ⟨_, _, orders.share leaves⟩

theorem History.standing (history : History uart clock cycle owed watch heard) :
    Standing uart clock cycle owed watch heard := by
  induction history with
  | start created clock => exact standing_create created clock
  | perform before command prompt done standing =>
      obtain ⟨ledger, signals, orders⟩ := before.orders
      exact standing.perform orders.standing prompt done
  | increment before cycles within moved standing =>
      obtain ⟨ledger, signals, orders⟩ := before.orders
      exact standing.increment orders.standing within moved
  | share _ leaves standing => exact standing.share leaves

end Watch

/-! ## What is reported -/

/-- What has been reported, once the poll at the present cycle has been made. -/
theorem Watch.Standing.breakCycles_poll
    (standing : Watch.Standing uart clock cycle owed watch heard) :
    breakCycles uart.index (heard ++ (uart.poll clock).signals.map (cycle, ·))
      = Watch.dues (watch.spells cycle) := by
  obtain ⟨told, arms, heard_eq⟩ := standing.told
  rw [breakCycles_append, heard_eq, List.append_assoc, arms.poll.told_eq, Watch.spells,
    Watch.dues_append]

theorem Watch.Standing.breakCycles_eq
    (standing : Watch.Standing uart clock cycle false watch heard) :
    breakCycles uart.index heard = Watch.dues (watch.spells cycle) := by
  obtain ⟨told, arms, heard_eq⟩ := standing.told
  rw [heard_eq, arms.told_eq, Watch.spells, Watch.dues_append]

theorem interrupt_mem_receiveRequest (uart : Uart) :
    .interrupt uart.source ∈ uart.receiveRequest ↔ uart.controls receiveInterruptBit = true := by
  unfold receiveRequest
  split
  next asked => exact iff_of_true (List.mem_singleton_self _) asked
  next silent => exact iff_of_false List.not_mem_nil silent

/-- However an interface is used, it reports a break for each spell that lasts until it is due, at
that cycle and at no other, and for no other spell. The report shows in the status register, and
asks for the interrupt if the control register asks for it. Writes that leave the interface enabled
make no difference to the spell under way, nor to the deadline at which it is due. A report is read
in the lowest byte of the status register until it is taken back. -/
theorem breaks_of_history (history : Watch.History uart clock cycle owed watch heard) :
    (owed = false → breakCycles uart.index heard = Watch.dues (watch.spells cycle)) ∧
      breakCycles uart.index (heard ++ (uart.poll clock).signals.map (cycle, ·))
        = Watch.dues (watch.spells cycle) ∧
      watch.current.isSome = (uart.isEnabled && watch.low) ∧
      (.note (.breakDetected uart.index) ∈ (uart.poll clock).signals → uart.Reports clock) ∧
      (.interrupt uart.source ∈ uart.receiveRequest ↔
        uart.controls receiveInterruptBit = true) ∧
      (∀ width address value after later, uart.isEnabled = true →
        (uart.write clock width address value).outcome = .ok (after, later) →
        after.isEnabled = true → after.breakDue = uart.breakDue ∧
          watch.after cycle uart after (uart.write clock width address value).signals
            (.write width address value) = watch) ∧
      (∀ width address, (registers.get statusIndex).IsLowest width address →
        ((uart.read width address).value.1 &&& breakBit ≠ 0 ↔ watch.latched = true)) ∧
      ∀ command, ∃ result, (uart.perform clock command).outcome = .ok result := by
  have standing := history.standing
  refine ⟨?_, standing.breakCycles_poll, ?_, reports_iff.2, interrupt_mem_receiveRequest uart, ?_,
    ?_, perform_ends uart clock⟩
  · rintro rfl
    exact standing.breakCycles_eq
  · rw [standing.current, isDown, standing.line]
  · intro width address value after later enabled done stays
    obtain ⟨retimes, line⟩ := write_retimes uart clock width address value _ done
    have same : after.isDown = uart.isDown := by rw [isDown, isDown, enabled, stays, line]
    have lowers : after.lineLow = Command.lowers watch.low (.write width address value) :=
      line.trans standing.line
    have known := standing.current.trans same.symm
    refine ⟨?_, Watch.after_of_same lowers known uart _⟩
    cases down : uart.isDown with
    | true => exact retimes.goesOn down (same.trans down)
    | false =>
        obtain ⟨ledger, signals, orders⟩ := history.orders
        have does : Does (fun _ => False) uart clock after later := .write width address value done
        have before := orders.standing
        have consistent := does.isConsistent nofun before.built before.consistent
        rw [breakDue_of_up before.consistent down, breakDue_of_up consistent (same.trans down)]
  · intro width address covers
    rw [uart.read_stored covers (by decide)]
    exact standing.shows

/-- A line that falls is a break after one frame, though the divisor is written on the way. -/
theorem breaks_of_history_retimed :
    ∃ (uart : Uart) (clock : Clock) (watch : Watch) (heard : List (Nat × Signal)),
      Watch.History uart clock 288 false watch heard ∧ watch.current = some ⟨0, 288⟩ ∧
        uart.frameCycles = 1728 ∧ breakCycles 0 heard = [288] ∧
        (288, .interrupt 9) ∈ heard ∧ (uart.read .byte 0x08).value.1 &&& breakBit ≠ 0 := by
  have created : create 0 9 1 = .ok { index := 0, source := 9, capacity := 1 } := rfl
  have enabled := (Watch.History.start created {}).perform (.write .word 0x00 0x140) nofun rfl
  have lowered : Watch.History _ _ _ _ _ _ := enabled.perform (.setLine false) nofun rfl
  have waiting : Watch.History _ _ _ false _ _ := lowered.increment 100 (by decide) rfl
  have retimed := waiting.perform (.write .word 0x04 5) nofun rfl
  have due : Watch.History _ _ _ true _ _ := retimed.increment 188 (by decide) rfl
  have reported := due.perform .poll (fun _ => rfl) rfl
  obtain ⟨cycles, -, -, -, -, -, shown, -⟩ := breaks_of_history reported
  refine ⟨_, _, _, _, reported, by decide, by decide, ?_, by decide, ?_⟩
  · exact (cycles rfl).trans (by decide)
  · exact (shown .byte 0x08 (by decide)).2 (by decide)

end Uart

end SocPeripherals
