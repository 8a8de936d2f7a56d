import SocPeripherals.Proofs.Dma.Turns
import SocPeripherals.Proofs.Isolation.Devices
import SocPeripherals.Proofs.Restore.Devices

/-!
# Devices whose registers and state agree

What a device is doing shows in its registers: a timer runs while it is enabled, a channel has a
transfer while its start bit is set, an interface sends and times breaks only while it is enabled,
and registers of which some bits are only shown do not store those. Every operation keeps this. The
outline of a device is what has to agree; a restored device has the outline that was saved.
-/

namespace SocPeripherals

/-! ## Timers -/

namespace Timer

/-- What a timer's control register says and what the timer is doing. -/
structure Outline where
  control : UInt32
  running : Bool
deriving DecidableEq

/-- A timer runs just while the enable bit of its control register is set. -/
def Outline.IsConsistent (outline : Outline) : Prop :=
  outline.running = true ↔ outline.control &&& enableBit ≠ 0

instance (outline : Outline) : Decidable outline.IsConsistent :=
  inferInstanceAs (Decidable (_ ↔ _))

/-- The outline of a timer. -/
def outline (timer : Timer) : Outline := ⟨timer.bank.get controlIndex, timer.isRunning⟩

/-- The saved outline of a timer. -/
def Snapshot.outline (saved : Snapshot) : Outline :=
  ⟨saved.regs.getD controlIndex.val 0, saved.running⟩

/-- The timer runs just while it is enabled. -/
def IsConsistent (timer : Timer) : Prop := timer.outline.IsConsistent

variable {timer after : Timer} {clock later : Clock} {change : Change} {saved : Snapshot}

theorem Holds.outline_eq (holds : timer.Holds saved) : timer.outline = saved.outline := by
  rw [outline, Snapshot.outline, holds.running, holds.regs.word rfl]

theorem holds_snapshot (fits : timer.bank.Fits) (clock : Clock) :
    timer.Holds (timer.snapshot clock) :=
  ⟨Bank.stores_toList fits, rfl⟩

theorem rises_iff (change : Change) : change.rising &&& enableBit ≠ 0 ↔
    change.new &&& enableBit ≠ 0 ∧ ¬ change.old &&& enableBit ≠ 0 :=
  change.rising_iff (by decide : ∀ position < 32, _ = decide (position = 0)) (by decide)

theorem falls_iff (change : Change) : change.falling &&& enableBit ≠ 0 ↔
    change.old &&& enableBit ≠ 0 ∧ ¬ change.new &&& enableBit ≠ 0 :=
  change.falling_iff (by decide : ∀ position < 32, _ = decide (position = 0)) (by decide)

theorem place_runs (timer : Timer) (clock : Clock) (begun period : UInt64) :
    (timer.place clock begun period).Ensures fun (after, _) =>
      after.isRunning = true ∧ after.bank = timer.bank :=
  .bind (.trivial _) fun _ _ => .pure ⟨rfl, rfl⟩

theorem arm_runs (timer : Timer) (clock : Clock) (start : UInt64) :
    (timer.arm clock start).Ensures fun (after, _) =>
      after.isRunning = true ∧ after.bank = timer.bank := by
  unfold arm
  refine .bind (.trivial _) fun period _ => ?_
  dsimp only
  split
  next => exact .bind (.trivial _) fun _ _ => place_runs timer clock _ period
  next => exact place_runs timer clock _ period

/-- The enable bit starts and stops the timer. -/
theorem Obeys.isConsistent (obeys : Obeys timer clock change after later)
    (stored : timer.bank.get controlIndex = change.new)
    (before : Outline.IsConsistent ⟨change.old, timer.isRunning⟩) : after.IsConsistent := by
  cases obeys with
  | runs rises running => exact absurd (before.1 running) ((rises_iff change).1 rises).2
  | starts rises _ arms =>
      obtain ⟨runs, kept⟩ := arm_runs timer clock clock.now _ arms
      refine iff_of_true runs ?_
      rw [outline, kept, stored]
      exact ((rises_iff change).1 rises).1
  | stops _ falls =>
      rw [(halt_eq timer clock).1]
      refine iff_of_false (Bool.false_ne_true) ?_
      rw [outline, stored]
      exact ((falls_iff change).1 falls).2
  | kept stays keeps =>
      rw [rises_iff] at stays
      rw [falls_iff] at keeps
      refine before.trans ?_
      rw [outline, stored]
      tauto

theorem write_isConsistent (consistent : timer.IsConsistent) (clock : Clock) (width : Width)
    (address value : UInt32) :
    (timer.write clock width address value).Ensures fun (after, _) => after.IsConsistent := by
  refine (timer.write_writes clock width address value).imp ?_
  rintro ⟨after, later⟩ writes
  cases writes with
  | missed => exact consistent
  | @control selection _ _ _ here obeys =>
      have old : (timer.bank.write selection value).1.old = timer.bank.get controlIndex :=
        congrArg timer.bank.get here
      refine obeys.isConsistent ?_ ?_
      · exact here ▸ Bank.get_put_self _ _ _
      · rw [old]
        exact consistent
  | store _ other =>
      change Outline.IsConsistent ⟨_, timer.isRunning⟩
      rw [Bank.get_write_of_ne _ other]
      exact consistent

theorem turned_isConsistent (enabled : timer.bank.get controlIndex &&& enableBit ≠ 0)
    (clock : Clock) (start : UInt64) :
    (timer.turned clock start).Ensures fun (after, _) => after.IsConsistent := by
  unfold turned
  split
  next =>
    refine .bind (.trivial _) fun period _ => (arm_runs timer clock (start + period)).imp ?_
    rintro ⟨after, later⟩ ⟨runsOn, kept⟩
    refine iff_of_true runsOn ?_
    rw [outline, kept]
    exact enabled
  next => exact .pure (iff_of_false Bool.false_ne_true (not_not.2 (Bank.clearBits_clears _ _ _)))

theorem poll_isConsistent (consistent : timer.IsConsistent) (clock : Clock) :
    (timer.poll clock).Ensures fun (after, _) => after.IsConsistent := by
  rcases timer.ahead_or_reached clock with ahead | ⟨start, expiry, phase, reached⟩
  · rw [poll_of_ahead ahead]
    exact .pure consistent
  · have runs : timer.isRunning = true := by rw [isRunning, phase]
    rw [poll_of_reached phase reached]
    refine .bind (.trivial _) fun _ _ => .bind (turned_isConsistent ?_ clock start) ?_
    · exact consistent.1 runs
    · exact fun _ kept => .bind (.trivial _) fun _ _ => .pure kept

theorem reset_isConsistent (built : timer.bank.Built) (clock : Clock) :
    (timer.reset clock).1.IsConsistent := by
  unfold Timer.reset
  dsimp only
  rw [(halt_eq timer clock).1, Bank.reset_eq_initial built.resets]
  have clear : (Bank.initial registers).get controlIndex &&& enableBit = 0 := by decide
  exact iff_of_false Bool.false_ne_true (not_not.2 clear)

theorem Does.isConsistent {restorable : Snapshot → Prop}
    (does : Does restorable timer clock after later)
    (own : ∀ saved, restorable saved → saved.outline.IsConsistent) (built : timer.bank.Built)
    (consistent : timer.IsConsistent) : after.IsConsistent := by
  cases does with
  | read width address =>
      rw [(timer.read_eq clock width address).1]
      exact consistent
  | write width address value done =>
      exact write_isConsistent consistent clock width address value _ done
  | poll done => exact poll_isConsistent consistent clock _ done
  | reset => exact reset_isConsistent built clock
  | restore known done =>
      have held := (timer.restore_cases clock _).2 _ done
      dsimp only at held
      split at held
      next =>
        rw [IsConsistent, held.outline_eq]
        exact own _ known
      next =>
        rw [held]
        exact consistent

end Timer

/-! ## Serial interfaces -/

namespace Uart

/-- What an interface's control and status registers say and what the interface is doing. -/
structure Outline where
  control : UInt32
  status : UInt32
  sending : Bool
  lineLow : Bool
  breaking : Bool
deriving DecidableEq

/-- An interface sends and times a break only while the enable bit of its control register is set,
a break only of a low line, and its status register stores no bits but those two. -/
structure Outline.IsConsistent (outline : Outline) : Prop where
  sending : outline.sending = true → outline.control &&& enableBit ≠ 0
  breaking : outline.breaking = true → outline.control &&& enableBit ≠ 0 ∧ outline.lineLow = true
  status : outline.status &&& ~~~(overrunBit ||| breakBit) = 0

instance (outline : Outline) : Decidable outline.IsConsistent :=
  decidable_of_iff ((outline.sending = true → outline.control &&& enableBit ≠ 0) ∧
      (outline.breaking = true → outline.control &&& enableBit ≠ 0 ∧ outline.lineLow = true) ∧
      outline.status &&& ~~~(overrunBit ||| breakBit) = 0)
    ⟨fun ⟨sending, breaking, status⟩ => ⟨sending, breaking, status⟩,
      fun consistent => ⟨consistent.sending, consistent.breaking, consistent.status⟩⟩

/-- The outline of an interface. -/
def outline (uart : Uart) : Outline where
  control := uart.bank.get controlIndex
  status := uart.bank.get statusIndex
  sending := uart.isTransmitting
  lineLow := uart.lineLow
  breaking := uart.breakDue.isSome

/-- The saved outline of an interface. -/
def Snapshot.outline (saved : Snapshot) : Outline where
  control := saved.regs.getD controlIndex.val 0
  status := saved.regs.getD statusIndex.val 0
  sending := saved.sending.isSome
  lineLow := saved.lineLow
  breaking := saved.breakRemaining.isSome

/-- The interface sends and times a break only while it is enabled. -/
def IsConsistent (uart : Uart) : Prop := uart.outline.IsConsistent

variable {uart after : Uart} {clock later : Clock} {change : Change} {saved : Snapshot}

theorem Holds.outline_eq (holds : uart.Holds saved) : uart.outline = saved.outline := by
  have sending : uart.isTransmitting = saved.sending.isSome := by
    rw [isTransmitting, ← Option.isSome_map, holds.sending, Option.isSome_map]
  rw [outline, Snapshot.outline, sending, holds.lineLow, holds.breaking, holds.regs.word rfl,
    holds.regs.word rfl]

theorem holds_snapshot (fits : uart.bank.Fits) (clock : Clock) :
    uart.Holds (uart.snapshot clock) where
  regs := Bank.stores_toList fits
  received := rfl
  sending := by
    rw [snapshot, Option.map_map]
    rfl
  lineLow := rfl
  breaking := Option.isSome_map.symm

theorem isEnabled_iff : uart.isEnabled = true ↔ uart.bank.get controlIndex &&& enableBit ≠ 0 :=
  bne_iff_ne

theorem rises_iff (change : Change) : change.rising &&& enableBit ≠ 0 ↔
    change.new &&& enableBit ≠ 0 ∧ ¬ change.old &&& enableBit ≠ 0 :=
  change.rising_iff (by decide : ∀ position < 32, _ = decide (position = 8)) (by decide)

theorem falls_iff (change : Change) : change.falling &&& enableBit ≠ 0 ↔
    change.old &&& enableBit ≠ 0 ∧ ¬ change.new &&& enableBit ≠ 0 :=
  change.falling_iff (by decide : ∀ position < 32, _ = decide (position = 8)) (by decide)

/-- Storing status bits that the interface knows of. -/
theorem IsConsistent.withBank (consistent : uart.IsConsistent) {bank : Bank registers}
    (control : bank.get controlIndex = uart.bank.get controlIndex)
    (status : bank.get statusIndex &&& ~~~(overrunBit ||| breakBit) = 0) :
    IsConsistent { uart with bank } where
  sending sending := by
    rw [outline, control]
    exact consistent.sending sending
  breaking breaking := by
    rw [outline, control]
    exact consistent.breaking breaking
  status := status

theorem IsConsistent.setStatus (consistent : uart.IsConsistent) {bits : UInt32}
    (known : bits &&& ~~~(overrunBit ||| breakBit) = 0) :
    IsConsistent { uart with bank := uart.bank.setBits statusIndex bits } :=
  consistent.withBank (Bank.get_set_of_ne _ (by decide) _)
    (Bank.setBits_without consistent.status known)

theorem IsConsistent.clearStatus (consistent : uart.IsConsistent) (bits : UInt32) :
    IsConsistent { uart with bank := uart.bank.clearBits statusIndex bits } :=
  consistent.withBank (Bank.get_set_of_ne _ (by decide) _)
    (Bank.clearBits_without consistent.status bits)

/-- An interface that sends nothing and times nothing. -/
theorem isConsistent_of_idle (sending : uart.shifter = none) (breaking : uart.breakDue = none)
    (status : uart.bank.get statusIndex &&& ~~~(overrunBit ||| breakBit) = 0) :
    uart.IsConsistent where
  sending busy := by simp [outline, isTransmitting, sending] at busy
  breaking timed := by simp [outline, breaking] at timed
  status := status

theorem receive_isConsistent (consistent : uart.IsConsistent) (byte : UInt8) :
    (uart.receive byte).value.IsConsistent := by
  have cleared := consistent.clearStatus breakBit
  have receives := uart.receive_receives byte
  generalize uart.receive byte = received at receives ⊢
  cases receives with
  | refused => exact consistent
  | stored => exact { cleared with }
  | dropped => exact cleared.setStatus (by decide)

theorem setLine_isConsistent (consistent : uart.IsConsistent) {high : Bool}
    (done : uart.setLine clock high = .ok (after, later)) : after.IsConsistent := by
  cases of_setLine done with
  | raised => exact { consistent with breaking := nofun }
  | kept => exact consistent
  | timed _ enabled => exact { consistent with breaking := fun _ => ⟨isEnabled_iff.1 enabled, rfl⟩ }
  | lowered =>
      exact { consistent with breaking := fun timed => ⟨(consistent.breaking timed).1, rfl⟩ }

theorem Transmits.isConsistent {byte : UInt8} (transmits : Transmits uart clock byte after later)
    (consistent : uart.IsConsistent) : after.IsConsistent := by
  cases transmits with
  | refused => exact consistent
  | begins enabled => exact { consistent with sending := fun _ => isEnabled_iff.1 enabled }

/-- Disabling the interface ends what it needs to be enabled for. -/
theorem Obeys.isConsistent (obeys : Obeys uart clock change after later)
    (stored : uart.bank.get controlIndex = change.new)
    (before : Outline.IsConsistent { uart.outline with control := change.old }) :
    after.IsConsistent := by
  have steady (keeps : ¬change.falling &&& enableBit ≠ 0) : uart.IsConsistent := by
    have enabled (was : change.old &&& enableBit ≠ 0) :
        uart.bank.get controlIndex &&& enableBit ≠ 0 := by
      rw [falls_iff] at keeps
      rw [stored]
      tauto
    constructor
    · exact fun sending => enabled (before.sending sending)
    · exact fun timed => ⟨enabled (before.breaking timed).1, (before.breaking timed).2⟩
    · exact before.status
  cases obeys with
  | disabled => exact isConsistent_of_idle rfl rfl before.status
  | enabled rises low =>
      obtain ⟨set, unset⟩ := (rises_iff change).1 rises
      have keeps : ¬change.falling &&& enableBit ≠ 0 := fun falls =>
        unset ((falls_iff change).1 falls).1
      have on : uart.bank.get controlIndex &&& enableBit ≠ 0 := stored ▸ set
      exact { steady keeps with breaking := fun _ => ⟨on, low⟩ }
  | kept stays => exact steady stays

/-- The bus stores nothing into the status register. -/
theorem get_status_write (bank : Bank registers) (selection : Selection registers)
    (value : UInt32) : (bank.write selection value).2.get statusIndex = bank.get statusIndex := by
  by_cases status : selection.index = statusIndex
  · obtain ⟨index, lane⟩ := selection
    cases status
    exact Bank.get_put_self _ _ _
  · exact Bank.get_write_of_ne _ status _

theorem write_isConsistent (consistent : uart.IsConsistent) (clock : Clock) (width : Width)
    (address value : UInt32) :
    (uart.write clock width address value).Ensures fun (after, _) => after.IsConsistent := by
  have stored {selection : Selection registers} (other : selection.index ≠ controlIndex) :
      IsConsistent { uart with bank := (uart.bank.write selection value).2 } := by
    refine consistent.withBank (Bank.get_write_of_ne _ other _) ?_
    rw [get_status_write]
    exact consistent.status
  refine (uart.write_writes clock width address value).imp ?_
  rintro ⟨after, later⟩ writes
  cases writes with
  | missed => exact consistent
  | @control selection _ _ _ here obeys =>
      have old : (uart.bank.write selection value).1.old = uart.bank.get controlIndex :=
        congrArg uart.bank.get here
      refine obeys.isConsistent ?_ ?_
      · exact here ▸ Bank.get_put_self _ _ _
      · rw [old, outline, get_status_write]
        exact consistent
  | transmit _ here transmits =>
      have other : _ ≠ controlIndex := fun control => absurd (here.1.symm.trans control) (by decide)
      exact transmits.isConsistent (stored other)
  | store _ other => exact stored other

theorem looked_isConsistent (consistent : uart.IsConsistent) (selection : Selection registers) :
    (uart.looked selection).IsConsistent := by
  unfold looked
  split
  next =>
    refine consistent.withBank (Bank.get_put_of_ne _ (by decide) _) ?_
    rw [Bank.get_put_self]
    exact and_and_eq_zero consistent.status _
  next =>
    split
    next => exact { consistent with }
    next => exact consistent

theorem read_isConsistent (consistent : uart.IsConsistent) (width : Width) (address : UInt32) :
    (uart.read width address).value.2.IsConsistent := by
  have looked := (uart.read_looked width address).2
  split at looked
  next =>
    rw [looked]
    exact consistent
  next selection _ =>
    rw [looked]
    exact looked_isConsistent consistent selection

theorem poll_isConsistent (consistent : uart.IsConsistent) (clock : Clock) :
    (uart.poll clock).value.IsConsistent := by
  have sent : (uart.pollShifter clock).value.IsConsistent := by
    have sends := uart.pollShifter_sends clock
    generalize uart.pollShifter clock = polled at sends ⊢
    cases sends with
    | waits => exact consistent
    | sends => exact { consistent with sending := nofun }
  change ((uart.pollShifter clock).value.pollBreak clock).value.IsConsistent
  generalize (uart.pollShifter clock).value = uart at sent ⊢
  have breaks := uart.pollBreak_breaks clock
  generalize uart.pollBreak clock = polled at breaks ⊢
  cases breaks with
  | waits => exact sent
  | breaks =>
      have idle : IsConsistent { uart with breakDue := none } :=
        { sent with breaking := nofun }
      exact idle.setStatus (by decide)

theorem reset_isConsistent (built : uart.bank.Built) (clock : Clock) :
    (uart.reset clock).1.IsConsistent := by
  have clear : (uart.reset clock).1.bank = Bank.initial registers :=
    Bank.reset_eq_initial built.resets
  refine isConsistent_of_idle rfl rfl ?_
  rw [clear]
  decide

theorem Does.isConsistent {restorable : Snapshot → Prop}
    (does : Does restorable uart clock after later)
    (own : ∀ saved, restorable saved → saved.outline.IsConsistent) (built : uart.bank.Built)
    (consistent : uart.IsConsistent) : after.IsConsistent := by
  cases does with
  | read width address => exact read_isConsistent consistent width address
  | write width address value done =>
      exact write_isConsistent consistent clock width address value _ done
  | poll => exact poll_isConsistent consistent clock
  | reset => exact reset_isConsistent built clock
  | receive byte => exact receive_isConsistent consistent byte
  | setLine high done => exact setLine_isConsistent consistent done
  | restore known done =>
      have held := ((restore_cases uart.capacity uart clock _).2 _ _ _ done).1
      split at held
      next =>
        rw [IsConsistent, held.outline_eq]
        exact own _ known
      next =>
        rw [held]
        exact consistent

end Uart

/-! ## The interrupt controller -/

namespace Interrupt

/-- The vector register stores no bits but those that keep what was written. -/
def IsLatched (vector : UInt32) : Prop := vector &&& ~~~latchBits = 0

instance (vector : UInt32) : Decidable (IsLatched vector) := inferInstanceAs (Decidable (_ = _))

/-- What was saved of the vector register. -/
def Snapshot.stored (saved : Snapshot) : UInt32 := saved.regs.getD vectorIndex.val 0

namespace Controller

variable {controller after : Controller} {saved : Snapshot}

/-- What the vector register stores. -/
def stored (controller : Controller) : UInt32 := controller.bank.get vectorIndex

/-- The vector register stores only what was written to it. -/
def IsConsistent (controller : Controller) : Prop := IsLatched controller.stored

theorem Holds.stored_eq (holds : controller.Holds saved) : controller.stored = saved.stored :=
  Bank.Stores.word holds rfl

theorem holds_snapshot (fits : controller.bank.Fits) : controller.Holds controller.snapshot :=
  Bank.stores_toList fits

/-- Driving the line with the vector register as it was. -/
theorem drive_isConsistent {bank : Bank registers} (consistent : controller.IsConsistent)
    (kept : bank.get vectorIndex = controller.bank.get vectorIndex) :
    (drive { controller with bank }).value.IsConsistent := by
  rw [value_drive]
  change IsLatched (bank.get vectorIndex)
  rw [kept]
  exact consistent

theorem hear_isConsistent (consistent : controller.IsConsistent) (signal : Signal) :
    (controller.hear signal).value.IsConsistent := by
  cases signal with
  | interrupt source => exact drive_isConsistent consistent (Bank.get_set_of_ne _ (by decide) _)
  | _ => exact consistent

theorem hearAll_isConsistent (consistent : controller.IsConsistent) (signals : List Signal) :
    (controller.hearAll signals).value.IsConsistent := by
  induction signals generalizing controller with
  | nil => exact consistent
  | cons signal rest ih => exact ih (hear_isConsistent consistent signal)

theorem write_isConsistent (consistent : controller.IsConsistent) (width : Width)
    (address value : UInt32) : (controller.write width address value).value.IsConsistent := by
  unfold write
  rw [Traced.value_bind, Selection.value_noted]
  split
  next => exact consistent
  next selection _ =>
    dsimp only
    split
    next =>
      have latched : IsConsistent { controller with
          bank := (controller.bank.write selection value).2.set vectorIndex
            ((controller.bank.write selection value).1.new &&& latchBits) } := by
        unfold IsConsistent IsLatched stored Bank.set
        rw [Bank.get_put_self]
        refine and_and_eq_zero ?_ _
        rw [UInt32.and_assoc, UInt32.and_not_self, UInt32.and_zero]
      split
      next => exact drive_isConsistent latched (Bank.get_set_of_ne _ (by decide) _)
      next => exact latched
    next other => exact drive_isConsistent consistent (Bank.get_write_of_ne _ other _)

theorem reset_isConsistent (built : controller.bank.Built) :
    controller.reset.value.IsConsistent := by
  unfold reset
  rw [value_drive, Bank.reset_eq_initial built.resets]
  have clear : (Bank.initial registers).get vectorIndex &&& ~~~latchBits = 0 := by decide
  exact clear

theorem Does.isConsistent {restorable : Snapshot → Prop} (does : Does restorable controller after)
    (own : ∀ saved, restorable saved → IsLatched saved.stored) (built : controller.bank.Built)
    (consistent : controller.IsConsistent) : after.IsConsistent := by
  cases does with
  | read width address =>
      rw [(read_eq_self controller width address).1]
      exact consistent
  | write width address value => exact write_isConsistent consistent width address value
  | hear signals => exact hearAll_isConsistent consistent signals
  | reset => exact reset_isConsistent built
  | @restore saved known =>
      have held := controller.restore_leaves saved
      split at held
      next =>
        rw [IsConsistent, held.stored_eq]
        exact own _ known
      next =>
        rw [held]
        exact consistent

end Controller

end Interrupt

/-! ## Memory transfers -/

namespace Dma

/-- What a channel's control and count registers say, and the units of its transfer and those of
them that it has moved, if it has one. -/
structure Outline where
  control : UInt32
  count : UInt32
  progress : Option (UInt32 × UInt32)
deriving DecidableEq

/-- A channel has a transfer just while the start bit of its control register is set. The units that
it has moved and those that it still counts are all of them. -/
structure Outline.IsConsistent (outline : Outline) : Prop where
  start : outline.progress.isSome = true ↔ outline.control &&& startBit ≠ 0
  balance : ∀ total moved, outline.progress = some (total, moved) →
    moved ≤ total ∧ moved.toNat + outline.count.toNat = total.toNat

theorem Outline.isConsistent_none_iff {control count : UInt32} :
    IsConsistent ⟨control, count, none⟩ ↔ ¬ control &&& startBit ≠ 0 := by
  constructor
  · intro consistent start
    exact absurd (consistent.start.2 start) Bool.false_ne_true
  · intro clear
    exact ⟨iff_of_false Bool.false_ne_true clear, nofun⟩

theorem Outline.isConsistent_some_iff {control count total moved : UInt32} :
    IsConsistent ⟨control, count, some (total, moved)⟩ ↔
      control &&& startBit ≠ 0 ∧ moved ≤ total ∧ moved.toNat + count.toNat = total.toNat := by
  constructor
  · intro consistent
    exact ⟨consistent.start.1 rfl, consistent.balance total moved rfl⟩
  · rintro ⟨start, balance⟩
    constructor
    · exact iff_of_true rfl start
    · rintro _ _ ⟨⟩
      exact balance

instance : (outline : Outline) → Decidable outline.IsConsistent
  | ⟨_, _, none⟩ => decidable_of_iff _ Outline.isConsistent_none_iff.symm
  | ⟨_, _, some (_, _)⟩ => decidable_of_iff _ Outline.isConsistent_some_iff.symm

/-- The saved outline of a channel. -/
def Snapshot.outline (saved : Snapshot) : Outline where
  control := saved.regs.getD controlIndex.val 0
  count := saved.regs.getD countIndex.val 0
  progress := saved.transfer.map fun transfer => (transfer.total, transfer.moved)

/-- Units moved and units left are all units just if the words add up and none is moved beyond
the last. -/
theorem balance_iff {moved count total : UInt32} (within : moved ≤ total) :
    moved.toNat + count.toNat = total.toNat ↔ count + moved = total := by
  have countBound := count.toNat_lt
  have totalBound := total.toNat_lt
  rw [UInt32.le_iff_toNat_le] at within
  rw [← UInt32.toNat_inj, UInt32.toNat_add]
  omega

namespace Channel

/-- The outline of a channel. -/
def outline (channel : Channel) : Outline where
  control := channel.bank.get controlIndex
  count := channel.bank.get countIndex
  progress := channel.transfer.map fun transfer => (transfer.total, transfer.moved)

/-- The channel has a transfer just while its start bit is set, of which all units are counted. -/
def IsConsistent (channel : Channel) : Prop := channel.outline.IsConsistent

variable {channel : Channel} {transfer : Transfer} {saved : Snapshot}

theorem Holds.outline_eq (holds : channel.Holds saved) : channel.outline = saved.outline := by
  rw [outline, Snapshot.outline, holds.transfer, holds.regs.word rfl, holds.regs.word rfl]

theorem holds_snapshot (fits : channel.bank.Fits) (clock : Clock) :
    channel.Holds (channel.snapshot clock) where
  regs := Bank.stores_toList fits
  transfer := by
    rw [snapshot, Option.map_map]
    rfl

/-- A channel without a transfer agrees with its registers just if its start bit is clear. -/
theorem isConsistent_iff_of_idle (idle : channel.transfer = none) :
    channel.IsConsistent ↔ ¬ channel.Shows startBit := by
  rw [IsConsistent, outline, idle]
  exact Outline.isConsistent_none_iff

/-- A channel with a transfer agrees with its registers just if its start bit is set and the units
add up. -/
theorem isConsistent_iff_of_active (active : channel.transfer = some transfer) :
    channel.IsConsistent ↔ channel.Shows startBit ∧ transfer.moved ≤ transfer.total ∧
      channel.bank.get countIndex + transfer.moved = transfer.total := by
  rw [IsConsistent, outline, active]
  refine Outline.isConsistent_some_iff.trans (and_congr_right fun _ => ?_)
  exact and_congr_right fun within => balance_iff within

variable {μ : Type} [Bus μ] {after : Channel} {clock later : Clock} {memory memory' : μ}

/-- Every unit that is moved is one less to be moved, and the last one ends the transfer. -/
theorem advance_isConsistent (consistent : channel.IsConsistent)
    (active : channel.transfer = some transfer) (clock : Clock) (memory : μ) (target : UInt32) :
    (channel.advance clock memory target).value.1.IsConsistent := by
  obtain ⟨start, within, sum⟩ := (isConsistent_iff_of_active active).1 consistent
  obtain ⟨-, -, going, finished⟩ := advance_spec active clock memory target
  obtain ⟨most, balance⟩ := reach_balanced within sum memory target
  generalize channel.reach transfer memory (transfer.outstanding target) = progress at *
  by_cases done : progress.refusal ≠ none ∨ progress.position.moved = transfer.total
  · rw [(finished done).1]
    exact (isConsistent_iff_of_idle rfl).2 (not_start_concluded channel transfer progress)
  · rw [(going done).1]
    refine (isConsistent_iff_of_active rfl).2 ⟨?_, ?_, ?_⟩
    · rw [Shows, get_control_arrive]
      exact start
    · exact most
    · rw [get_count_arrive]
      exact balance

theorem catchUp_isConsistent (consistent : channel.IsConsistent) (clock : Clock) (memory : μ) :
    (channel.catchUp clock memory).value.1.IsConsistent := by
  unfold catchUp
  split
  next => exact consistent
  next active =>
    split
    next => exact consistent
    next => exact advance_isConsistent consistent active clock memory _

/-- A transfer begins with nothing moved, as its start bit shows. -/
theorem begin_isConsistent (start : channel.Shows startBit) (clock : Clock) (memory : μ) :
    (channel.begin clock memory).Ensures fun (after, _, _) => after.IsConsistent := by
  have begun (startedAt : UInt64) (due : Option Deadline) : IsConsistent { channel with
      transfer := some (channel.described (channel.bank.get countIndex) startedAt due) } :=
    (isConsistent_iff_of_active rfl).2 ⟨start, UInt32.zero_le, UInt32.add_zero _⟩
  unfold begin
  refine .bind (.trivial _) fun _ _ => ?_
  split
  next => exact .bind (.trivial _) fun _ _ => .pure (begun _ _)
  next =>
    refine (Run.Ensures.traced _).imp ?_
    rintro _ rfl
    exact advance_isConsistent (begun _ none) rfl clock memory _

theorem start_isConsistent (consistent : channel.IsConsistent) (clock : Clock) (memory : μ)
    (source target count control : UInt32) :
    (channel.start clock memory source target count control).Ensures
      fun (_, after, _, _) => after.IsConsistent := by
  have caughtUp := catchUp_isConsistent consistent clock memory
  unfold start
  refine .bind (.traced _) ?_
  rintro _ rfl
  dsimp only
  split
  next => exact .pure caughtUp
  next =>
    refine .bind (begin_isConsistent ?_ _ _) fun _ begun => .pure begun
    rw [Shows, control_set]
    exact (bits_of_host control).1

/-- A write to the control register of an idle channel. -/
theorem controlled_isConsistent (idle : channel.transfer = none) {change : Change}
    (clear : ¬ change.old &&& startBit ≠ 0) (clock : Clock) (memory : μ) :
    (channel.controlled clock memory change).Ensures fun (after, _, _) => after.IsConsistent := by
  unfold controlled
  dsimp only
  split
  next rises =>
    apply begin_isConsistent
    rw [Shows, Bank.clearBits, control_set, control_set]
    exact (bits_of_rising rises).1
  next stays =>
    apply Run.Ensures.pure
    rw [isConsistent_iff_of_idle, Shows, control_set]
    · exact start_of_staying clear stays
    · exact idle

theorem Writes.isConsistent {width : Width} {address value : UInt32}
    (writes : Writes channel clock memory width address value after later memory')
    (consistent : channel.IsConsistent) : after.IsConsistent := by
  cases writes with
  | missed => exact consistent
  | busy => exact consistent
  | @control selection _ _ _ _ idle here done =>
      have old : (channel.bank.write selection value).1.old = channel.bank.get controlIndex :=
        congrArg channel.bank.get here
      have clear := (isConsistent_iff_of_idle idle).1 consistent
      exact controlled_isConsistent (by exact idle) (old ▸ clear) clock memory _ done
  | store _ idle other =>
      have clear := (isConsistent_iff_of_idle idle).1 consistent
      refine (isConsistent_iff_of_idle (by exact idle)).2 ?_
      rw [Shows, Bank.get_write_of_ne _ other]
      exact clear

theorem write_isConsistent (consistent : channel.IsConsistent) (clock : Clock) (memory : μ)
    (width : Width) (address value : UInt32) :
    (channel.write clock memory width address value).Ensures
      fun (after, _, _) => after.IsConsistent :=
  (channel.write_writes clock memory width address value).imp fun _ writes =>
    writes.isConsistent (catchUp_isConsistent consistent clock memory)

theorem poll_isConsistent (consistent : channel.IsConsistent) (clock : Clock) (memory : μ) :
    (channel.poll clock memory).value.1.IsConsistent := by
  unfold poll
  cases active : channel.transfer with
  | none => exact consistent
  | some transfer =>
      have held (due : Option Deadline) :
          IsConsistent { channel with transfer := some { transfer with due } } := by
        rw [IsConsistent, outline, active] at consistent
        exact consistent
      dsimp only
      split
      next => exact catchUp_isConsistent (held _) clock memory
      next => exact consistent

omit [Bus μ] in
theorem reset_isConsistent (built : channel.bank.Built) (clock : Clock) :
    (channel.reset clock).1.IsConsistent := by
  have clear : (channel.reset clock).1.bank = Bank.initial registers :=
    Bank.reset_eq_initial built.resets
  rw [isConsistent_iff_of_idle rfl, Shows, clear]
  decide

theorem Does.isConsistent {restorable : Snapshot → Prop}
    (does : Does restorable channel clock memory after later memory')
    (own : ∀ saved, restorable saved → saved.outline.IsConsistent) (built : channel.bank.Built)
    (consistent : channel.IsConsistent) : after.IsConsistent := by
  cases does with
  | start source target count control done =>
      exact start_isConsistent consistent clock memory source target count control _ done
  | read width address =>
      rw [(channel.read_eq clock memory width address).1]
      exact catchUp_isConsistent consistent clock memory
  | write width address value done =>
      exact write_isConsistent consistent clock memory width address value _ done
  | poll => exact poll_isConsistent consistent clock memory
  | reset => exact reset_isConsistent built clock
  | restore known done =>
      have held := ((restore_cases channel.cyclesPerUnit channel clock _).2 _ _ _ done).1
      split at held
      next =>
        rw [IsConsistent, held.outline_eq]
        exact own _ known
      next =>
        rw [held]
        exact consistent

end Channel

end Dma

end SocPeripherals
