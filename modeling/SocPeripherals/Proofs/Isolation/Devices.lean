import SocPeripherals.Proofs.Dma.Pieces
import SocPeripherals.Proofs.Late.Heard
import SocPeripherals.Proofs.Timer
import SocPeripherals.Proofs.Uart

/-!
# What a device leaves to the others

A device that is written to places deadlines of its own and drops others of its own; the counter and
the deadlines that others hold are as they were. Timers and serial interfaces ask for no interrupt
in an access, and a channel for none but its own. A read takes from a serial interface what it is
defined to take and lets a channel catch up; apart from that a read changes nothing, nor does a
write that selects no register.
-/

namespace SocPeripherals

/-- No interrupt at all. -/
abbrev Interrupt.noSource : UInt8 → Prop := fun _ => False

namespace Clock

variable {clock middle after : Clock} {held between kept : Multiset Deadline}

/-- Somebody who held some deadlines used the clock at one cycle and holds others now. It waits for
every other deadline as it did. -/
structure Spares (held kept : Multiset Deadline) (clock after : Clock) : Prop where
  now : after.now = clock.now
  others : ∀ deadline, deadline ∉ held → deadline ∉ kept →
    (deadline ∈ after.pending ↔ deadline ∈ clock.pending)

namespace Spares

theorem refl (held : Multiset Deadline) (clock : Clock) : Spares held held clock clock :=
  ⟨rfl, fun _ _ _ => Iff.rfl⟩

/-- One use after another, where what is held in between is held at one of the ends. -/
theorem trans (first : Spares held between clock middle) (second : Spares between kept middle after)
    (through : ∀ deadline ∈ between, deadline ∈ held ∨ deadline ∈ kept) :
    Spares held kept clock after where
  now := second.now.trans first.now
  others deadline unheld unkept := by
    have unknown : deadline ∉ between := fun known =>
      (through deadline known).elim unheld unkept
    exact (second.others deadline unknown unkept).trans (first.others deadline unheld unknown)

/-- The rest of what is held. -/
theorem frame (spares : Spares held kept clock after) (rest : Multiset Deadline) :
    Spares (held + rest) (kept + rest) clock after where
  now := spares.now
  others deadline unheld unkept := by
    rw [Multiset.mem_add, not_or] at unheld unkept
    exact spares.others deadline unheld.1 unkept.1

theorem frame_left (spares : Spares held kept clock after) (rest : Multiset Deadline) :
    Spares (rest + held) (rest + kept) clock after := by
  rw [add_comm rest held, add_comm rest kept]
  exact spares.frame rest

theorem dropAny (clock : Clock) (deadline : Option Deadline) :
    Spares (Deadline.single deadline) 0 clock (clock.dropAny deadline) := by
  cases deadline with
  | none => exact .refl 0 clock
  | some deadline =>
      refine ⟨rfl, fun other unheld _ => ?_⟩
      rw [Deadline.single_some, Multiset.mem_singleton] at unheld
      simp [Clock.dropAny, unheld]

theorem scheduleAt {time : UInt64} {deadline : Deadline}
    (done : clock.scheduleAt time = .ok (deadline, after)) :
    Spares 0 {deadline} clock after where
  now := by
    have serves : Serves 0 0 {deadline} clock after := .scheduleAt done UInt64.zero_le
    exact serves.follows.now
  others other _ unkept := by
    rw [Multiset.mem_singleton] at unkept
    rw [(pending_of_scheduleAt done).1, List.mem_cons, or_iff_right unkept]

end Spares

/-- The use of a clock by somebody who asks for no interrupt but certain ones. -/
structure Minds (own : UInt8 → Prop) (held kept : Multiset Deadline) (clock after : Clock)
    (signals : List Signal) : Prop extends Spares held kept clock after where
  asked : ∀ source ∈ signals.filterMap Signal.interrupt?, own source

namespace Minds

variable {own : UInt8 → Prop} {signals more : List Signal}

theorem ofSpares (spares : Spares held kept clock after)
    (quiet : signals.filterMap Signal.interrupt? = []) :
    Minds own held kept clock after signals :=
  ⟨spares, fun _ asked => absurd (quiet ▸ asked) List.not_mem_nil⟩

theorem trans (first : Minds own held between clock middle signals)
    (second : Minds own between kept middle after more)
    (through : ∀ deadline ∈ between, deadline ∈ held ∨ deadline ∈ kept) :
    Minds own held kept clock after (signals ++ more) where
  toSpares := first.toSpares.trans second.toSpares through
  asked source known := by
    rw [List.filterMap_append, List.mem_append] at known
    exact known.elim (first.asked source) (second.asked source)

/-- What follows remarks. -/
theorem afterRemarks (minds : Minds own held kept clock after more)
    (quiet : signals.filterMap Signal.interrupt? = []) :
    Minds own held kept clock after (signals ++ more) :=
  (ofSpares (.refl held clock) quiet).trans minds fun _ known => .inl known

/-- What remarks follow. -/
theorem beforeRemarks (minds : Minds own held kept clock after signals)
    (quiet : more.filterMap Signal.interrupt? = []) :
    Minds own held kept clock after (signals ++ more) :=
  minds.trans (ofSpares (.refl kept after) quiet) fun _ known => .inr known

theorem quiet (minds : Minds Interrupt.noSource held kept clock after signals) :
    signals.filterMap Signal.interrupt? = [] :=
  List.eq_nil_iff_forall_not_mem.2 minds.asked

end Minds

end Clock

/-- Remarks about an access ask for no interrupt. -/
theorem Selection.noted_quiet (device : String) (table : List Register) (width : Width)
    (address : UInt32) :
    (noted Signal.note device table width address).signals.filterMap Signal.interrupt? = [] := by
  refine List.filterMap_eq_nil_iff.2 fun signal signalled => ?_
  obtain ⟨remark, _, rfl⟩ := List.mem_map.1 signalled
  rfl

/-! ## Timers -/

namespace Timer

theorem place_minds (timer : Timer) (clock : Clock) (begun period : UInt64) :
    (timer.place clock begun period).Tells fun (after, later) =>
      Clock.Minds Interrupt.noSource 0 after.held clock later := by
  refine .bind (.except _) ?_
  rintro ⟨expiry, later⟩ _ ⟨placed, rfl⟩
  exact .pure (.ofSpares (.scheduleAt placed) rfl)

theorem arm_minds (timer : Timer) (clock : Clock) (start : UInt64) :
    (timer.arm clock start).Tells fun (after, later) =>
      Clock.Minds Interrupt.noSource 0 after.held clock later := by
  refine .bind (.except _) ?_
  rintro period _ ⟨-, rfl⟩
  dsimp only
  split
  next =>
    refine .bind (.signal _) ?_
    rintro _ _ rfl
    exact (place_minds timer clock _ period).imp fun _ _ minds => minds.afterRemarks rfl
  next => exact place_minds timer clock _ period

theorem halt_spares (timer : Timer) (clock : Clock) :
    Clock.Spares timer.held (timer.halt clock).1.held clock (timer.halt clock).2 := by
  unfold halt
  split
  next => exact .refl _ clock
  next start expiry running =>
    rw [held_of_running running]
    exact .dropAny clock (some expiry)

theorem controlled_minds (timer : Timer) (clock : Clock) (change : Change) :
    (timer.controlled clock change).Tells fun (after, later) =>
      Clock.Minds Interrupt.noSource timer.held after.held clock later := by
  unfold controlled
  split
  next =>
    refine .bind (.signal _) ?_
    rintro _ _ rfl
    split
    next => exact .pure (.ofSpares (.refl _ clock) rfl)
    next idle =>
      rw [held_eq_zero_iff.2 (Bool.eq_false_iff.2 idle)]
      exact (arm_minds timer clock clock.now).imp fun _ _ minds => minds.afterRemarks rfl
  next =>
    split
    next =>
      refine .bind (.signal _) ?_
      rintro _ _ rfl
      exact .pure (.ofSpares (halt_spares timer clock) rfl)
    next => exact .pure (.ofSpares (.refl _ clock) rfl)

theorem write_minds (timer : Timer) (clock : Clock) (width : Width) (address value : UInt32) :
    (timer.write clock width address value).Tells fun (after, later) =>
      Clock.Minds Interrupt.noSource timer.held after.held clock later := by
  have remarked := Selection.noted_quiet "timer" registers width address
  have stays (bank : Bank registers) :
      Clock.Minds Interrupt.noSource timer.held { timer with bank }.held clock clock [] :=
    .ofSpares (.refl _ clock) rfl
  unfold write
  refine .bind (.traced _) ?_
  rintro _ _ ⟨rfl, rfl⟩
  rw [Selection.value_noted]
  split
  next => exact .pure ((stays timer.bank).afterRemarks remarked)
  next selection _ =>
    dsimp only
    split
    next => exact (controlled_minds _ clock _).imp fun _ _ minds => minds.afterRemarks remarked
    next => exact .pure ((stays _).afterRemarks remarked)

end Timer

/-! ## Serial interfaces -/

namespace Uart

theorem abandonByte_spares (uart : Uart) (clock : Clock) :
    Clock.Spares uart.held (uart.abandonByte clock).1.held clock (uart.abandonByte clock).2 :=
  (Clock.Spares.dropAny clock (uart.shifter.map (·.2))).frame _

theorem abandonBreak_spares (uart : Uart) (clock : Clock) :
    Clock.Spares uart.held (uart.abandonBreak clock).1.held clock (uart.abandonBreak clock).2 :=
  (Clock.Spares.dropAny clock uart.breakDue).frame_left _

theorem abandon_spares (uart : Uart) (clock : Clock) :
    Clock.Spares uart.held (uart.abandon clock).1.held clock (uart.abandon clock).2 :=
  (abandonByte_spares uart clock).trans (abandonBreak_spares _ _) fun _ known =>
    .inl (Multiset.mem_add.2 (.inr ((Multiset.mem_add.1 known).resolve_left
      (Multiset.notMem_zero _))))

theorem timeBreak_spares {uart after : Uart} {clock later : Clock} (idle : uart.breakDue = none)
    (timed : uart.timeBreak clock = .ok (after, later)) :
    Clock.Spares uart.held after.held clock later := by
  obtain ⟨deadline, placed, rfl⟩ := of_timeBreak timed
  rw [held, idle]
  exact (Clock.Spares.scheduleAt placed).frame_left _

theorem transmit_minds (uart : Uart) (clock : Clock) (byte : UInt8) :
    (uart.transmit clock byte).Tells fun (after, later) =>
      Clock.Minds Interrupt.noSource uart.held after.held clock later := by
  have remark (note : Note) : (Run.signal (.note note) >>= fun _ => pure (uart, clock)).Tells
      fun (after, later) => Clock.Minds Interrupt.noSource uart.held after.held clock later := by
    refine .bind (.signal _) ?_
    rintro _ _ rfl
    exact .pure (.ofSpares (.refl _ clock) rfl)
  unfold transmit
  split
  next => exact remark _
  next =>
    split
    next => exact remark _
    next idle =>
      have free : uart.shifter = none := by
        unfold isTransmitting at idle
        simpa using idle
      refine .bind (.except _) ?_
      rintro ⟨deadline, later⟩ _ ⟨placed, rfl⟩
      have spares := (Clock.Spares.scheduleAt placed).frame (Deadline.single uart.breakDue)
      rw [held, free]
      exact .pure (.ofSpares spares rfl)

theorem controlled_minds (uart : Uart) (clock : Clock) (change : Change) :
    (uart.controlled clock change).Tells fun (after, later) =>
      Clock.Minds Interrupt.noSource uart.held after.held clock later := by
  unfold controlled
  split
  next =>
    refine .bind (.signal _) ?_
    rintro _ _ rfl
    exact .pure (.ofSpares (abandon_spares uart clock) rfl)
  next =>
    split
    next =>
      refine (Run.Tells.except _).imp ?_
      rintro ⟨after, later⟩ _ ⟨timed, rfl⟩
      refine .ofSpares ?_ rfl
      refine (abandonBreak_spares uart clock).trans (timeBreak_spares rfl timed) fun _ known => ?_
      exact .inl (Multiset.mem_add.2 (.inl ((Multiset.mem_add.1 known).resolve_right
        (Multiset.notMem_zero _))))
    next => exact .pure (.ofSpares (.refl _ clock) rfl)

theorem write_minds (uart : Uart) (clock : Clock) (width : Width) (address value : UInt32) :
    (uart.write clock width address value).Tells fun (after, later) =>
      Clock.Minds Interrupt.noSource uart.held after.held clock later := by
  have remarked := Selection.noted_quiet "uart" registers width address
  have stays (bank : Bank registers) :
      Clock.Minds Interrupt.noSource uart.held { uart with bank }.held clock clock [] :=
    .ofSpares (.refl _ clock) rfl
  unfold write
  refine .bind (.traced _) ?_
  rintro _ _ ⟨rfl, rfl⟩
  rw [Selection.value_noted]
  split
  next => exact .pure ((stays uart.bank).afterRemarks remarked)
  next selection _ =>
    dsimp only
    split
    next => exact (controlled_minds _ clock _).imp fun _ _ minds => minds.afterRemarks remarked
    next =>
      split
      next => exact (transmit_minds _ clock _).imp fun _ _ minds => minds.afterRemarks remarked
      next => exact .pure ((stays _).afterRemarks remarked)

end Uart

/-! ## Channels -/

namespace Dma.Channel

variable {μ : Type} [Bus μ] {channel : Channel} {transfer : Transfer}

omit [Bus μ] in
theorem held_of_idle (idle : channel.transfer = none) : channel.held = 0 := by
  rw [held, idle]
  rfl

theorem advance_minds (active : channel.transfer = some transfer) (clock : Clock) (memory : μ)
    (target : UInt32) :
    Clock.Minds (· = channel.source) channel.held (channel.advance clock memory target).value.1.held
      clock (channel.advance clock memory target).value.2.1
      (channel.advance clock memory target).signals := by
  constructor
  · have holds : channel.held = Deadline.single transfer.due := by
      rw [held, active]
      rfl
    rw [holds]
    unfold advance
    rw [active]
    dsimp only [Traced.value_bind]
    split
    next => exact .dropAny clock transfer.due
    next =>
      split
      next => exact .dropAny clock transfer.due
      next => exact .refl _ clock
  · intro source asked
    obtain ⟨-, -, going, finished⟩ := advance_spec active clock memory target
    by_cases done : (channel.reach transfer memory (transfer.outstanding target)).refusal ≠ none ∨
        (channel.reach transfer memory (transfer.outstanding target)).position.moved
          = transfer.total
    · rw [(finished done).2] at asked
      exact List.mem_singleton.1 asked
    · rw [(going done).2] at asked
      exact absurd asked List.not_mem_nil

theorem catchUp_minds (channel : Channel) (clock : Clock) (memory : μ) :
    Clock.Minds (· = channel.source) channel.held (channel.catchUp clock memory).value.1.held clock
      (channel.catchUp clock memory).value.2.1 (channel.catchUp clock memory).signals := by
  unfold catchUp
  split
  next => exact .ofSpares (.refl _ clock) rfl
  next active =>
    split
    next => exact .ofSpares (.refl _ clock) rfl
    next => exact advance_minds active clock memory _

theorem begin_minds (channel : Channel) (clock : Clock) (memory : μ) :
    (channel.begin clock memory).Tells fun (after, later, _) =>
      Clock.Minds (· = channel.source) 0 after.held clock later := by
  unfold begin
  refine .bind (.signal _) ?_
  rintro _ _ rfl
  dsimp only
  split
  next =>
    refine .bind (.except _) ?_
    rintro ⟨due, later⟩ _ ⟨placed, rfl⟩
    exact .pure (.ofSpares (.scheduleAt placed) rfl)
  next =>
    refine (Run.Tells.traced _).imp ?_
    rintro _ _ ⟨rfl, rfl⟩
    have active : ({ channel with
        transfer := some (channel.described (channel.bank.get countIndex) clock.now none) }
        : Channel).transfer = _ := rfl
    exact (advance_minds active clock memory _).afterRemarks rfl

theorem controlled_minds (idle : channel.transfer = none) (clock : Clock) (memory : μ)
    (change : Change) :
    (channel.controlled clock memory change).Tells fun (after, later, _) =>
      Clock.Minds (· = channel.source) 0 after.held clock later := by
  unfold controlled
  dsimp only
  split
  next => exact begin_minds _ clock memory
  next =>
    apply Run.Tells.pure
    have free : ∀ bank, held { channel with bank } = 0 := fun _ => held_of_idle idle
    dsimp only
    rw [free]
    exact .ofSpares (.refl _ clock) rfl

/-- What is stored into a channel that has caught up. -/
theorem write_minds (channel : Channel) (clock : Clock) (memory : μ) (width : Width)
    (address value : UInt32) :
    (channel.write clock memory width address value).Tells fun (after, later, _) =>
      Clock.Minds (· = channel.source) channel.held after.held clock later := by
  have caughtUp := catchUp_minds channel clock memory
  have source := (catchUp_step channel clock memory).source
  have remarked := Selection.noted_quiet "dma" registers width address
  unfold write
  refine .bind (.traced _) ?_
  rintro _ _ ⟨rfl, rfl⟩
  generalize (channel.catchUp clock memory).value = reached at *
  obtain ⟨between, middle, memory'⟩ := reached
  dsimp only at *
  refine .bind (.traced _) ?_
  rintro _ _ ⟨rfl, rfl⟩
  rw [Selection.value_noted]
  split
  next =>
    apply Run.Tells.pure
    rw [List.append_nil]
    exact caughtUp.beforeRemarks remarked
  next selection _ =>
    split
    next =>
      refine .bind (.signal _) ?_
      rintro _ _ rfl
      apply Run.Tells.pure
      refine caughtUp.beforeRemarks ?_
      rw [List.filterMap_append, remarked]
      rfl
    next inactive =>
      have idle : between.transfer = none := by
        simpa [isActive] using inactive
      rw [held_of_idle idle] at caughtUp
      split
      next =>
        refine (controlled_minds (by exact idle) middle memory' _).imp ?_
        rintro ⟨after, later, last⟩ signals minds
        rw [source] at minds
        exact caughtUp.trans (minds.afterRemarks remarked) fun deadline known =>
          absurd known (Multiset.notMem_zero deadline)
      next =>
        apply Run.Tells.pure
        have free : ∀ bank, held { between with bank } = 0 := fun _ => held_of_idle idle
        rw [List.append_nil, free]
        exact caughtUp.beforeRemarks remarked

end Dma.Channel

/-- What follows in silence adds no signals. -/
theorem Run.signals_bind_of_ok {α β : Type} {first : Run Signal α} {next : α → Run Signal β}
    {value : α} (done : first.outcome = .ok value) (silent : (next value).signals = []) :
    (first >>= next).signals = first.signals := by
  rw [bind_of_ok done, silent, List.append_nil]

/-! ## Writes to a device that select nothing -/

/-- Lanes that select nothing are remarked about, and nothing is found. -/
theorem Selection.noted_missed {table : List Register} {width : Width} {address : UInt32}
    (missed : find? table width address = none) (device : String) :
    (liftM (noted Signal.note device table width address) :
      Run Signal (Option (Selection table))).outcome = .ok none :=
  congrArg Except.ok missed

theorem Interrupt.Controller.write_missed {width : Width} {address : UInt32}
    (missed : Selection.find? Interrupt.registers width address = none)
    (controller : Interrupt.Controller) (value : UInt32) :
    (controller.write width address value).value = controller := by
  unfold Interrupt.Controller.write
  rw [Traced.value_bind, Selection.value_noted, missed]
  rfl

theorem Timer.write_missed {width : Width} {address : UInt32}
    (missed : Selection.find? Timer.registers width address = none) (timer : Timer) (clock : Clock)
    (value : UInt32) :
    (timer.write clock width address value).outcome = .ok (timer, clock) ∧
      (timer.write clock width address value).signals.filterMap Signal.interrupt? = [] := by
  unfold Timer.write
  rw [Run.bind_of_ok (Selection.noted_missed missed "timer")]
  refine ⟨rfl, (congrArg (List.filterMap _) (List.append_nil _)).trans ?_⟩
  exact Selection.noted_quiet "timer" Timer.registers width address

theorem Uart.write_missed {width : Width} {address : UInt32}
    (missed : Selection.find? Uart.registers width address = none) (uart : Uart) (clock : Clock)
    (value : UInt32) :
    (uart.write clock width address value).outcome = .ok (uart, clock) ∧
      (uart.write clock width address value).signals.filterMap Signal.interrupt? = [] := by
  unfold Uart.write
  rw [Run.bind_of_ok (Selection.noted_missed missed "uart")]
  refine ⟨rfl, (congrArg (List.filterMap _) (List.append_nil _)).trans ?_⟩
  exact Selection.noted_quiet "uart" Uart.registers width address

theorem Dma.Channel.write_missed {μ : Type} [Bus μ] {width : Width} {address : UInt32}
    (missed : Selection.find? Dma.registers width address = none) (channel : Dma.Channel)
    (clock : Clock) (memory : μ) (value : UInt32) :
    (channel.write clock memory width address value).outcome
        = .ok (channel.catchUp clock memory).value ∧
      ∃ remarks, remarks.filterMap Signal.interrupt? = [] ∧
        (channel.write clock memory width address value).signals
          = (channel.catchUp clock memory).signals ++ remarks := by
  have caughtUp : (liftM (channel.catchUp clock memory) :
      Run Signal (Dma.Channel × Clock × μ)).outcome
        = .ok (channel.catchUp clock memory).value := rfl
  unfold Dma.Channel.write
  rw [Run.bind_of_ok caughtUp]
  dsimp only
  rw [Run.bind_of_ok (Selection.noted_missed missed "dma")]
  refine ⟨rfl, _, ?_, congrArg _ (List.append_nil _)⟩
  exact Selection.noted_quiet "dma" Dma.registers width address

/-! ## Reads of a device -/

/-- A read that clears nothing changes nothing. -/
theorem Bank.read_eq_self {table : List Register} (bank : Bank table) {selection : Selection table}
    (keeps : ∀ bits, selection.register.access ≠ .clearOnRead bits) :
    (bank.read selection).2 = bank := by
  unfold Bank.read
  split
  next => rfl
  next bits clears => exact absurd clears (keeps bits)
  all_goals rfl

namespace Timer

/-- A read of a timer changes nothing. -/
theorem read_eq (timer : Timer) (clock : Clock) (width : Width) (address : UInt32) :
    (timer.read clock width address).value.2 = timer ∧
      (timer.read clock width address).signals.filterMap Signal.interrupt? = [] ∧
      (Selection.find? registers width address = none →
        (timer.read clock width address).value.1 = 0) := by
  have remarked := Selection.noted_quiet "timer" registers width address
  unfold read
  rw [Traced.value_bind, Traced.signals_bind, List.filterMap_append, remarked,
    Selection.value_noted]
  cases Selection.find? registers width address with
  | none => exact ⟨rfl, rfl, fun _ => rfl⟩
  | some selection =>
      have keeps : (timer.bank.read selection).2 = timer.bank := by
        refine timer.bank.read_eq_self fun bits => ?_
        have access : ∀ index : Fin registers.length,
            (registers.get index).access = .readWrite := by
          decide
        rw [Selection.register, access]
        nofun
      dsimp only
      rw [keeps]
      split
      next => exact ⟨rfl, rfl, nofun⟩
      next => exact ⟨rfl, rfl, nofun⟩

end Timer

namespace Uart

/-- What a read of lanes of a register leaves: the status bits that are seen are cleared, and the
lowest byte of the receive register takes the oldest received byte. -/
def looked (uart : Uart) (selection : Selection registers) : Uart :=
  if selection.index = statusIndex then
    { uart with
      bank := uart.bank.put statusIndex
        (uart.bank.get statusIndex &&& ~~~((overrunBit ||| breakBit) &&& selection.lane.mask)) }
  else if selection.index = receiveIndex ∧ selection.lane.touches dataBits then
    { uart with received := uart.received.tail }
  else uart

theorem takeReceived_tail (uart : Uart) :
    uart.takeReceived.2 = { uart with received := uart.received.tail } := by
  unfold takeReceived
  split
  next none =>
    obtain ⟨index, source, capacity, bank, received, shifter, lineLow, breakDue⟩ := uart
    cases none
    rfl
  next byte rest waiting =>
    rw [waiting]
    rfl

/-- Only the status register clears what is read of it. -/
theorem read_bank (bank : Bank registers) (selection : Selection registers) :
    (bank.read selection).2
      = if selection.index = statusIndex then
          bank.put statusIndex
            (bank.get statusIndex &&& ~~~((overrunBit ||| breakBit) &&& selection.lane.mask))
        else bank := by
  split
  next status =>
    obtain ⟨index, lane⟩ := selection
    cases status
    rfl
  next other =>
    have access : ∀ index : Fin registers.length, index ≠ statusIndex →
        (registers.get index).access = .readWrite ∨ (registers.get index).access = .writeOnly ∨
          (registers.get index).access = .readOnly := by
      decide
    refine bank.read_eq_self fun bits => ?_
    unfold Selection.register
    rcases access selection.index other with rule | rule | rule <;> rw [rule] <;> nofun

theorem read_looked (uart : Uart) (width : Width) (address : UInt32) :
    (uart.read width address).signals.filterMap Signal.interrupt? = [] ∧
      match Selection.find? registers width address with
      | none => (uart.read width address).value = (0, uart)
      | some selection => (uart.read width address).value.2 = uart.looked selection := by
  have remarked := Selection.noted_quiet "uart" registers width address
  unfold read
  rw [Traced.value_bind, Traced.signals_bind, List.filterMap_append, remarked,
    Selection.value_noted]
  cases Selection.find? registers width address with
  | none => exact ⟨rfl, rfl⟩
  | some selection =>
      constructor
      · dsimp only
        split
        next => split <;> rfl
        next => rfl
      · have apart : receiveIndex ≠ statusIndex := by decide
        dsimp only
        unfold looked
        by_cases receive : selection.index = receiveIndex
        · have other : selection.index ≠ statusIndex := by
            rw [receive]
            exact apart
          rw [if_pos receive, if_neg other]
          by_cases touches : selection.lane.touches dataBits
          · rw [if_pos touches, if_pos ⟨receive, touches⟩, ← takeReceived_tail]
            rfl
          · rw [if_neg touches, if_neg fun ⟨_, touched⟩ => touches touched]
            rfl
        · rw [if_neg receive, read_bank]
          by_cases status : selection.index = statusIndex
          · simp only [if_pos status]
            rfl
          · simp only [if_neg status, if_neg fun seen : _ ∧ _ => receive seen.1]
            rfl

end Uart

/-- A read of a channel does what the channel has fallen behind with, and nothing else. -/
theorem Dma.Channel.read_eq {μ : Type} [Bus μ] (channel : Dma.Channel) (clock : Clock) (memory : μ)
    (width : Width) (address : UInt32) :
    (channel.read clock memory width address).value.2 = (channel.catchUp clock memory).value ∧
      (∃ remarks, remarks.filterMap Signal.interrupt? = [] ∧
        (channel.read clock memory width address).signals
          = (channel.catchUp clock memory).signals ++ remarks) ∧
      (Selection.find? Dma.registers width address = none →
        (channel.read clock memory width address).value.1 = 0) := by
  have remarked := Selection.noted_quiet "dma" Dma.registers width address
  unfold read
  dsimp only [Traced.value_bind, Traced.signals_bind]
  rw [Selection.value_noted]
  cases Selection.find? Dma.registers width address with
  | none => exact ⟨rfl, ⟨_, remarked, congrArg _ (List.append_nil _)⟩, fun _ => rfl⟩
  | some selection =>
      dsimp only
      rw [Registers.read_eq]
      exact ⟨rfl, ⟨_, remarked, congrArg _ (List.append_nil _)⟩, nofun⟩

/-! ## The controller -/

namespace Interrupt.Controller

/-- Asking twice for an interrupt is asking once. -/
theorem post_post (controller : Controller) (source : UInt8) :
    ((controller.post source).value.post source).value = (controller.post source).value := by
  have posted (controller : Controller) :
      (controller.post source).value = controller.raised (sourceBit source) :=
    value_drive _
  rw [posted, posted, raised_raised, UInt32.or_self]

/-- The controller after a device that asks for no interrupt but one. -/
theorem hearAll_of_asked (controller : Controller) {source : UInt8} {signals : List Signal}
    (asked : ∀ other ∈ signals.filterMap Signal.interrupt?, other = source) :
    (controller.hearAll signals).value
      = if signals.filterMap Signal.interrupt? = [] then controller
        else (controller.post source).value := by
  induction signals generalizing controller with
  | nil => rfl
  | cons signal rest ih =>
      rw [hearAll, Traced.value_bind]
      cases signal with
      | interrupt other =>
          obtain rfl : other = source := asked other List.mem_cons_self
          have more := ih (controller.post other).value fun other listed =>
            asked other (List.mem_cons_of_mem _ listed)
          rw [post_post, ite_self] at more
          exact more
      | note remark => exact ih controller asked
      | transmit uart byte => exact ih controller asked
      | host call => exact ih controller asked

theorem hearAll_of_quiet (controller : Controller) {signals : List Signal}
    (quiet : signals.filterMap Signal.interrupt? = []) :
    (controller.hearAll signals).value = controller := by
  have heard := @hearAll_of_asked controller 0 signals (by simp [quiet])
  rwa [if_pos quiet] at heard

variable {α : Type}

theorem relay_of_ok (controller : Controller) {run : Run Signal α} {answer : α}
    (done : run.outcome = .ok answer) :
    (controller.relay run).outcome = .ok (answer, (controller.hearAll run.signals).value) := by
  unfold relay
  rw [done]
  rfl

/-- A read changes nothing. -/
theorem read_eq_self (controller : Controller) (width : Width) (address : UInt32) :
    (controller.read width address).value.2 = controller ∧
      (Selection.find? registers width address = none →
        (controller.read width address).value.1 = 0) := by
  unfold read
  rw [Traced.value_bind, Selection.value_noted]
  cases Selection.find? registers width address with
  | none => exact ⟨rfl, fun _ => rfl⟩
  | some selection =>
      dsimp only
      rw [read_eq]
      split
      next => exact ⟨rfl, nofun⟩
      next => exact ⟨rfl, nofun⟩

end Interrupt.Controller

end SocPeripherals
