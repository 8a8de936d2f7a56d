import SocPeripherals.Dma.Channel
import SocPeripherals.Device
import SocPeripherals.Proofs.Clock.Service
import SocPeripherals.Proofs.Register
import SocPeripherals.Proofs.Run

/-!
# What a direct memory access channel does

A channel holds the deadline of its transfer. `Step` says once what any of its operations may do
to it and to its clock. The units that a transfer moves are of the control word that stays in its
register until the transfer ends.
-/

namespace SocPeripherals

namespace Transfer

theorem outstanding_eq (transfer : Transfer) (target : UInt32) :
    transfer.outstanding target
      = min target.toNat transfer.total.toNat - transfer.moved.toNat := by
  change (if target ≤ transfer.total then target else transfer.total).toNat - _ = _
  split
  next le => rw [Nat.min_eq_left (UInt32.le_iff_toNat_le.1 le)]
  next gt =>
    rw [UInt32.not_le, UInt32.lt_iff_toNat_lt] at gt
    rw [Nat.min_eq_right gt.le]

variable {μ : Type} [Bus μ]

theorem moved_moveUnit (transfer : Transfer) (position : Position) (memory : μ)
    (calls : List BusCall) :
    ((transfer.moveUnit position memory calls).refusal = none ∧
      (transfer.moveUnit position memory calls).position = transfer.advance position) ∨
    ((transfer.moveUnit position memory calls).refusal ≠ none ∧
      (transfer.moveUnit position memory calls).position = position) := by
  unfold moveUnit
  dsimp only
  split
  next refusal _ => exact .inr ⟨by simp, rfl⟩
  next value _ =>
    split
    next refusal _ => exact .inr ⟨by simp, rfl⟩
    next => exact .inl ⟨rfl, rfl⟩

/-- As many units are moved as the memory takes, all of them exactly if it refuses none. -/
theorem moved_moveUnits (transfer : Transfer) (count : Nat) (position : Position) (memory : μ)
    (calls : List BusCall) :
    ∃ taken ≤ count, (transfer.moveUnits count position memory calls).position.moved
        = position.moved + UInt32.ofNat taken ∧
      ((transfer.moveUnits count position memory calls).refusal = none ↔ taken = count) := by
  induction count generalizing position memory calls with
  | zero => exact ⟨0, le_rfl, by simp [moveUnits], iff_of_true rfl rfl⟩
  | succ count ih =>
      rw [moveUnits]
      rcases moved_moveUnit transfer position memory calls with ⟨going, here⟩ | ⟨refused, here⟩
      · obtain ⟨taken, bound, there, all⟩ := ih (transfer.advance position)
          (transfer.moveUnit position memory calls).memory
          (transfer.moveUnit position memory calls).calls
        refine ⟨taken + 1, Nat.succ_le_succ bound, ?_, ?_⟩
        · simp only [going, here]
          rw [there, UInt32.ofNat_add, advance]
          grind
        · simp only [going, here]
          exact all.trans Nat.succ_inj.symm
      · obtain ⟨refusal, refusing⟩ := Option.ne_none_iff_exists'.1 refused
        exact ⟨0, Nat.zero_le _, by simp [refusing, here], by simp [refusing]⟩

end Transfer

namespace Dma

theorem Registers.read_eq (bank : Bank registers) (selection : Selection registers) :
    (bank.read selection).2 = bank := by
  have access : ∀ index : Fin registers.length, (registers.get index).access = .readWrite := by
    decide
  unfold Bank.read Selection.register
  rw [access]

namespace Channel

variable {μ : Type} [Bus μ] {channel between after : Channel} {clock middle later : Clock}
  {memory : μ} {least : UInt64} {transfer : Transfer}

/-- The deadline that the channel holds. -/
def held (channel : Channel) : Multiset Deadline :=
  Deadline.single (channel.transfer.bind (·.due))

omit [Bus μ] in
theorem mem_held {deadline : Deadline} : deadline ∈ channel.held ↔
    ∃ transfer ∈ channel.transfer, transfer.due = some deadline := by
  rw [held, Deadline.mem_single, Option.mem_def, Option.bind_eq_some_iff]
  rfl

/-- The cycles that a transfer of so many units takes. -/
def duration (channel : Channel) (total : UInt32) : UInt64 :=
  boundedProduct total.toUInt64 channel.cyclesPerUnit

/-- The transfer is one of the channel's control word that takes its time. -/
structure Performs (channel : Channel) (transfer : Transfer) : Prop where
  timed : channel.cyclesPerUnit ≠ 0
  unit : transfer.unit = unitOf (channel.bank.get controlIndex)
  sourceStep : transfer.sourceStep = stepOf (channel.bank.get controlIndex) holdSourceBit
  targetStep : transfer.targetStep = stepOf (channel.bank.get controlIndex) holdTargetBit
  moved : transfer.moved ≤ transfer.total
  short : channel.duration transfer.total < Clock.horizon

/-- A transfer under way is one that the channel performs. -/
def IsSound (channel : Channel) : Prop :=
  ∀ transfer ∈ channel.transfer, channel.Performs transfer

/-- The deadline of the transfer is where it should be, and has not been missed by half of the
counter. -/
def Regular (channel : Channel) (clock : Clock) (transfer : Transfer) : Prop :=
  ∃ due, transfer.due = some due ∧
    due.time = transfer.startedAt + channel.duration transfer.total ∧
    (clock.now - transfer.startedAt).toNat
      < (channel.duration transfer.total).toNat + Clock.horizon.toNat

/-- The channel's transfer has the deadline that it should have. -/
def IsRegular (channel : Channel) (clock : Clock) : Prop :=
  ∀ transfer ∈ channel.transfer, channel.Regular clock transfer

/-- A deadline that is still awaited is where it should be. -/
def IsPunctual (channel : Channel) (clock : Clock) : Prop :=
  ∀ transfer ∈ channel.transfer, ∀ due ∈ transfer.due, clock.Awaits due →
    due.time = transfer.startedAt + channel.duration transfer.total ∧
      clock.now - transfer.startedAt < channel.duration transfer.total

omit [Bus μ] in
/-- Before its deadline a regular transfer has not lasted its time. -/
theorem Regular.elapsed_lt {due : Deadline} (regular : channel.Regular clock transfer)
    (brief : channel.duration transfer.total < Clock.horizon) (timed : transfer.due = some due)
    (near : 0 < clock.distance due.time ∧ clock.distance due.time < Clock.horizon) :
    clock.now - transfer.startedAt < channel.duration transfer.total := by
  obtain ⟨_, same, time, recent⟩ := regular
  cases timed.symm.trans same
  have left : clock.distance due.time
      = channel.duration transfer.total - (clock.now - transfer.startedAt) := by
    rw [Clock.distance, time]
    grind
  have limit : Clock.horizon.toNat = 0x7fffffffffffffff := rfl
  rw [left] at near
  simp only [UInt64.lt_iff_toNat_lt, UInt64.toNat_sub _ (clock.now - transfer.startedAt), limit,
    UInt64.toNat_zero] at *
  omega

/-- What becomes of a channel and its transfer. -/
structure Evolves (least : UInt64) (channel : Channel) (clock : Clock) (after : Channel)
    (later : Clock) : Prop where
  index : after.index = channel.index
  source : after.source = channel.source
  cyclesPerUnit : after.cyclesPerUnit = channel.cyclesPerUnit
  resets : after.bank.resets = channel.bank.resets
  fits : channel.bank.Fits → after.bank.Fits
  sound : channel.IsSound → after.IsSound
  regular : 0 < least → channel.IsSound → channel.IsRegular clock → after.IsRegular later
  punctual : (∀ deadline ∈ channel.held, deadline.serial < clock.issued) →
    channel.IsPunctual clock → after.IsPunctual later

/-- What an operation does to a channel and its clock. -/
structure Step (least : UInt64) (channel : Channel) (clock : Clock) (after : Channel)
    (later : Clock) : Prop extends Evolves least channel clock after later where
  serves : Clock.Serves least channel.held after.held clock later

omit [Bus μ] in
theorem IsRegular.still (regular : channel.IsRegular clock) (now : later.now = clock.now) :
    channel.IsRegular later := by
  intro transfer active
  obtain ⟨due, timed, time, recent⟩ := regular transfer active
  exact ⟨due, timed, time, by rwa [now]⟩

/-- A channel while somebody else uses the clock. -/
theorem Evolves.still (channel : Channel) (follows : Clock.Follows least clock later) :
    Evolves least channel clock channel later where
  index := rfl
  source := rfl
  cyclesPerUnit := rfl
  resets := rfl
  fits := id
  sound := id
  regular _ _ regular := regular.still follows.now
  punctual issued punctual transfer active due timed awaits := by
    have known : due ∈ channel.held := mem_held.2 ⟨transfer, active, timed⟩
    rw [follows.now]
    exact punctual transfer active due timed (follows.awaits (issued due known) awaits)

theorem Step.trans (first : Step least channel clock between middle)
    (second : Step least between middle after later) : Step least channel clock after later where
  index := second.index.trans first.index
  source := second.source.trans first.source
  cyclesPerUnit := second.cyclesPerUnit.trans first.cyclesPerUnit
  resets := second.resets.trans first.resets
  fits fits := second.fits (first.fits fits)
  sound sound := second.sound (first.sound sound)
  regular positive sound regular :=
    second.regular positive (first.sound sound) (first.regular positive sound regular)
  punctual issued punctual :=
    second.punctual (first.serves.issued issued) (first.punctual issued punctual)
  serves := first.serves.trans second.serves

theorem Step.refl (least : UInt64) (channel : Channel) (clock : Clock) :
    Step least channel clock channel clock where
  toEvolves := .still channel (.refl least clock)
  serves := .refl least _ clock

/-- An operation that only stores into the registers of an idle channel. -/
theorem Step.ofBank (least : UInt64) (clock : Clock) (idle : channel.transfer = none)
    (bank : Bank registers) (resets : bank.resets = channel.bank.resets)
    (fits : channel.bank.Fits → bank.Fits) : Step least channel clock { channel with bank } clock :=
  { Step.refl least channel clock with
    resets := resets
    fits := fits
    sound := fun _ transfer active => absurd active (by simp [idle])
    regular := fun _ _ _ transfer active => absurd active (by simp [idle])
    punctual := fun _ _ transfer active => absurd active (by simp [idle]) }

/-! ## Moving units -/

theorem get_control_arrive (channel : Channel) (transfer : Transfer)
    (position : Transfer.Position) :
    (channel.arrive transfer position).bank.get controlIndex = channel.bank.get controlIndex := by
  unfold arrive Bank.set
  rw [Bank.get_put_of_ne _ (by decide), Bank.get_put_of_ne _ (by decide),
    Bank.get_put_of_ne _ (by decide)]

theorem arrive_step (least : UInt64) (clock : Clock) (active : channel.transfer = some transfer)
    (position : Transfer.Position)
    (bounded : transfer.moved ≤ transfer.total → position.moved ≤ transfer.total) :
    Step least channel clock (channel.arrive transfer position) clock where
  serves := by
    have same : (channel.arrive transfer position).held = channel.held := by
      rw [held, held, active]
      rfl
    rw [same]
    exact .refl least _ clock
  index := rfl
  source := rfl
  cyclesPerUnit := rfl
  resets := rfl
  fits fits := ((fits.set sourceIndex _).set targetIndex _).set countIndex _
  sound sound := by
    rintro _ ⟨⟩
    obtain ⟨timed, unit, sourceStep, targetStep, moved, short⟩ := sound transfer active
    refine ⟨timed, ?_, ?_, ?_, bounded moved, short⟩
    · rw [get_control_arrive]
      exact unit
    · rw [get_control_arrive]
      exact sourceStep
    · rw [get_control_arrive]
      exact targetStep
  regular _ _ regular := by
    rintro _ ⟨⟩
    exact regular transfer active
  punctual _ punctual := by
    rintro _ ⟨⟩
    exact punctual transfer active

theorem finish_step (least : UInt64) (channel : Channel) (clock : Clock) (failed : Bool) :
    Step least channel clock (channel.finish clock failed).value.1
        (channel.finish clock failed).value.2 ∧
      (channel.finish clock failed).value.1.transfer = none := by
  refine ⟨⟨⟨rfl, rfl, rfl, ?_, fun fits => ?_, ?_, ?_, ?_⟩, .dropAny least clock _⟩, rfl⟩
  · unfold finish
    dsimp only
    split <;> rfl
  · have cleared := fits.clearBits controlIndex startBit
    unfold finish
    dsimp only
    split
    next => exact cleared.setBits controlIndex errorBit
    next => exact cleared.set countIndex 0
  · intro _ transfer active
    contradiction
  · intro _ _ _ transfer active
    contradiction
  · intro _ _ transfer active
    contradiction

theorem toNat_add_taken {target : UInt32} {taken : Nat} (moved : transfer.moved ≤ transfer.total)
    (bound : taken ≤ transfer.outstanding target) :
    (transfer.moved + UInt32.ofNat taken).toNat = transfer.moved.toNat + taken ∧
      transfer.moved.toNat + taken ≤ transfer.total.toNat := by
  have small := transfer.total.toNat_lt
  rw [UInt32.le_iff_toNat_le] at moved
  rw [Transfer.outstanding_eq] at bound
  have fits : taken < UInt32.size := by
    simp only [UInt32.size]
    omega
  rw [UInt32.toNat_add, UInt32.toNat_ofNat_of_lt' fits]
  omega

/-- Moving units keeps to the transfer. One that has all its units due, or is refused some, is
over. -/
theorem advance_step (active : channel.transfer = some transfer) (clock : Clock) (memory : μ)
    (target : UInt32) :
    Step 1 channel clock (channel.advance clock memory target).value.1
        (channel.advance clock memory target).value.2.1 ∧
      (transfer.moved ≤ transfer.total → transfer.total ≤ target →
        (channel.advance clock memory target).value.1.transfer = none) := by
  obtain ⟨taken, bound, there, all⟩ := transfer.moved_moveUnits (transfer.outstanding target)
    (channel.position transfer) memory []
  have arriving := arrive_step 1 clock active
    (transfer.moveUnits (transfer.outstanding target) (channel.position transfer)
      memory []).position fun moved => by
        rw [there, UInt32.le_iff_toNat_le]
        obtain ⟨sum, most⟩ := toNat_add_taken moved bound
        exact sum ▸ most
  unfold advance
  rw [active]
  dsimp only [Traced.value_bind]
  split
  next refusal _ =>
    obtain ⟨step, finished⟩ := finish_step 1 (channel.arrive transfer _) clock true
    exact ⟨arriving.trans step, fun _ _ => finished⟩
  next none =>
    split
    next =>
      obtain ⟨step, finished⟩ := finish_step 1 (channel.arrive transfer _) clock false
      exact ⟨arriving.trans step, fun _ _ => finished⟩
    next short =>
      refine ⟨arriving, fun moved due => absurd ?_ short⟩
      obtain ⟨sum, _⟩ := toNat_add_taken moved bound
      rw [there, ← UInt32.toNat_inj]
      change (transfer.moved + UInt32.ofNat taken).toNat = _
      rw [sum, all.1 none, Transfer.outstanding_eq, Nat.min_eq_right (UInt32.le_iff_toNat_le.1 due)]
      exact Nat.add_sub_cancel' (UInt32.le_iff_toNat_le.1 moved)

theorem catchUp_step (channel : Channel) (clock : Clock) (memory : μ) :
    Step 1 channel clock (channel.catchUp clock memory).value.1
      (channel.catchUp clock memory).value.2.1 := by
  unfold catchUp
  split
  next => exact .refl 1 channel clock
  next active =>
    split
    next => exact .refl 1 channel clock
    next => exact (advance_step active clock memory _).1

/-! ## Operations -/

theorem boundedProduct_of_lt {first second : UInt64}
    (short : boundedProduct first second < Clock.horizon) :
    (boundedProduct first second).toNat = first.toNat * second.toNat := by
  unfold boundedProduct at *
  split
  next fits => rw [UInt64.toNat_mul, Nat.mod_eq_of_lt fits]
  next large =>
    rw [if_neg large] at short
    exact absurd short (by decide)

omit [Bus μ] in
theorem Performs.toNat_duration (performs : channel.Performs transfer) :
    (channel.duration transfer.total).toNat
      = transfer.total.toNat * channel.cyclesPerUnit.toNat := by
  rw [duration, boundedProduct_of_lt performs.short, UInt32.toNat_toUInt64]

omit [Bus μ] in
/-- The time of a transfer is that of its units, less than a deadline can be placed ahead. -/
theorem Performs.duration_eq (performs : channel.Performs transfer) :
    channel.duration transfer.total = transfer.total.toUInt64 * channel.cyclesPerUnit ∧
      transfer.total.toNat * channel.cyclesPerUnit.toNat < Clock.horizon.toNat := by
  have short := UInt64.lt_iff_toNat_lt.1 performs.short
  have small : Clock.horizon.toNat < UInt64.size := by decide
  rw [performs.toNat_duration] at short
  refine ⟨UInt64.toNat_inj.1 ?_, short⟩
  rw [performs.toNat_duration, UInt64.toNat_mul, UInt32.toNat_toUInt64,
    Nat.mod_eq_of_lt (short.trans small)]

theorem short_of_scheduleIn {cycles : UInt64} {deadline : Deadline}
    (placed : clock.scheduleIn cycles = .ok (deadline, later)) : cycles < Clock.horizon := by
  unfold Clock.scheduleIn Clock.scheduleAt at placed
  split at placed
  next near => rwa [Clock.distance_add] at near
  next => contradiction

theorem one_le_boundedProduct {first second : UInt64} (left : first ≠ 0) (right : second ≠ 0) :
    1 ≤ boundedProduct first second := by
  rw [ne_eq, ← UInt64.toNat_inj, UInt64.toNat_zero] at left right
  have positive := Nat.mul_pos (Nat.pos_of_ne_zero left) (Nat.pos_of_ne_zero right)
  unfold boundedProduct
  split
  next fits =>
    rw [UInt64.le_iff_toNat_le, UInt64.toNat_mul, Nat.mod_eq_of_lt fits]
    exact positive
  next => decide

/-- A transfer that begins has its deadline ahead, or is over at once. -/
theorem begin_step (idle : channel.transfer = none) (clock : Clock) (memory : μ) :
    (channel.begin clock memory).Ensures fun (after, later, _) =>
      Step 1 channel clock after later := by
  have free : channel.held = 0 := by rw [held, idle]; rfl
  unfold begin
  dsimp only
  refine .bind (.trivial _) fun _ _ => ?_
  split
  next takesTime =>
    refine .bind (.except _) ?_
    rintro ⟨due, later⟩ placed
    have short := short_of_scheduleIn placed
    have far : 1 ≤ boundedProduct (channel.bank.get countIndex).toUInt64 channel.cyclesPerUnit := by
      refine one_le_boundedProduct ?_ takesTime.1
      have some := takesTime.2
      rw [ne_eq, ← UInt64.toNat_inj, UInt32.toNat_toUInt64]
      rwa [ne_eq, ← UInt32.toNat_inj] at some
    have serves := Clock.Serves.scheduleIn placed far
    have time : due.time = later.now + channel.duration (channel.bank.get countIndex) := by
      rw [(Clock.pending_of_scheduleAt placed).2, ← serves.follows.now]
      rfl
    refine .pure { Step.refl 1 channel clock with
      serves := free ▸ serves, sound := ?_, regular := ?_, punctual := ?_ }
    · rintro _ _ ⟨⟩
      exact ⟨takesTime.1, rfl, rfl, rfl, UInt32.zero_le, short⟩
    · rintro _ _ _ _ ⟨⟩
      refine ⟨due, rfl, time, ?_⟩
      change (later.now - later.now).toNat < _
      rw [UInt64.sub_self]
      exact Nat.add_pos_right _ (by decide)
    · rintro _ _ _ ⟨⟩ _ ⟨⟩ _
      refine ⟨time, ?_⟩
      change later.now - later.now < channel.duration (channel.bank.get countIndex)
      rw [UInt64.sub_self]
      exact UInt64.lt_of_lt_of_le (by decide) far
  next =>
    refine (Run.Ensures.traced _).imp ?_
    rintro _ rfl
    have active : ({ channel with
        transfer := some (channel.described (channel.bank.get countIndex) clock.now none) }
        : Channel).transfer = _ := rfl
    obtain ⟨step, finished⟩ := advance_step active clock memory (channel.bank.get countIndex)
    have ended := finished UInt32.zero_le (UInt32.le_refl _)
    exact { step with
      serves := free ▸ step.serves
      sound := fun _ transfer active => absurd active (by simp [ended])
      regular := fun _ _ _ transfer active => absurd active (by simp [ended])
      punctual := fun _ _ transfer active => absurd active (by simp [ended]) }

theorem start_step (channel : Channel) (clock : Clock) (memory : μ)
    (source target count control : UInt32) :
    (channel.start clock memory source target count control).Ensures fun (_, after, later, _) =>
      Step 1 channel clock after later := by
  have caughtUp := catchUp_step channel clock memory
  unfold start
  refine .bind (.traced _) ?_
  rintro _ rfl
  dsimp only
  split
  next => exact .pure caughtUp
  next inactive =>
    have idle : (channel.catchUp clock memory).value.1.transfer = none := by
      simpa [isActive] using inactive
    have stored := Step.ofBank 1 (channel.catchUp clock memory).value.2.1 idle _ (by rfl) fun fits =>
      (((fits.set sourceIndex source).set targetIndex target).set countIndex count).set
        controlIndex ((control ||| startBit) &&& ~~~errorBit)
    refine .bind (begin_step (by exact idle) _ _) ?_
    rintro ⟨after, later, memory'⟩ step
    exact .pure (caughtUp.trans (stored.trans step))

theorem read_step (channel : Channel) (clock : Clock) (memory : μ) (width : Width)
    (address : UInt32) :
    Step 1 channel clock (channel.read clock memory width address).value.2.1
      (channel.read clock memory width address).value.2.2.1 := by
  have caughtUp := catchUp_step channel clock memory
  unfold read
  dsimp only [Traced.value_bind]
  rw [Selection.value_noted]
  split
  next => exact caughtUp
  next selection _ =>
    rw [Registers.read_eq]
    exact caughtUp

theorem controlled_step (idle : channel.transfer = none) (clock : Clock) (memory : μ)
    (change : Change) :
    (channel.controlled clock memory change).Ensures fun (after, later, _) =>
      Step 1 channel clock after later := by
  unfold controlled
  dsimp only
  have stored : Step 1 channel clock { channel with
      bank := channel.bank.set controlIndex
        ((change.new &&& ~~~errorBit) ||| (change.old &&& errorBit)) } clock :=
    .ofBank 1 clock idle _ rfl fun fits => fits.set controlIndex _
  split
  next =>
    have cleared := stored.trans
      (.ofBank 1 clock (by exact idle) _ (by rfl) fun fits => fits.clearBits controlIndex errorBit)
    refine (begin_step (by exact idle) clock memory).imp ?_
    rintro ⟨after, later, memory'⟩ step
    exact cleared.trans step
  next => exact .pure stored

/-- What a write leaves of a channel that has caught up, of its clock and of its memory. -/
inductive Writes (channel : Channel) (clock : Clock) (memory : μ) (width : Width)
    (address value : UInt32) : Channel → Clock → μ → Prop where
  | missed (none : Selection.find? registers width address = none) :
      Writes channel clock memory width address value channel clock memory
  | busy (active : channel.isActive = true) :
      Writes channel clock memory width address value channel clock memory
  | control {selection : Selection registers} {after : Channel} {later : Clock} {memory' : μ}
      (found : Selection.find? registers width address = some selection)
      (idle : channel.transfer = none) (here : selection.index = controlIndex)
      (done : (Channel.controlled { channel with bank := (channel.bank.write selection value).2 }
        clock memory (channel.bank.write selection value).1).outcome = .ok (after, later, memory')) :
      Writes channel clock memory width address value after later memory'
  | store {selection : Selection registers}
      (found : Selection.find? registers width address = some selection)
      (idle : channel.transfer = none) (other : selection.index ≠ controlIndex) :
      Writes channel clock memory width address value
        { channel with bank := (channel.bank.write selection value).2 } clock memory

theorem write_writes (channel : Channel) (clock : Clock) (memory : μ) (width : Width)
    (address value : UInt32) :
    let caught := (channel.catchUp clock memory).value
    (channel.write clock memory width address value).Ensures fun (after, later, memory') =>
      Writes caught.1 caught.2.1 caught.2.2 width address value after later memory' := by
  unfold write
  refine .bind (.traced _) ?_
  rintro _ rfl
  refine .bind (.traced _) ?_
  rintro _ rfl
  rw [Selection.value_noted]
  dsimp only
  split
  next missed => exact .pure (.missed missed)
  next selection found =>
    split
    next active => exact .bind (.trivial _) fun _ _ => .pure (.busy active)
    next inactive =>
      have idle : (channel.catchUp clock memory).value.1.transfer = none := by
        simpa [isActive] using inactive
      split
      next here => exact fun _ done => .control found idle here done
      next other => exact .pure (.store found idle other)

theorem write_step (channel : Channel) (clock : Clock) (memory : μ) (width : Width)
    (address value : UInt32) :
    (channel.write clock memory width address value).Ensures fun (after, later, _) =>
      Step 1 channel clock after later := by
  have caughtUp := catchUp_step channel clock memory
  have stored {selection : Selection registers}
      (found : Selection.find? registers width address = some selection)
      (idle : (channel.catchUp clock memory).value.1.transfer = none) :=
    caughtUp.trans (Step.ofBank 1 (channel.catchUp clock memory).value.2.1 idle _
      (Bank.resets_write _ selection value) fun fits =>
        fits.write (Selection.proper_of_find? found) value)
  refine (channel.write_writes clock memory width address value).imp ?_
  rintro ⟨after, later, memory'⟩ writes
  cases writes with
  | missed => exact caughtUp
  | busy => exact caughtUp
  | control found idle _ done =>
      have step : Step 1 _ _ after later := controlled_step (by exact idle) _ _ _ _ done
      exact (stored found idle).trans step
  | store found idle => exact stored found idle

/-- A regular transfer whose deadline has been reached has all its units due. -/
theorem total_le_dueUnits {due : Deadline} (performs : channel.Performs transfer)
    (regular : channel.Regular clock transfer) (timed : transfer.due = some due)
    (reached : clock.hasReached due.time = true) :
    transfer.total ≤ channel.dueUnits clock transfer := by
  obtain ⟨_, same, time, recent⟩ := regular
  cases timed.symm.trans same
  have length := boundedProduct_of_lt performs.short
  have positive : 0 < channel.cyclesPerUnit.toNat := by
    have timed := performs.timed
    rw [ne_eq, ← UInt64.toNat_inj, UInt64.toNat_zero] at timed
    exact Nat.pos_of_ne_zero timed
  have finished : channel.duration transfer.total ≤ clock.now - transfer.startedAt := by
    have short := performs.short
    unfold Clock.hasReached at reached
    rw [time] at reached
    generalize channel.duration transfer.total = duration at *
    unfold Clock.horizon at *
    grind
  have units : transfer.total.toNat
      ≤ ((clock.now - transfer.startedAt) / channel.cyclesPerUnit).toNat := by
    rw [UInt64.toNat_div, Nat.le_div_iff_mul_le positive]
    rw [UInt64.le_iff_toNat_le, duration, length, UInt32.toNat_toUInt64] at finished
    exact finished
  unfold dueUnits
  dsimp only
  split
  next small =>
    rw [UInt32.le_iff_toNat_le, UInt64.toNat_toUInt32, Nat.mod_eq_of_lt]
    · exact units
    · rw [UInt64.le_iff_toNat_le] at small
      exact Nat.lt_succ_of_le small
  next =>
    have bound := transfer.total.toNat_lt
    rw [UInt32.le_iff_toNat_le]
    exact Nat.le_of_lt_succ bound

/-- The channel with the deadline of its transfer let go. -/
def letGo (channel : Channel) (transfer : Transfer) : Channel :=
  { channel with transfer := some { transfer with due := none } }

/-- A poll before the deadline does nothing. -/
theorem poll_of_ahead (ahead : ∀ deadline ∈ channel.held, clock.hasReached deadline.time = false)
    (memory : μ) : channel.poll clock memory = pure (channel, clock, memory) := by
  unfold poll
  split
  next => rfl
  next transfer active =>
    cases timed : transfer.due with
    | none => rfl
    | some due =>
        rw [Clock.claim_of_ahead (ahead due (mem_held.2 ⟨transfer, active, timed⟩))]
        rfl

/-- A poll from the deadline on moves what is due. -/
theorem poll_of_reached {due : Deadline} (active : channel.transfer = some transfer)
    (timed : transfer.due = some due) (reached : clock.hasReached due.time = true) (memory : μ) :
    channel.poll clock memory = (channel.letGo transfer).catchUp clock memory := by
  unfold poll
  rw [active]
  dsimp only
  rw [timed, Clock.claim_of_reached reached]
  rfl

theorem catchUp_of_timed (active : channel.transfer = some transfer)
    (timed : channel.cyclesPerUnit ≠ 0) (clock : Clock) (memory : μ) :
    channel.catchUp clock memory
      = channel.advance clock memory (channel.dueUnits clock transfer) := by
  unfold catchUp
  rw [active]
  exact if_neg timed

/-- After a poll the channel's deadline lies ahead. -/
theorem poll_step (channel : Channel) (clock : Clock) (memory : μ) :
    Step 1 channel clock (channel.poll clock memory).value.1
        (channel.poll clock memory).value.2.1 ∧
      ∀ deadline ∈ (channel.poll clock memory).value.1.held,
        (channel.poll clock memory).value.2.1.hasReached deadline.time = false := by
  by_cases ahead : ∀ deadline ∈ channel.held, clock.hasReached deadline.time = false
  · rw [poll_of_ahead ahead]
    exact ⟨.refl 1 channel clock, ahead⟩
  · obtain ⟨due, known, reached⟩ : ∃ due ∈ channel.held, clock.hasReached due.time = true := by
      simpa using ahead
    obtain ⟨transfer, active, timed⟩ := mem_held.1 known
    rw [poll_of_reached active timed reached]
    have released : Clock.Serves 1 channel.held 0 clock clock := by
      have holding : channel.held = {due} := by
        rw [Option.mem_def] at active
        simp [held, active, timed]
      rw [holding]
      exact .release 1 reached
    have step := catchUp_step (channel.letGo transfer) clock memory
    refine ⟨{ step with
      serves := released.trans step.serves, sound := ?_, regular := ?_, punctual := ?_ }, ?_⟩
    · intro sound
      refine step.sound ?_
      rintro _ ⟨⟩
      exact { sound transfer active with }
    · intro _ sound regular
      have performs := sound transfer active
      have all := total_le_dueUnits performs (regular transfer active) timed reached
      have going : (channel.letGo transfer).transfer = some { transfer with due := none } := rfl
      have finished := (advance_step going clock memory (channel.dueUnits clock transfer)).2
        performs.moved all
      rw [catchUp_of_timed going performs.timed]
      intro other goesOn
      exact absurd (finished.symm.trans goesOn) (by simp)
    · intro _ _
      refine step.punctual (fun deadline none => absurd none (Multiset.notMem_zero deadline)) ?_
      rintro _ ⟨⟩ due none
      contradiction
    · exact step.serves.hasReached (by decide) fun deadline none =>
        absurd none (Multiset.notMem_zero deadline)

theorem reset_step (channel : Channel) (clock : Clock) :
    Step 1 channel clock (channel.reset clock).1 (channel.reset clock).2 where
  serves := .dropAny 1 clock _
  index := rfl
  source := rfl
  cyclesPerUnit := rfl
  resets := rfl
  fits := Bank.Fits.reset
  sound _ _ active := absurd active (by simp [reset])
  regular _ _ _ _ active := absurd active (by simp [reset])
  punctual _ _ _ active := absurd active (by simp [reset])

end Channel

/-! ## Restored channels -/

theorem boundedProduct_zero (total : UInt64) : boundedProduct total 0 = 0 := by
  simp [boundedProduct, UInt64.size]

/-- The cycles that are left of a saved transfer, in a channel of so many cycles a unit. -/
def TransferSnapshot.rest (saved : TransferSnapshot) (cyclesPerUnit : UInt64) : UInt64 :=
  let duration := boundedProduct saved.total.toUInt64 cyclesPerUnit
  if saved.elapsed < duration then duration - saved.elapsed else 0

/-- The deadline of the saved transfer comes at least so many cycles after it is restored, in a
channel whose transfers take time. -/
def Snapshot.Ahead (least cyclesPerUnit : UInt64) (saved : Snapshot) : Prop :=
  cyclesPerUnit ≠ 0 → ∀ transfer ∈ saved.transfer, least ≤ transfer.rest cyclesPerUnit

/-- A saved transfer has moved no more units than it has, and does not last too long. -/
def Snapshot.IsSound (cyclesPerUnit : UInt64) (saved : Snapshot) : Prop :=
  ∀ transfer ∈ saved.transfer, transfer.moved ≤ transfer.total ∧
    boundedProduct transfer.total.toUInt64 cyclesPerUnit < Clock.horizon

namespace Channel

variable {channel after : Channel} {clock later : Clock} {least : UInt64}

theorem snapshot_isSound (sound : channel.IsSound) :
    (channel.snapshot clock).IsSound channel.cyclesPerUnit := by
  intro saved listed
  obtain ⟨transfer, active, rfl⟩ := Option.map_eq_some_iff.1 listed
  exact ⟨(sound transfer active).moved, (sound transfer active).short⟩

theorem snapshot_ahead (sound : channel.IsSound) (regular : channel.IsRegular clock)
    (near : ∀ deadline ∈ channel.held,
      0 < clock.distance deadline.time ∧ clock.distance deadline.time < Clock.horizon) :
    (channel.snapshot clock).Ahead 1 channel.cyclesPerUnit := by
  intro _ saved listed
  obtain ⟨transfer, active, rfl⟩ := Option.map_eq_some_iff.1 listed
  obtain ⟨due, timed, _⟩ := regular transfer active
  have early : clock.now - transfer.startedAt < channel.duration transfer.total :=
    (regular transfer active).elapsed_lt (sound transfer active).short timed
      (near due (mem_held.2 ⟨transfer, active, timed⟩))
  change 1 ≤ if clock.now - transfer.startedAt < channel.duration transfer.total then
    channel.duration transfer.total - (clock.now - transfer.startedAt) else 0
  rw [if_pos early]
  grind

/-- A channel that goes on with a saved transfer waits for what is left of it. -/
theorem of_resume {saved : TransferSnapshot}
    (done : channel.resume clock saved = .ok (after, later)) :
    ∃ due, clock.scheduleIn (saved.rest channel.cyclesPerUnit) = .ok (due, later) ∧
      after = { channel with
        transfer := some { channel.described saved.total (later.now - saved.elapsed) (some due) with
          moved := saved.moved } } := by
  obtain ⟨⟨due, issuing⟩, placed, same⟩ := Run.except_bind_eq_ok.1 done
  cases same
  exact ⟨due, placed, rfl⟩

/-- A channel refuses what was saved and is as it was, or it is reset, stores the saved registers
and goes on with the saved transfer if there is one. -/
theorem of_restore {saved : Snapshot} {answer : Except DeviceError Unit}
    (done : channel.restore clock saved = .ok (answer, after, later)) :
    ((∃ error, answer = .error error) ∧ after = channel ∧ later = clock) ∨
      answer = .ok () ∧ ∃ bank, channel.bank.load? saved.regs = some bank ∧
        ((saved.transfer = none ∧
            after = { (channel.reset clock).1 with bank } ∧ later = (channel.reset clock).2) ∨
          ∃ transfer, saved.transfer = some transfer ∧ channel.cyclesPerUnit ≠ 0 ∧
            Channel.resume { (channel.reset clock).1 with bank } (channel.reset clock).2 transfer
              = .ok (after, later)) := by
  unfold restore at done
  split at done
  next =>
    cases done
    exact .inl ⟨⟨_, rfl⟩, rfl, rfl⟩
  next bank loaded =>
    split at done
    next =>
      cases done
      exact .inl ⟨⟨_, rfl⟩, rfl, rfl⟩
    next fitting =>
      dsimp only at done
      split at done
      next idle =>
        cases done
        exact .inr ⟨rfl, bank, loaded, .inl ⟨idle, rfl, rfl⟩⟩
      next transfer active =>
        obtain ⟨⟨resumed, last⟩, resuming, same⟩ := Run.except_bind_eq_ok.1 done
        cases same
        have timed : channel.cyclesPerUnit ≠ 0 := fun zero => fitting ⟨by rw [active]; rfl, zero⟩
        exact .inr ⟨rfl, bank, loaded, .inr ⟨transfer, active, timed, resuming⟩⟩

theorem resume_step (idle : channel.transfer = none) (timed : channel.cyclesPerUnit ≠ 0)
    {saved : TransferSnapshot} (ahead : least ≤ saved.rest channel.cyclesPerUnit)
    (moved : saved.moved ≤ saved.total) (short : channel.duration saved.total < Clock.horizon)
    (done : channel.resume clock saved = .ok (after, later)) :
    Step least channel clock after later := by
  have free : channel.held = 0 := by rw [held, idle]; rfl
  obtain ⟨due, placed, rfl⟩ := of_resume done
  have serves := Clock.Serves.scheduleIn placed ahead
  have began : (channel.described saved.total (later.now - saved.elapsed) (some due)).startedAt
      = clock.now - saved.elapsed := by
    rw [← serves.follows.now]
    rfl
  have elapsed : clock.now - (clock.now - saved.elapsed) = saved.elapsed := by grind
  -- A transfer saved after its end comes back with a deadline that is reached at once.
  have time : due.time = clock.now + saved.rest channel.cyclesPerUnit :=
    (Clock.pending_of_scheduleAt placed).2
  have unfinished (positive : 0 < saved.rest channel.cyclesPerUnit) :
      saved.elapsed < channel.duration saved.total ∧
        due.time = clock.now - saved.elapsed + channel.duration saved.total := by
    rw [time]
    unfold TransferSnapshot.rest at positive ⊢
    dsimp only at positive ⊢
    split at positive
    next early =>
      refine ⟨early, ?_⟩
      rw [if_pos early, duration]
      grind
    next => exact absurd positive (by decide)
  refine { Step.refl least channel clock with
    serves := free ▸ serves, sound := ?_, regular := ?_, punctual := ?_ }
  · rintro _ _ ⟨⟩
    exact ⟨timed, rfl, rfl, rfl, moved, short⟩
  · rintro positive _ _ _ ⟨⟩
    obtain ⟨early, start⟩ := unfinished (UInt64.lt_of_lt_of_le positive ahead)
    refine ⟨due, rfl, ?_, ?_⟩
    · rw [began]
      exact start
    · rw [began, serves.follows.now, elapsed]
      exact Nat.lt_add_right _ (UInt64.lt_iff_toNat_lt.1 early)
  · rintro _ _ _ ⟨⟩ _ ⟨⟩ awaits
    have positive : 0 < saved.rest channel.cyclesPerUnit := by
      refine UInt64.pos_iff_ne_zero.2 fun zero => ?_
      have reached := awaits.ahead
      rw [time, zero, Clock.hasReached_congr serves.follows.now] at reached
      simp [Clock.hasReached, Clock.horizon] at reached
    obtain ⟨early, start⟩ := unfinished positive
    rw [began, serves.follows.now, elapsed]
    exact ⟨start, early⟩

theorem restore_step {saved : Snapshot} (ahead : saved.Ahead least channel.cyclesPerUnit)
    (sound : saved.IsSound channel.cyclesPerUnit) {answer : Except DeviceError Unit}
    (done : channel.restore clock saved = .ok (answer, after, later)) :
    Step least channel clock after later := by
  obtain ⟨-, rfl, rfl⟩ | ⟨-, bank, loaded, taken⟩ := of_restore done
  · exact .refl least _ _
  have loading : Step least channel clock
      { (channel.reset clock).1 with bank } (channel.reset clock).2 :=
    { serves := .dropAny least clock _
      index := rfl
      source := rfl
      cyclesPerUnit := rfl
      resets := Bank.resets_of_load? loaded
      fits := fun fits => fits.load? loaded
      sound := fun _ _ active => absurd active (by simp [reset])
      regular := fun _ _ _ _ active => absurd active (by simp [reset])
      punctual := fun _ _ _ active => absurd active (by simp [reset]) }
  obtain ⟨-, rfl, rfl⟩ | ⟨transfer, transferring, timed, resuming⟩ := taken
  · exact loading
  · obtain ⟨moved, short⟩ := sound transfer transferring
    exact loading.trans
      (resume_step rfl timed (ahead timed transfer transferring) moved short resuming)

/-! ## Everything a channel does -/

variable {μ : Type} [Bus μ]

/-- An operation of a channel, with what it leaves. -/
inductive Does (restorable : Snapshot → Prop) (channel : Channel) (clock : Clock) (memory : μ) :
    Channel → Clock → μ → Prop where
  | start {answer : Except DeviceError Unit} {after : Channel} {later : Clock} {memory' : μ}
      (source target count control : UInt32)
      (done : (channel.start clock memory source target count control).outcome
        = .ok (answer, after, later, memory')) :
      Does restorable channel clock memory after later memory'
  | read (width : Width) (address : UInt32) :
      Does restorable channel clock memory (channel.read clock memory width address).value.2.1
        (channel.read clock memory width address).value.2.2.1
        (channel.read clock memory width address).value.2.2.2
  | write {after : Channel} {later : Clock} {memory' : μ} (width : Width) (address value : UInt32)
      (done : (channel.write clock memory width address value).outcome
        = .ok (after, later, memory')) :
      Does restorable channel clock memory after later memory'
  | poll : Does restorable channel clock memory (channel.poll clock memory).value.1
      (channel.poll clock memory).value.2.1 (channel.poll clock memory).value.2.2
  | reset : Does restorable channel clock memory (channel.reset clock).1 (channel.reset clock).2
      memory
  | restore {saved : Snapshot} {answer : Except DeviceError Unit} {after : Channel}
      {later : Clock} (own : restorable saved)
      (done : channel.restore clock saved = .ok (answer, after, later)) :
      Does restorable channel clock memory after later memory

theorem Step.weaken {less : UInt64} (le : less ≤ least)
    (step : Step least channel clock after later) : Step less channel clock after later :=
  { step with
    regular := fun positive => step.regular (UInt64.lt_of_lt_of_le positive le)
    serves := step.serves.weaken le }

theorem Does.step {restorable : Snapshot → Prop} {memory memory' : μ}
    (does : Does restorable channel clock memory after later memory') (le : least ≤ 1)
    (ahead : ∀ saved, restorable saved → saved.Ahead least channel.cyclesPerUnit)
    (own : ∀ saved, restorable saved → saved.IsSound channel.cyclesPerUnit) :
    Step least channel clock after later := by
  cases does with
  | start source target count control done =>
      exact (start_step channel clock memory source target count control _ done :
        Step 1 channel clock _ _).weaken le
  | read width address => exact (read_step channel clock memory width address).weaken le
  | write width address value done =>
      exact (write_step channel clock memory width address value _ done :
        Step 1 channel clock _ _).weaken le
  | poll => exact (poll_step channel clock memory).1.weaken le
  | reset => exact (reset_step channel clock).weaken le
  | restore known done => exact restore_step (ahead _ known) (own _ known) done

/-- The channel of a number, a source and a speed, with registers that fit and a transfer that it
performs. -/
structure Sound (number : Nat) (origin : UInt8) (speed : UInt64) (channel : Channel) : Prop where
  index : channel.index = number
  source : channel.source = origin
  cyclesPerUnit : channel.cyclesPerUnit = speed
  resets : channel.bank.resets = (Bank.initial registers).resets
  fits : channel.bank.Fits
  sound : channel.IsSound

theorem Evolves.keepsSound (evolves : Evolves least channel clock after later) {number : Nat}
    {origin : UInt8} {speed : UInt64} (sound : Sound number origin speed channel) :
    Sound number origin speed after where
  index := evolves.index.trans sound.index
  source := evolves.source.trans sound.source
  cyclesPerUnit := evolves.cyclesPerUnit.trans sound.cyclesPerUnit
  resets := evolves.resets.trans sound.resets
  fits := evolves.fits sound.fits
  sound := evolves.sound sound.sound

/-! ## The clock, whatever was restored -/

/-- What any operation does to a channel and its clock, whatever was restored. -/
structure Tends (least : UInt64) (channel : Channel) (clock : Clock) (after : Channel)
    (later : Clock) : Prop where
  source : after.source = channel.source
  serves : Clock.Serves least channel.held after.held clock later

theorem Step.tends (step : Step least channel clock after later) :
    Tends least channel clock after later :=
  ⟨step.source, step.serves⟩

theorem restore_tends {saved : Snapshot} (ahead : saved.Ahead least channel.cyclesPerUnit)
    {answer : Except DeviceError Unit}
    (done : channel.restore clock saved = .ok (answer, after, later)) :
    Tends least channel clock after later := by
  obtain ⟨-, rfl, rfl⟩ | ⟨-, bank, -, taken⟩ := of_restore done
  · exact (Step.refl least _ _).tends
  have dropping := Clock.Serves.dropAny least clock (channel.transfer.bind (·.due))
  obtain ⟨-, rfl, rfl⟩ | ⟨transfer, transferring, timed, resuming⟩ := taken
  · exact ⟨rfl, dropping⟩
  · obtain ⟨due, placed, rfl⟩ := of_resume resuming
    exact ⟨rfl, dropping.trans
      (Clock.Serves.scheduleIn placed (ahead timed transfer transferring))⟩

theorem Does.tends {restorable : Snapshot → Prop} {memory memory' : μ}
    (does : Does restorable channel clock memory after later memory') (le : least ≤ 1)
    (ahead : ∀ saved, restorable saved → saved.Ahead least channel.cyclesPerUnit) :
    Tends least channel clock after later := by
  cases does with
  | start source target count control done =>
      have step : Step 1 channel clock _ _ :=
        start_step channel clock memory source target count control _ done
      exact (step.weaken le).tends
  | read width address =>
      exact ((read_step channel clock memory width address).weaken le).tends
  | write width address value done =>
      have step : Step 1 channel clock _ _ :=
        write_step channel clock memory width address value _ done
      exact (step.weaken le).tends
  | poll => exact ((poll_step channel clock memory).1.weaken le).tends
  | reset => exact ((reset_step channel clock).weaken le).tends
  | restore known done => exact restore_tends (ahead _ known) done

end Channel

end Dma

end SocPeripherals
