import SocPeripherals.Proofs.Late.Timer
import SocPeripherals.Proofs.Signals

/-!
# How a device can fail

The only thing that goes wrong for good when a device is used is that a memory transfer begins which
takes so long that no deadline can be placed at its end. The channel notes that the transfer begins,
and fails at once. Timers and serial interfaces place their deadlines near enough, whatever their
registers hold.
-/

namespace SocPeripherals

/-- The note tells of a transfer that takes too long for a deadline, at so many cycles a unit. -/
def Note.IsOverlong (cyclesPerUnit : UInt64) : Note → Prop
  | transferStarted _ count _ _ _ => Clock.horizon.toNat ≤ count.toNat * cyclesPerUnit.toNat
  | _ => False

/-- The signal is the note of such a transfer. -/
def Signal.IsOverlong (cyclesPerUnit : UInt64) : Signal → Prop
  | .note remark => remark.IsOverlong cyclesPerUnit
  | _ => False

/-- The operation fails only where a transfer begins that takes too long for a deadline. -/
abbrev Run.FailsAtTransfers {α : Type} (cyclesPerUnit : UInt64) (run : Run Signal α) : Prop :=
  run.FailsOnlyAt .deadlineTooFar (Signal.IsOverlong cyclesPerUnit)

/-- No such transfer begins. -/
abbrev Traced.HasNoTransfer {α : Type} (cyclesPerUnit : UInt64) (traced : Traced Signal α) : Prop :=
  traced.IsHarmless (Signal.IsOverlong cyclesPerUnit)

variable {cyclesPerUnit : UInt64} {clock : Clock}

/-- What is remarked about an access tells of no transfer. -/
theorem Signal.IsOfAccess.not_isOverlong {signal : Signal} (of : signal.IsOfAccess) :
    ¬signal.IsOverlong cyclesPerUnit := by
  cases signal with
  | note remark =>
      cases remark with
      | transferStarted => exact False.elim of
      | _ => exact id
  | _ => exact id

theorem Selection.noted_hasNoTransfer (device : String) (table : List Register) (width : Width)
    (address : UInt32) :
    (noted Signal.note device table width address).HasNoTransfer cyclesPerUnit :=
  (noted_isOfAccess device table width address).isHarmless fun _ =>
    Signal.IsOfAccess.not_isOverlong

/-! ## Timers -/

namespace Timer

variable {timer : Timer}

theorem Owns.not_isOverlong {signal : Signal} (owns : timer.Owns signal) :
    ¬signal.IsOverlong cyclesPerUnit := by
  cases signal with
  | note remark =>
      cases remark with
      | transferStarted => exact False.elim owns
      | _ => exact id
  | _ => exact id

theorem place_failsAtTransfers {start period : UInt64} (positive : 0 < period)
    (short : period ≤ 0x1000000) (reached : clock.hasReached start = true) (timer : Timer) :
    (timer.place clock (start + (clock.now - start) / period * period) period).FailsAtTransfers
      cyclesPerUnit := by
  have soon := distance_ends reached positive short
  unfold place
  rw [Clock.scheduleAt, if_pos soon]
  exact .pure _

theorem arm_failsAtTransfers {start : UInt64} (reached : clock.hasReached start = true)
    (timer : Timer) : (timer.arm clock start).FailsAtTransfers cyclesPerUnit := by
  obtain ⟨period, length, positive, short⟩ := period_latched timer
  unfold arm
  rw [length]
  refine .bind (.except rfl) (.except _) ?_
  rintro _ ⟨⟩
  rw [skipMissed_of_reached reached]
  dsimp only
  split
  next =>
    refine .bind (.signal id) (.trivial _) fun _ _ => ?_
    exact place_failsAtTransfers positive short reached timer
  next => exact place_failsAtTransfers positive short reached timer

theorem read_hasNoTransfer (timer : Timer) (clock : Clock) (width : Width) (address : UInt32) :
    (timer.read clock width address).HasNoTransfer cyclesPerUnit :=
  (timer.read_owns clock width address).isHarmless fun _ => Owns.not_isOverlong

theorem controlled_failsAtTransfers (timer : Timer) (clock : Clock) (change : Change) :
    (timer.controlled clock change).FailsAtTransfers cyclesPerUnit := by
  unfold controlled
  split
  next =>
    refine .bind (.signal id) (.trivial _) fun _ _ => ?_
    split
    next => exact .pure _
    next => exact arm_failsAtTransfers (by simp [Clock.hasReached, Clock.horizon]) timer
  next =>
    split
    next => exact .bind (.signal id) (.trivial _) fun _ _ => .pure _
    next => exact .pure _

theorem write_failsAtTransfers (timer : Timer) (clock : Clock) (width : Width)
    (address value : UInt32) :
    (timer.write clock width address value).FailsAtTransfers cyclesPerUnit := by
  refine .bind (.traced (Selection.noted_hasNoTransfer _ _ _ _)) (.trivial _) fun found _ => ?_
  cases found with
  | none => exact .pure _
  | some selection =>
      dsimp only
      split
      next => exact controlled_failsAtTransfers _ clock _
      next => exact .pure _

theorem write_ends (timer : Timer) (clock : Clock) (width : Width) (address value : UInt32) :
    ∃ result, (timer.write clock width address value).outcome = .ok result := by
  have fails : (timer.write clock width address value).FailsAtTransfers 0 :=
    write_failsAtTransfers timer clock width address value
  exact fails.ends_iff.2 fun signal signalled =>
    (timer.write_owns clock width address value signal signalled).not_isOverlong

/-- A period that is over is followed by one with a deadline that is near enough. -/
theorem turned_failsAtTransfers {start : UInt64} {expiry : Deadline}
    (regular : Span.Regular ⟨timer.latch, start, expiry⟩)
    (reached : clock.hasReached expiry.time = true) :
    (timer.turned clock start).FailsAtTransfers cyclesPerUnit := by
  have length : timer.latch.period = .ok (expiry.time - start) := regular.length
  have ends : start + (expiry.time - start) = expiry.time := by grind
  unfold turned
  split
  next =>
    rw [length]
    refine .bind (.except rfl) (.except _) ?_
    rintro _ ⟨⟩
    rw [ends]
    exact arm_failsAtTransfers reached timer
  next => exact .pure _

theorem poll_failsAtTransfers (clock : Clock) (regular : ∀ start expiry,
    timer.phase = .running start expiry → Span.Regular ⟨timer.latch, start, expiry⟩) :
    (timer.poll clock).FailsAtTransfers cyclesPerUnit := by
  rcases timer.ahead_or_reached clock with ahead | ⟨start, expiry, phase, reached⟩
  · rw [poll_of_ahead ahead]
    exact .pure _
  · rw [poll_of_reached phase reached]
    refine .bind (.signal id) (.trivial _) fun _ _ => ?_
    refine .bind (turned_failsAtTransfers (regular start expiry phase) reached) (.trivial _)
      fun _ _ => ?_
    exact .bind (.signal id) (.trivial _) fun _ _ => .pure _

end Timer

/-! ## Serial interfaces -/

namespace Uart

variable {uart : Uart}

theorem Owns.not_isOverlong {signal : Signal} (owns : uart.Owns signal) :
    ¬signal.IsOverlong cyclesPerUnit := by
  cases signal with
  | note remark =>
      cases remark with
      | transferStarted => exact False.elim owns
      | _ => exact id
  | _ => exact id

theorem receive_hasNoTransfer (uart : Uart) (byte : UInt8) :
    (uart.receive byte).HasNoTransfer cyclesPerUnit :=
  (uart.receive_owns byte).isHarmless fun _ => Owns.not_isOverlong

theorem read_hasNoTransfer (uart : Uart) (width : Width) (address : UInt32) :
    (uart.read width address).HasNoTransfer cyclesPerUnit :=
  (uart.read_owns width address).isHarmless fun _ => Owns.not_isOverlong

/-- The time of a frame is short enough for a deadline. -/
theorem timeBreak_ok (uart : Uart) (clock : Clock) :
    ∃ result, uart.timeBreak clock = .ok result := by
  obtain ⟨result, placed⟩ := clock.scheduleIn_of_lt uart.frameCycles_lt_horizon
  unfold timeBreak
  rw [placed]
  exact ⟨_, rfl⟩

theorem setLine_ok (uart : Uart) (clock : Clock) (high : Bool) :
    ∃ result, uart.setLine clock high = .ok result := by
  unfold setLine
  split
  next => exact ⟨_, rfl⟩
  next =>
    split
    next => exact ⟨_, rfl⟩
    next =>
      dsimp only
      split
      next => exact timeBreak_ok _ clock
      next => exact ⟨_, rfl⟩

theorem transmit_failsAtTransfers (uart : Uart) (clock : Clock) (byte : UInt8) :
    (uart.transmit clock byte).FailsAtTransfers cyclesPerUnit := by
  unfold transmit
  split
  next => exact .bind (.signal id) (.trivial _) fun _ _ => .pure _
  next =>
    split
    next => exact .bind (.signal id) (.trivial _) fun _ _ => .pure _
    next =>
      obtain ⟨result, placed⟩ := clock.scheduleIn_of_lt uart.frameCycles_lt_horizon
      exact .bind (.except placed) (.trivial _) fun _ _ => .pure _

theorem controlled_failsAtTransfers (uart : Uart) (clock : Clock) (change : Change) :
    (uart.controlled clock change).FailsAtTransfers cyclesPerUnit := by
  unfold controlled
  split
  next => exact .bind (.signal id) (.trivial _) fun _ _ => .pure _
  next =>
    split
    next =>
      obtain ⟨result, timed⟩ := timeBreak_ok (uart.abandonBreak clock).1 (uart.abandonBreak clock).2
      exact .except timed
    next => exact .pure _

theorem write_failsAtTransfers (uart : Uart) (clock : Clock) (width : Width)
    (address value : UInt32) :
    (uart.write clock width address value).FailsAtTransfers cyclesPerUnit := by
  refine .bind (.traced (Selection.noted_hasNoTransfer _ _ _ _)) (.trivial _) fun found _ => ?_
  cases found with
  | none => exact .pure _
  | some selection =>
      dsimp only
      split
      next => exact controlled_failsAtTransfers _ clock _
      next =>
        split
        next => exact transmit_failsAtTransfers _ clock _
        next => exact .pure _

theorem write_ends (uart : Uart) (clock : Clock) (width : Width) (address value : UInt32) :
    ∃ result, (uart.write clock width address value).outcome = .ok result := by
  have fails : (uart.write clock width address value).FailsAtTransfers 0 :=
    write_failsAtTransfers uart clock width address value
  exact fails.ends_iff.2 fun signal signalled =>
    (uart.write_owns clock width address value signal signalled).not_isOverlong

theorem poll_hasNoTransfer (uart : Uart) (clock : Clock) :
    (uart.poll clock).HasNoTransfer cyclesPerUnit :=
  (uart.poll_owns clock).isHarmless fun _ => Owns.not_isOverlong

end Uart

/-! ## Memory transfers -/

namespace Dma

theorem boundedProduct_lt_horizon_iff (first second : UInt64) :
    boundedProduct first second < Clock.horizon
      ↔ first.toNat * second.toNat < Clock.horizon.toNat := by
  constructor
  · intro short
    rw [← Channel.boundedProduct_of_lt short]
    exact UInt64.lt_iff_toNat_lt.1 short
  · intro short
    have fits : first.toNat * second.toNat < UInt64.size := short.trans (by decide)
    rw [boundedProduct, if_pos fits, UInt64.lt_iff_toNat_lt, UInt64.toNat_mul, Nat.mod_eq_of_lt fits]
    exact short

namespace Channel

variable {μ : Type} [Bus μ] {channel : Channel}

omit [Bus μ] in
/-- Only the beginning of a transfer can be fatal. -/
theorem Continues.not_isOverlong {signal : Signal} (continues : channel.Continues signal) :
    ¬signal.IsOverlong cyclesPerUnit := by
  cases signal with
  | note remark =>
      cases remark with
      | transferStarted => exact False.elim continues
      | _ => exact id
  | _ => exact id

theorem advance_hasNoTransfer (channel : Channel) (clock : Clock) (memory : μ) (target : UInt32) :
    (channel.advance clock memory target).HasNoTransfer cyclesPerUnit :=
  (advance_continues channel clock memory target).isHarmless fun _ => Continues.not_isOverlong

theorem catchUp_hasNoTransfer (channel : Channel) (clock : Clock) (memory : μ) :
    (channel.catchUp clock memory).HasNoTransfer cyclesPerUnit :=
  (catchUp_continues channel clock memory).isHarmless fun _ => Continues.not_isOverlong

theorem read_hasNoTransfer (channel : Channel) (clock : Clock) (memory : μ) (width : Width)
    (address : UInt32) : (channel.read clock memory width address).HasNoTransfer cyclesPerUnit :=
  (channel.read_continues clock memory width address).isHarmless fun _ => Continues.not_isOverlong

theorem poll_hasNoTransfer (channel : Channel) (clock : Clock) (memory : μ) :
    (channel.poll clock memory).HasNoTransfer cyclesPerUnit :=
  (channel.poll_continues clock memory).isHarmless fun _ => Continues.not_isOverlong

/-- A transfer can begin unless its time is too long for a deadline. -/
theorem begin_failsAtTransfers (speed : channel.cyclesPerUnit = cyclesPerUnit) (clock : Clock)
    (memory : μ) : (channel.begin clock memory).FailsAtTransfers cyclesPerUnit := by
  have near := boundedProduct_lt_horizon_iff (channel.bank.get countIndex).toUInt64 cyclesPerUnit
  rw [UInt32.toNat_toUInt64] at near
  unfold begin
  dsimp only
  rw [speed]
  by_cases overlong : Clock.horizon.toNat
      ≤ (channel.bank.get countIndex).toNat * cyclesPerUnit.toNat
  · have timed : cyclesPerUnit ≠ 0 ∧ channel.bank.get countIndex ≠ 0 := by
      constructor <;> rintro zero <;> rw [zero] at overlong <;> exact absurd overlong (by simp +decide)
    have far : clock.scheduleIn
        (boundedProduct (channel.bank.get countIndex).toUInt64 cyclesPerUnit)
          = .error .deadlineTooFar := by
      unfold Clock.scheduleIn Clock.scheduleAt
      rw [Clock.distance_add, if_neg (mt near.1 (Nat.not_lt.2 overlong))]
    rw [if_pos timed, far]
    exact .fails (fun _ signalled => absurd signalled List.not_mem_nil) overlong
  · refine .bind (.signal overlong) (.trivial _) fun _ _ => ?_
    split
    next =>
      obtain ⟨result, placed⟩ := clock.scheduleIn_of_lt (near.2 (Nat.not_le.1 overlong))
      exact .bind (.except placed) (.trivial _) fun _ _ => .pure _
    next => exact .traced (advance_hasNoTransfer _ clock memory _)

theorem start_failsAtTransfers (speed : channel.cyclesPerUnit = cyclesPerUnit) (clock : Clock)
    (memory : μ) (source target count control : UInt32) :
    (channel.start clock memory source target count control).FailsAtTransfers cyclesPerUnit := by
  refine .bind (.traced (catchUp_hasNoTransfer channel clock memory)) (.traced _) ?_
  rintro _ rfl
  dsimp only
  split
  next => exact .pure _
  next =>
    refine .bind (begin_failsAtTransfers ?_ _ _) (.trivial _) fun _ _ => .pure _
    exact ((catchUp_step channel clock memory).cyclesPerUnit).trans speed

theorem controlled_failsAtTransfers (speed : channel.cyclesPerUnit = cyclesPerUnit) (clock : Clock)
    (memory : μ) (change : Change) :
    (channel.controlled clock memory change).FailsAtTransfers cyclesPerUnit := by
  unfold controlled
  dsimp only
  split
  next =>
    refine begin_failsAtTransfers ?_ clock memory
    exact speed
  next => exact .pure _

theorem write_failsAtTransfers (speed : channel.cyclesPerUnit = cyclesPerUnit) (clock : Clock)
    (memory : μ) (width : Width) (address value : UInt32) :
    (channel.write clock memory width address value).FailsAtTransfers cyclesPerUnit := by
  have kept := ((catchUp_step channel clock memory).cyclesPerUnit).trans speed
  refine .bind (.traced (catchUp_hasNoTransfer channel clock memory)) (.traced _) ?_
  rintro _ rfl
  refine .bind (.traced (Selection.noted_hasNoTransfer _ _ _ _)) (.trivial _) fun found _ => ?_
  cases found with
  | none => exact .pure _
  | some selection =>
      dsimp only
      split
      next => exact .bind (.signal id) (.trivial _) fun _ _ => .pure _
      next =>
        split
        next =>
          refine controlled_failsAtTransfers ?_ _ _ _
          exact kept
        next => exact .pure _

end Channel

end Dma

end SocPeripherals
