import SocPeripherals.Block.Window
import SocPeripherals.Dma.Engine
import SocPeripherals.Proofs.Dma.Channel
import SocPeripherals.Proofs.Timer
import SocPeripherals.Proofs.Uart

/-!
# Whose signals are whose

A device asks for its own interrupt only, and what it remarks is about itself. A timer tells that a
period is over in a poll and nowhere else. What the interrupt controller tells is about its line and
about accesses.
-/

namespace SocPeripherals

/-- The note remarks about an access that it selects no register, or does not cover it. -/
def Note.IsOfAccess : Note → Prop
  | noRegister .. | partialAccess .. => True
  | _ => False

/-- The signal is a remark about an access. -/
def Signal.IsOfAccess : Signal → Prop
  | .note remark => remark.IsOfAccess
  | _ => False

theorem Selection.isOfAccess_of_remark? {table : List Register} {device : String} {width : Width}
    {address : UInt32} {selection : Option (Selection table)} {remark : Note}
    (remarked : remark? device width address selection = some remark) : remark.IsOfAccess := by
  unfold remark? at remarked
  split at remarked
  next =>
    cases remarked
    exact trivial
  next =>
    split at remarked
    next => contradiction
    next =>
      cases remarked
      exact trivial

theorem Selection.noted_signalsOnly {ε : Type} {kind : ε → Prop} {note : Note → ε}
    (remarks : ∀ remark : Note, remark.IsOfAccess → kind (note remark)) (device : String)
    (table : List Register) (width : Width) (address : UInt32) :
    (noted note device table width address).SignalsOnly kind := by
  intro signal signalled
  obtain ⟨remark, remarked, rfl⟩ := List.mem_map.1 signalled
  exact remarks remark (isOfAccess_of_remark? (Option.mem_toList.1 remarked))

theorem Selection.noted_isOfAccess (device : String) (table : List Register) (width : Width)
    (address : UInt32) :
    (noted Signal.note device table width address).SignalsOnly Signal.IsOfAccess := by
  have remarks (remark : Note) (of : remark.IsOfAccess) : Signal.IsOfAccess (.note remark) := of
  exact noted_signalsOnly remarks device table width address

/-! ## The controller and the identification registers -/

/-- The interrupt controller tells of its line and of what is acknowledged, and every part remarks
about accesses. -/
def Event.IsOfController : Event → Prop
  | .note (.lineChanged _) | .note (.acknowledged _) | .line .. => True
  | .note remark => remark.IsOfAccess
  | _ => False

theorem Event.IsOfController.ofAccess {remark : Note} (of : remark.IsOfAccess) :
    Event.IsOfController (.note remark) := by
  cases remark <;> trivial

namespace Interrupt.Controller

theorem drive_signalsOnly (controller : Controller) :
    controller.drive.SignalsOnly Event.IsOfController := by
  unfold drive
  split
  next => exact .pure _
  next => simp [Traced.SignalsOnly, Event.IsOfController]

theorem read_signalsOnly (controller : Controller) (width : Width) (address : UInt32) :
    (controller.read width address).SignalsOnly Event.IsOfController := by
  refine .bind (Selection.noted_signalsOnly (fun _ => .ofAccess) _ _ _ _) ?_
  split
  next => exact .pure _
  next =>
    split
    next => exact .pure _
    next => exact .pure _

theorem write_signalsOnly (controller : Controller) (width : Width) (address value : UInt32) :
    (controller.write width address value).SignalsOnly Event.IsOfController := by
  refine .bind (Selection.noted_signalsOnly (fun _ => .ofAccess) _ _ _ _) ?_
  split
  next => exact .pure _
  next =>
    dsimp only
    split
    next =>
      split
      next => exact .bind (.signal trivial) (drive_signalsOnly _)
      next => exact .pure _
    next => exact drive_signalsOnly _

end Interrupt.Controller

namespace Block

variable {μ : Type}

theorem readMisc_signalsOnly (block : Block μ) (width : Width) (offset : UInt32) :
    (block.readMisc width offset).SignalsOnly Event.IsOfController := by
  refine .bind (Selection.noted_signalsOnly (fun _ => .ofAccess) _ _ _ _) ?_
  split
  next => exact .pure _
  next => exact .pure _

theorem writeMisc_signalsOnly (block : Block μ) (width : Width) (offset value : UInt32) :
    (block.writeMisc width offset value).SignalsOnly Event.IsOfController := by
  refine .bind (Selection.noted_signalsOnly (fun _ => .ofAccess) _ _ _ _) ?_
  split
  next => exact .pure _
  next => exact .pure _

end Block

/-! ## Timers -/

namespace Timer

/-- The signal is one of the timer's. -/
def Owns (timer : Timer) : Signal → Prop
  | .note (.periodsSkipped _) => True
  | .note (.timerStarted number _) | .note (.timerStopped number)
  | .note (.timerExpired number) => number = timer.index
  | .note remark => remark.IsOfAccess
  | .interrupt source => source = timer.source
  | _ => False

theorem Owns.ofAccess {timer : Timer} {remark : Note} (of : remark.IsOfAccess) :
    timer.Owns (.note remark) := by
  cases remark <;> trivial

theorem arm_signalsOnly (timer : Timer) (clock : Clock) (start : UInt64) :
    (timer.arm clock start).SignalsOnly fun signal =>
      ∃ missed, signal = .note (.periodsSkipped missed) := by
  have placing (begun period : UInt64) : (timer.place clock begun period).SignalsOnly
      fun signal => ∃ missed, signal = .note (.periodsSkipped missed) :=
    .bind (.except _) (.trivial _) fun _ _ => .pure _
  unfold arm
  refine .bind (.except _) (.trivial _) fun period _ => ?_
  dsimp only
  split
  next => exact .bind (.signal ⟨_, rfl⟩) (.trivial _) fun _ _ => placing _ period
  next => exact placing _ period

theorem arm_owns (timer : Timer) (clock : Clock) (start : UInt64) :
    (timer.arm clock start).SignalsOnly timer.Owns := by
  refine (arm_signalsOnly timer clock start).imp ?_
  rintro _ ⟨missed, rfl⟩
  exact trivial

theorem read_signalsOnly (timer : Timer) (clock : Clock) (width : Width) (address : UInt32) :
    (timer.read clock width address).SignalsOnly Signal.IsOfAccess := by
  refine .bind (Selection.noted_isOfAccess _ _ _ _) ?_
  split
  next => exact .pure _
  next =>
    split
    next => exact .pure _
    next => exact .pure _

theorem read_owns (timer : Timer) (clock : Clock) (width : Width) (address : UInt32) :
    (timer.read clock width address).SignalsOnly timer.Owns := by
  refine (read_signalsOnly timer clock width address).imp fun signal of => ?_
  cases signal with
  | note remark => exact .ofAccess of
  | _ => exact of.elim

theorem controlled_owns (timer : Timer) (clock : Clock) (change : Change) :
    (timer.controlled clock change).SignalsOnly timer.Owns := by
  unfold controlled
  split
  next =>
    refine .bind (.signal rfl) (.trivial _) fun _ _ => ?_
    split
    next => exact .pure _
    next => exact arm_owns timer clock clock.now
  next =>
    split
    next => exact .bind (.signal rfl) (.trivial _) fun _ _ => .pure _
    next => exact .pure _

theorem write_owns (timer : Timer) (clock : Clock) (width : Width) (address value : UInt32) :
    (timer.write clock width address value).SignalsOnly timer.Owns := by
  have remarks (remark : Note) (of : remark.IsOfAccess) : timer.Owns (.note remark) := .ofAccess of
  have remarked := Selection.noted_signalsOnly remarks "timer" registers width address
  refine .bind (.traced remarked) (.trivial _) fun found _ => ?_
  cases found with
  | none => exact .pure _
  | some selection =>
      dsimp only
      split
      next =>
        exact controlled_owns { timer with bank := (timer.bank.write selection value).2 } clock _
      next => exact .pure _

/-- A write that selects no register is only remarked about. -/
theorem write_signalsOnly_of_missed {width : Width} {address : UInt32}
    (missed : Selection.find? registers width address = none) (timer : Timer) (clock : Clock)
    (value : UInt32) :
    (timer.write clock width address value).SignalsOnly Signal.IsOfAccess := by
  refine .bind (.traced (Selection.noted_isOfAccess _ _ _ _)) (.traced _) ?_
  rintro _ rfl
  rw [Selection.value_noted, missed]
  exact .pure _

/-- A timer that turns tells nothing but how many periods it skips. -/
theorem turned_signalsOnly (timer : Timer) (clock : Clock) (start : UInt64) :
    (timer.turned clock start).SignalsOnly fun signal =>
      ∃ missed, signal = .note (.periodsSkipped missed) := by
  unfold turned
  split
  next => exact .bind (.except _) (.trivial _) fun period _ => arm_signalsOnly timer clock _
  next => exact .pure _

theorem poll_owns (timer : Timer) (clock : Clock) :
    (timer.poll clock).SignalsOnly timer.Owns := by
  rcases timer.ahead_or_reached clock with ahead | ⟨start, expiry, phase, reached⟩
  · rw [poll_of_ahead ahead]
    exact .pure _
  · have turns : (timer.turned clock start).SignalsOnly timer.Owns := by
      refine (turned_signalsOnly timer clock start).imp ?_
      rintro _ ⟨missed, rfl⟩
      exact trivial
    rw [poll_of_reached phase reached]
    refine .bind (.signal rfl) (.trivial _) fun _ _ => .bind turns (.trivial _) fun _ _ => ?_
    exact .bind (.signal rfl) (.trivial _) fun _ _ => .pure _

end Timer

/-! ## Serial interfaces -/

namespace Uart

/-- The signal is one of the interface's. -/
def Owns (uart : Uart) : Signal → Prop
  | .note (.uartDisabled number) | .note (.receiveWhileDisabled number _)
  | .note (.receiveOverrun number _) | .note (.transmitWhileDisabled number _)
  | .note (.transmitWhileBusy number _) | .note (.transmitted number _)
  | .note (.breakDetected number) => number = uart.index
  | .note remark => remark.IsOfAccess
  | .interrupt source => source = uart.source
  | .transmit number _ => number = uart.index
  | .host _ => False

theorem Owns.ofAccess {uart : Uart} {remark : Note} (of : remark.IsOfAccess) :
    uart.Owns (.note remark) := by
  cases remark <;> trivial

/-- What an interface signals about accesses and received bytes: remarks, and the request that
something received makes. -/
inductive Answers (uart : Uart) : Signal → Prop where
  | access {remark : Note} (of : remark.IsOfAccess) : Answers uart (.note remark)
  | disabled : Answers uart (.note (.uartDisabled uart.index))
  | refused (byte : UInt8) : Answers uart (.note (.receiveWhileDisabled uart.index byte))
  | overrun (byte : UInt8) : Answers uart (.note (.receiveOverrun uart.index byte))
  | unsent (byte : UInt8) : Answers uart (.note (.transmitWhileDisabled uart.index byte))
  | busy (byte : UInt8) : Answers uart (.note (.transmitWhileBusy uart.index byte))
  | request : Answers uart (.interrupt uart.source)

theorem Answers.owns {uart : Uart} {signal : Signal} (answers : uart.Answers signal) :
    uart.Owns signal := by
  cases answers with
  | access of => exact Owns.ofAccess of
  | _ => rfl

/-- Breaks are reported by polls alone. -/
theorem Answers.ne_break {uart : Uart} {signal : Signal} (answers : uart.Answers signal)
    (number : Nat) : signal ≠ .note (.breakDetected number) := by
  cases answers with
  | access of =>
      rintro ⟨⟩
      exact of
  | _ => nofun

theorem noted_answers (uart : Uart) (width : Width) (address : UInt32) :
    (Selection.noted Signal.note "uart" registers width address).SignalsOnly uart.Answers :=
  Selection.noted_signalsOnly (fun _ => Answers.access) _ _ _ _

theorem receiveRequest_answers (uart : Uart) :
    ∀ signal ∈ uart.receiveRequest, uart.Answers signal := by
  intro signal requested
  unfold receiveRequest at requested
  split at requested
  next =>
    rw [List.mem_singleton.1 requested]
    exact .request
  next => exact absurd requested List.not_mem_nil

theorem receive_answers (uart : Uart) (byte : UInt8) :
    (uart.receive byte).SignalsOnly uart.Answers := by
  have receives := uart.receive_receives byte
  generalize uart.receive byte = received at receives ⊢
  intro signal signalled
  cases receives with
  | refused =>
      rw [List.mem_singleton.1 signalled]
      exact .refused byte
  | stored => exact uart.receiveRequest_answers signal signalled
  | dropped =>
      rcases List.mem_append.1 signalled with signalled | signalled
      · exact uart.receiveRequest_answers signal signalled
      · rw [List.mem_singleton.1 signalled]
        exact .overrun byte

theorem read_answers (uart : Uart) (width : Width) (address : UInt32) :
    (uart.read width address).SignalsOnly uart.Answers := by
  refine .bind (noted_answers uart width address) ?_
  split
  next => exact .pure _
  next =>
    split
    next =>
      split
      next => exact .pure _
      next => exact .pure _
    next => exact .pure _

theorem transmit_answers (uart : Uart) (clock : Clock) (byte : UInt8) :
    (uart.transmit clock byte).SignalsOnly uart.Answers := by
  unfold transmit
  split
  next => exact .bind (.signal (.unsent byte)) (.trivial _) fun _ _ => .pure _
  next =>
    split
    next => exact .bind (.signal (.busy byte)) (.trivial _) fun _ _ => .pure _
    next => exact .bind (.except _) (.trivial _) fun _ _ => .pure _

theorem controlled_answers (uart : Uart) (clock : Clock) (change : Change) :
    (uart.controlled clock change).SignalsOnly uart.Answers := by
  unfold controlled
  split
  next => exact .bind (.signal .disabled) (.trivial _) fun _ _ => .pure _
  next =>
    split
    next => exact .except _
    next => exact .pure _

theorem write_answers (uart : Uart) (clock : Clock) (width : Width) (address value : UInt32) :
    (uart.write clock width address value).SignalsOnly uart.Answers := by
  have stored {signal : Signal} {bank : Bank registers}
      (answers : Answers { uart with bank } signal) : uart.Answers signal := by
    cases answers with
    | access of => exact .access of
    | disabled => exact .disabled
    | refused byte => exact .refused byte
    | overrun byte => exact .overrun byte
    | unsent byte => exact .unsent byte
    | busy byte => exact .busy byte
    | request => exact .request
  refine .bind (.traced (noted_answers uart width address)) (.trivial _) fun found _ => ?_
  cases found with
  | none => exact .pure _
  | some selection =>
      dsimp only
      split
      next => exact (controlled_answers _ clock _).imp fun _ => stored
      next =>
        split
        next => exact (transmit_answers _ clock _).imp fun _ => stored
        next => exact .pure _

theorem receive_owns (uart : Uart) (byte : UInt8) :
    (uart.receive byte).SignalsOnly uart.Owns :=
  (receive_answers uart byte).imp fun _ => Answers.owns

theorem read_owns (uart : Uart) (width : Width) (address : UInt32) :
    (uart.read width address).SignalsOnly uart.Owns :=
  (read_answers uart width address).imp fun _ => Answers.owns

theorem write_owns (uart : Uart) (clock : Clock) (width : Width) (address value : UInt32) :
    (uart.write clock width address value).SignalsOnly uart.Owns :=
  (write_answers uart clock width address value).imp fun _ => Answers.owns

theorem poll_owns (uart : Uart) (clock : Clock) : (uart.poll clock).SignalsOnly uart.Owns := by
  have breaking (other : Uart) : (other.pollBreak clock).SignalsOnly other.Owns := by
    have breaks := other.pollBreak_breaks clock
    generalize other.pollBreak clock = polled at breaks ⊢
    cases breaks with
    | waits => exact .pure _
    | breaks =>
        intro signal signalled
        rcases List.mem_cons.1 signalled with rfl | signalled
        · rfl
        · exact (other.receiveRequest_answers signal signalled).owns
  have sends := uart.pollShifter_sends clock
  unfold poll
  generalize uart.pollShifter clock = polled at sends ⊢
  cases sends with
  | waits => exact .bind (.pure _) (breaking uart)
  | @sends byte =>
      refine .bind ?_ (breaking { uart with shifter := none })
      unfold report
      split <;> simp [Traced.SignalsOnly, Owns]

end Uart

/-! ## Channels -/

namespace Dma.Channel

/-- The signal is one of the channel's. -/
def Owns (channel : Channel) : Signal → Prop
  | .note (.transferStarted number ..) | .note (.transferFault number ..)
  | .note (.transferDone number _) | .note (.writeWhileActive number _) => number = channel.index
  | .note remark => remark.IsOfAccess
  | .interrupt source => source = channel.source
  | .host _ => True
  | .transmit .. => False

theorem Owns.ofAccess {channel : Channel} {remark : Note} (of : remark.IsOfAccess) :
    channel.Owns (.note remark) := by
  cases remark <;> trivial

/-- The signal is one of the channel's and does not tell that a transfer begins. -/
def Continues (channel : Channel) : Signal → Prop
  | .note (.transferStarted ..) => False
  | signal => channel.Owns signal

theorem Continues.owns {channel : Channel} {signal : Signal}
    (continues : channel.Continues signal) : channel.Owns signal := by
  unfold Continues at continues
  split at continues
  next => contradiction
  next => exact continues

theorem Owns.congr {channel other : Channel} (index : other.index = channel.index)
    (source : other.source = channel.source) : other.Owns = channel.Owns := by
  unfold Owns
  rw [index, source]

variable {μ : Type}

theorem noted_continues (channel : Channel) (width : Width) (address : UInt32) :
    (Selection.noted Signal.note "dma" registers width address).SignalsOnly channel.Continues := by
  refine Selection.noted_signalsOnly (fun remark of => ?_) _ _ _ _
  have owns : channel.Owns (.note remark) := .ofAccess of
  cases remark with
  | transferStarted => exact of
  | _ => exact owns

theorem finish_continues (channel : Channel) (clock : Clock) (failed : Bool) :
    (channel.finish clock failed).SignalsOnly channel.Continues := by
  simp [finish, Traced.SignalsOnly, Continues, Owns]

variable [Bus μ]

theorem advance_continues (channel : Channel) (clock : Clock) (memory : μ) (target : UInt32) :
    (channel.advance clock memory target).SignalsOnly channel.Continues := by
  unfold advance
  split
  next => exact .pure _
  next transfer _ =>
    have finishing (position : Transfer.Position) (failed : Bool) :
        ((channel.arrive transfer position).finish clock failed).SignalsOnly channel.Continues :=
      finish_continues (channel.arrive transfer position) clock failed
    refine .bind ?_ ?_
    · intro signal signalled
      obtain ⟨call, _, rfl⟩ := List.mem_map.1 signalled
      exact trivial
    · dsimp only
      split
      next => exact .bind (.signal rfl) (.bind (finishing _ true) (.pure _))
      next =>
        split
        next => exact .bind (finishing _ false) (.pure _)
        next => exact .pure _

theorem catchUp_continues (channel : Channel) (clock : Clock) (memory : μ) :
    (channel.catchUp clock memory).SignalsOnly channel.Continues := by
  unfold catchUp
  split
  next => exact .pure _
  next =>
    split
    next => exact .pure _
    next => exact advance_continues channel clock memory _

theorem catchUp_owns (channel : Channel) (clock : Clock) (memory : μ) :
    (channel.catchUp clock memory).SignalsOnly channel.Owns :=
  (catchUp_continues channel clock memory).imp fun _ => Continues.owns

/-- A channel that has caught up signals as before. -/
theorem owns_catchUp (channel : Channel) (clock : Clock) (memory : μ) :
    (channel.catchUp clock memory).value.1.Owns = channel.Owns := by
  have step := catchUp_step channel clock memory
  exact Owns.congr step.index step.source

theorem read_continues (channel : Channel) (clock : Clock) (memory : μ) (width : Width)
    (address : UInt32) :
    (channel.read clock memory width address).SignalsOnly channel.Continues := by
  refine .bind (catchUp_continues channel clock memory) ?_
  refine .bind (noted_continues channel width address) ?_
  split
  next => exact .pure _
  next => exact .pure _

theorem poll_continues (channel : Channel) (clock : Clock) (memory : μ) :
    (channel.poll clock memory).SignalsOnly channel.Continues := by
  unfold poll
  split
  next => exact .pure _
  next =>
    dsimp only
    split
    next => exact catchUp_continues { channel with transfer := _ } clock memory
    next => exact .pure _

theorem begin_owns (channel : Channel) (clock : Clock) (memory : μ) :
    (channel.begin clock memory).SignalsOnly channel.Owns := by
  unfold begin
  refine .bind (.signal rfl) (.trivial _) fun _ _ => ?_
  split
  next => exact .bind (.except _) (.trivial _) fun _ _ => .pure _
  next =>
    refine .traced (Traced.SignalsOnly.imp ?_ fun _ => Continues.owns)
    exact advance_continues { channel with transfer := _ } clock memory _

theorem start_owns (channel : Channel) (clock : Clock) (memory : μ)
    (source target count control : UInt32) :
    (channel.start clock memory source target count control).SignalsOnly channel.Owns := by
  refine .bind (.traced (catchUp_owns channel clock memory)) (.traced _) ?_
  rintro _ rfl
  have owns := owns_catchUp channel clock memory
  generalize (channel.catchUp clock memory).value = reached at owns ⊢
  obtain ⟨channel, clock, memory⟩ := reached
  rw [← owns]
  dsimp only
  split
  next => exact .pure _
  next =>
    have begins (bank : Bank _) := begin_owns { channel with bank } clock memory
    exact .bind (begins _) (.trivial _) fun _ _ => .pure _

theorem controlled_owns (channel : Channel) (clock : Clock) (memory : μ) (change : Change) :
    (channel.controlled clock memory change).SignalsOnly channel.Owns := by
  unfold controlled
  dsimp only
  split
  next => exact begin_owns { channel with bank := _ } clock memory
  next => exact .pure _

theorem write_owns (channel : Channel) (clock : Clock) (memory : μ) (width : Width)
    (address value : UInt32) :
    (channel.write clock memory width address value).SignalsOnly channel.Owns := by
  refine .bind (.traced (catchUp_owns channel clock memory)) (.traced _) ?_
  rintro _ rfl
  have owns := owns_catchUp channel clock memory
  generalize (channel.catchUp clock memory).value = reached at owns ⊢
  obtain ⟨channel, clock, memory⟩ := reached
  rw [← owns]
  have remarked := (noted_continues channel width address).imp fun _ => Continues.owns
  refine .bind (.traced remarked) (.trivial _) fun found _ => ?_
  cases found with
  | none => exact .pure _
  | some selection =>
      dsimp only
      split
      next => exact .bind (.signal rfl) (.trivial _) fun _ _ => .pure _
      next =>
        split
        next =>
          exact controlled_owns { channel with bank := (channel.bank.write selection value).2 }
            clock memory _
        next => exact .pure _

end Dma.Channel

/-! ## The engine -/

namespace Dma

variable {μ : Type} [Bus μ]

/-- The signal is one of a channel's, or remarks about an access. -/
def Owns (dma : Dma) (signal : Signal) : Prop :=
  signal.IsOfAccess ∨ ∃ index : Fin channelCount, dma.channels[index].Owns signal

theorem Owns.of {dma : Dma} {index : Fin channelCount} {signal : Signal}
    (owns : dma.channels[index].Owns signal) : dma.Owns signal :=
  .inr ⟨index, owns⟩

theorem read_owns (dma : Dma) (clock : Clock) (memory : μ) (width : Width) (address : UInt32) :
    (dma.read clock memory width address).SignalsOnly dma.Owns := by
  unfold read
  split
  next => exact .bind (.signal (.inl trivial)) (.pure _)
  next index offset _ =>
    refine .bind ?_ (.pure _)
    exact (dma.channels[index].read_continues clock memory width offset).imp fun _ continues =>
      .of continues.owns

theorem write_owns (dma : Dma) (clock : Clock) (memory : μ) (width : Width)
    (address value : UInt32) :
    (dma.write clock memory width address value).SignalsOnly dma.Owns := by
  unfold write
  split
  next => exact .bind (.signal (.inl trivial)) (.trivial _) fun _ _ => .pure _
  next index offset _ =>
    refine .bind ?_ (.trivial _) fun _ _ => .pure _
    exact (dma.channels[index].write_owns clock memory width offset value).imp fun _ => .of

theorem start_owns (dma : Dma) (clock : Clock) (memory : μ) (number : Nat)
    (source target count control : UInt32) :
    (dma.start clock memory number source target count control).SignalsOnly dma.Owns := by
  unfold start
  split
  next => exact .pure _
  next index _ =>
    refine .bind ?_ (.trivial _) fun _ _ => .pure _
    exact (dma.channels[index].start_owns clock memory source target count control).imp fun _ => .of

theorem poll_owns (dma : Dma) (clock : Clock) (memory : μ) :
    (dma.poll clock memory).SignalsOnly dma.Owns := by
  have others : (dma.pollChannel clock memory 0).value.1.channels[(1 : Fin channelCount)]
      = dma.channels[(1 : Fin channelCount)] :=
    Parts.getElem_set_of_ne _ _ (by decide)
  refine .bind (.bind ?_ (.pure _)) (.bind ?_ (.pure _))
  · exact (Channel.poll_continues _ clock memory).imp fun _ continues => .of continues.owns
  · intro signal signalled
    have continues := Channel.poll_continues _ _ _ signal signalled
    rw [others] at continues
    exact .of continues.owns

end Dma

end SocPeripherals
