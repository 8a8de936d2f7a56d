import SocPeripherals.Proofs.Late.Uart
import SocPeripherals.Proofs.Uart.Access

/-!
# The queue of received bytes

Whatever is done to an interface, its received bytes are those of a queue that knows of nothing but
the bytes received while the interface was enabled, the reads of the lowest byte of two registers,
and resets. A byte that finds the queue full is dropped, which the overrun bit of the status
register tells of until it has been read. The queue follows every command, and with it every
history.
-/

namespace SocPeripherals

namespace Uart

/-- The received bytes that wait, oldest first, and whether a byte was dropped that no read of the
status register has told of yet. -/
structure Queue where
  bytes : List UInt8 := []
  dropped : Bool := false
deriving DecidableEq, Repr

namespace Queue

/-- What a command makes of a queue with room for so many bytes. -/
def after (queue : Queue) (capacity : Nat) (enabled : Bool) : Command → Queue
  | .receive byte =>
      if !enabled then queue
      else if queue.bytes.length < capacity then { queue with bytes := queue.bytes ++ [byte] }
      else { queue with dropped := true }
  | .read width address =>
      if (registers.get receiveIndex).IsLowest width address then
        { queue with bytes := queue.bytes.tail }
      else if (registers.get statusIndex).IsLowest width address then
        { queue with dropped := false }
      else queue
  | .reset => {}
  | .write .. | .setLine _ | .poll => queue

/-- What a word of the status register shows of a queue. -/
structure Shown (queue : Queue) (word : UInt32) : Prop where
  ready : word &&& 0x1 ≠ 0 ↔ queue.bytes ≠ []
  count : ((word &&& 0x1f00) >>> 8).toNat = min queue.bytes.length 31
  overrun : word &&& overrunBit ≠ 0 ↔ queue.dropped = true

/-- What has become of an interface with room for so many bytes since it was created, and of its
queue. Between the commands the clock moves on, and others use it. -/
inductive History (capacity : Nat) : Uart → Clock → Queue → Prop where
  | start {index : Nat} {source : UInt8} {uart : Uart}
      (created : create index source capacity = .ok uart) (clock : Clock) :
      History capacity uart clock {}
  | perform {uart after : Uart} {clock later : Clock} {queue : Queue}
      (history : History capacity uart clock queue) (command : Command)
      (done : (uart.perform clock command).outcome = .ok (after, later)) :
      History capacity after later (queue.after capacity uart.isEnabled command)
  | aside {uart : Uart} {clock : Clock} {queue : Queue} (history : History capacity uart clock queue)
      (later : Clock) : History capacity uart later queue

/-- The interface holds the bytes of the queue and tells of a dropped one. -/
structure Matches (queue : Queue) (uart : Uart) : Prop where
  received : uart.received = queue.bytes
  overrun : uart.bank.get statusIndex &&& overrunBit ≠ 0 ↔ queue.dropped = true

/-- The interface is the one of the queue, and has room for so many bytes. -/
structure Agrees (capacity : Nat) (queue : Queue) (uart : Uart) : Prop
    extends Matches queue uart where
  room : queue.bytes.length ≤ capacity
  built : uart.Built capacity
  consistent : uart.IsConsistent

end Queue

variable {capacity : Nat} {queue : Queue} {uart after : Uart} {clock later : Clock}
  {width : Width} {address : UInt32}

/-! ## What leaves the queue alone -/

/-- The received bytes are as they were, and so is what the status register stores. -/
structure Retains (uart after : Uart) : Prop where
  received : after.received = uart.received
  status : after.bank.get statusIndex = uart.bank.get statusIndex

theorem Retains.trans (first : Retains uart between) (second : Retains between after) :
    Retains uart after where
  received := second.received.trans first.received
  status := second.status.trans first.status

theorem setLine_retains {high : Bool} (done : uart.setLine clock high = .ok (after, later)) :
    Retains uart after := by
  cases of_setLine done <;> exact ⟨rfl, rfl⟩

theorem Obeys.retains {change : Change} (obeys : Obeys uart clock change after later) :
    Retains uart after := by
  cases obeys <;> exact ⟨rfl, rfl⟩

theorem Transmits.retains {byte : UInt8} (transmits : Transmits uart clock byte after later) :
    Retains uart after := by
  cases transmits <;> exact ⟨rfl, rfl⟩

theorem write_retains (uart : Uart) (clock : Clock) (width : Width) (address value : UInt32) :
    (uart.write clock width address value).Ensures fun (after, _) => Retains uart after := by
  have stored (selection : Selection registers) :
      Retains uart { uart with bank := (uart.bank.write selection value).2 } :=
    ⟨rfl, get_status_write uart.bank selection value⟩
  refine (uart.write_writes clock width address value).imp ?_
  rintro ⟨after, later⟩ writes
  cases writes with
  | missed => exact ⟨rfl, rfl⟩
  | control _ _ obeys => exact (stored _).trans obeys.retains
  | transmit _ _ transmits => exact (stored _).trans transmits.retains
  | store => exact stored _

/-! ## The overrun bit -/

/-- The overrun bit that the status register stores. -/
def overrun (uart : Uart) : UInt32 := uart.bank.get statusIndex &&& overrunBit

/-- The break bit comes and goes without the overrun bit. -/
theorem overrun_setBits_break (bank : Bank registers) :
    (bank.setBits statusIndex breakBit).get statusIndex &&& overrunBit
      = bank.get statusIndex &&& overrunBit := by
  rw [Bank.setBits_and _ (by decide)]
  exact UInt32.or_zero

theorem overrun_clearBits_break (bank : Bank registers) :
    (bank.clearBits statusIndex breakBit).get statusIndex &&& overrunBit
      = bank.get statusIndex &&& overrunBit := by
  rw [Bank.clearBits_and _ (by decide)]
  rfl

theorem overrun_setBits_overrun (bank : Bank registers) :
    (bank.setBits statusIndex overrunBit).get statusIndex &&& overrunBit ≠ 0 := by
  rw [Bank.setBits_and _ (by decide), ne_eq, UInt32.or_eq_zero_iff]
  exact fun none => absurd none.2 (by decide)

/-- A poll sends a byte and reports a break, and receives nothing. -/
theorem poll_keeps (uart : Uart) (clock : Clock) :
    (uart.poll clock).value.received = uart.received ∧
      (uart.poll clock).value.overrun = uart.overrun := by
  have sent : (uart.pollShifter clock).value.received = uart.received ∧
      (uart.pollShifter clock).value.overrun = uart.overrun := by
    have sends := uart.pollShifter_sends clock
    generalize uart.pollShifter clock = polled at sends ⊢
    cases sends <;> exact ⟨rfl, rfl⟩
  have reported : ∀ uart : Uart, (uart.pollBreak clock).value.received = uart.received ∧
      (uart.pollBreak clock).value.overrun = uart.overrun := by
    intro uart
    have breaks := uart.pollBreak_breaks clock
    generalize uart.pollBreak clock = polled at breaks ⊢
    cases breaks with
    | waits => exact ⟨rfl, rfl⟩
    | breaks => exact ⟨rfl, overrun_setBits_break uart.bank⟩
  have last := reported (uart.pollShifter clock).value
  exact ⟨last.1.trans sent.1, last.2.trans sent.2⟩

/-! ## What a read takes -/

theorem received_read (uart : Uart) (width : Width) (address : UInt32) :
    (uart.read width address).value.2.received
      = if (registers.get receiveIndex).IsLowest width address then uart.received.tail
        else uart.received := by
  have looked := (uart.read_looked width address).2
  split at looked
  next missed =>
    rw [looked, if_neg (Selection.not_isLowest_of_missed registers_apart missed)]
  next selection found =>
    rw [looked]
    simp only [Selection.isLowest_iff registers_apart found]
    unfold Uart.looked
    split
    next status =>
      have other : ¬selection.index = receiveIndex := by
        rw [status]
        decide
      exact (if_neg fun covers => other covers.1).symm
    next => exact apply_ite Uart.received _ _ _

/-- A read of the lowest byte of the status register clears the bits that it stores. -/
theorem status_read (uart : Uart) (width : Width) (address : UInt32) {bits : UInt32}
    (stored : (overrunBit ||| breakBit) &&& bits = bits) :
    (uart.read width address).value.2.bank.get statusIndex &&& bits
      = if (registers.get statusIndex).IsLowest width address then 0
        else uart.bank.get statusIndex &&& bits := by
  have looked := (uart.read_looked width address).2
  split at looked
  next missed =>
    rw [looked, if_neg (Selection.not_isLowest_of_missed registers_apart missed)]
  next selection found =>
    rw [looked]
    unfold Uart.looked
    split
    next status =>
      have valid := Selection.ne_invalid_of_find? found
      obtain ⟨contains, lanes⟩ := Selection.contains_of_find? found
      have register : selection.register = registers.get statusIndex :=
        congrArg registers.get status
      rw [register] at contains lanes
      have mask := Register.mask_lane contains valid
      have seen : (overrunBit ||| breakBit) &&& selection.lane.mask
          = (overrunBit ||| breakBit) &&& (selection.lane.mask &&& 0xff) := by
        rw [UInt32.and_comm selection.lane.mask, ← UInt32.and_assoc]
        rfl
      rw [Bank.get_put_self, UInt32.and_assoc, seen, lanes, mask]
      by_cases here : address = (registers.get statusIndex).offset
      · have cleared : ~~~(overrunBit ||| breakBit) &&& bits = 0 := by
          rw [← stored, ← UInt32.and_assoc, UInt32.not_and_self, UInt32.zero_and]
        rw [if_pos here, if_pos ⟨valid, here⟩]
        exact (congrArg _ cleared).trans UInt32.and_zero
      · have kept : ~~~((overrunBit ||| breakBit) &&& 0) &&& bits = bits := UInt32.neg_one_and
        rw [if_neg here, if_neg fun covers => here covers.2, kept]
    next other =>
      have elsewhere : ¬(registers.get statusIndex).IsLowest width address := fun covers =>
        other ((Selection.isLowest_iff registers_apart found).1 covers).1
      rw [if_neg elsewhere]
      split <;> rfl

theorem overrun_read (uart : Uart) (width : Width) (address : UInt32) :
    (uart.read width address).value.2.overrun
      = if (registers.get statusIndex).IsLowest width address then 0 else uart.overrun :=
  status_read uart width address (by decide)

/-! ## What is received -/

/-- A disabled interface receives nothing. -/
theorem receive_of_disabled (disabled : uart.isEnabled = false) (byte : UInt8) :
    (uart.receive byte).value = uart := by
  unfold receive
  rw [disabled]
  rfl

theorem receive_of_room (enabled : uart.isEnabled = true)
    (short : uart.received.length < uart.capacity) (byte : UInt8) :
    (uart.receive byte).value
      = { uart with
          bank := uart.bank.clearBits statusIndex breakBit
          received := uart.received ++ [byte] } := by
  unfold receive
  rw [if_pos enabled, if_pos short]

theorem receive_of_full (enabled : uart.isEnabled = true)
    (full : ¬uart.received.length < uart.capacity) (byte : UInt8) :
    (uart.receive byte).value
      = { uart with
          bank := (uart.bank.clearBits statusIndex breakBit).setBits statusIndex overrunBit } := by
  unfold receive
  rw [if_pos enabled, if_neg full]

theorem receive_matches (agrees : queue.Agrees capacity uart) (byte : UInt8) :
    (queue.after capacity uart.isEnabled (.receive byte)).Matches (uart.receive byte).value := by
  cases enabled : uart.isEnabled with
  | false =>
      rw [receive_of_disabled enabled]
      exact agrees.toMatches
  | true =>
      have waiting : uart.received.length < uart.capacity ↔ queue.bytes.length < capacity := by
        rw [agrees.received, agrees.built.capacity]
      by_cases short : queue.bytes.length < capacity
      · have appended : queue.after capacity true (.receive byte)
            = { queue with bytes := queue.bytes ++ [byte] } := if_pos short
        rw [receive_of_room enabled (waiting.2 short), appended]
        refine ⟨congrArg (· ++ [byte]) agrees.received, ?_⟩
        rw [overrun_clearBits_break]
        exact agrees.overrun
      · have lost : queue.after capacity true (.receive byte) = { queue with dropped := true } :=
          if_neg short
        rw [receive_of_full enabled (mt waiting.1 short), lost]
        exact ⟨agrees.received, iff_of_true (overrun_setBits_overrun _) rfl⟩

/-! ## Commands -/

theorem read_matches (fit : queue.Matches uart) (enabled : Bool) (width : Width)
    (address : UInt32) :
    (queue.after capacity enabled (.read width address)).Matches
      (uart.read width address).value.2 := by
  suffices follows : (uart.read width address).value.2.received
        = (queue.after capacity enabled (.read width address)).bytes ∧
      ((uart.read width address).value.2.overrun ≠ 0 ↔
        (queue.after capacity enabled (.read width address)).dropped = true) from
    ⟨follows.1, follows.2⟩
  rw [received_read, overrun_read, Queue.after, fit.received]
  split
  next receive =>
    have elsewhere : ¬(registers.get statusIndex).IsLowest width address := by
      intro status
      exact absurd (receive.2.symm.trans status.2) (by decide)
    rw [if_neg elsewhere]
    exact ⟨rfl, fit.overrun⟩
  next =>
    split
    next => exact ⟨rfl, by simp⟩
    next => exact ⟨rfl, fit.overrun⟩

theorem reset_matches (built : uart.bank.Built) (clock : Clock) :
    Queue.Matches {} (uart.reset clock).1 := by
  have clear : (uart.reset clock).1.bank = Bank.initial registers :=
    Bank.reset_eq_initial built.resets
  refine ⟨rfl, ?_⟩
  rw [clear]
  decide

theorem length_after_le (room : queue.bytes.length ≤ capacity) (enabled : Bool)
    (command : Command) : (queue.after capacity enabled command).bytes.length ≤ capacity := by
  cases command with
  | receive byte =>
      dsimp only [Queue.after]
      split
      next => exact room
      next =>
        split
        next short =>
          rw [List.length_append]
          exact short
        next => exact room
  | read width address =>
      dsimp only [Queue.after]
      split
      next =>
        rw [List.length_tail]
        exact (Nat.sub_le _ _).trans room
      next => split <;> exact room
  | reset => exact Nat.zero_le _
  | _ => exact room

/-- The queue follows every command. -/
theorem perform_matches (agrees : queue.Agrees capacity uart) {command : Command}
    (done : (uart.perform clock command).outcome = .ok (after, later)) :
    (queue.after capacity uart.isEnabled command).Matches after := by
  have unchanged (retains : Retains uart after) : queue.Matches after := by
    refine ⟨retains.received.trans agrees.received, ?_⟩
    rw [retains.status]
    exact agrees.overrun
  cases command with
  | read width address =>
      cases done
      exact read_matches agrees.toMatches _ width address
  | write width address value =>
      exact unchanged (write_retains uart clock width address value _ done)
  | receive byte =>
      cases done
      exact receive_matches agrees byte
  | setLine high => exact unchanged (setLine_retains done)
  | poll =>
      cases done
      have keeps := poll_keeps uart clock
      constructor
      · exact keeps.1.trans agrees.received
      · exact (Eq.congr_left keeps.2).not.trans agrees.overrun
  | reset =>
      cases done
      exact reset_matches agrees.built.bank clock

theorem Queue.Agrees.perform (agrees : queue.Agrees capacity uart) {command : Command}
    (done : (uart.perform clock command).outcome = .ok (after, later)) :
    (queue.after capacity uart.isEnabled command).Agrees capacity after where
  toMatches := perform_matches agrees done
  room := length_after_le agrees.room uart.isEnabled command
  built := (perform_does done).built agrees.built
  consistent := (perform_does done).isConsistent nofun agrees.built.bank agrees.consistent

theorem Queue.agrees_create {index : Nat} {source : UInt8}
    (created : create index source capacity = .ok uart) : Queue.Agrees capacity {} uart := by
  have clear : (Bank.initial registers).get statusIndex = 0 := by decide
  cases of_create created
  refine ⟨⟨rfl, ?_⟩, Nat.zero_le _, ⟨rfl, rfl, Bank.fits_initial (by decide)⟩,
    isConsistent_of_idle rfl rfl ?_⟩
  · rw [clear]
    decide
  · rw [clear]
    decide

theorem Queue.History.agrees (history : Queue.History capacity uart clock queue) :
    queue.Agrees capacity uart := by
  induction history with
  | start created clock => exact Queue.agrees_create created
  | perform _ command done agrees => exact agrees.perform done
  | aside _ later agrees => exact agrees

/-- However an interface is used, its received bytes are those of the queue, which has room for
them; reads of the lowest byte of the receive register answer with the oldest byte, and reads of the
status register show the queue in the lanes that they cover, the overrun bit in the lowest byte
alone. -/
theorem queue_of_history (history : Queue.History capacity uart clock queue) :
    uart.received = queue.bytes ∧ queue.bytes.length ≤ capacity ∧
      (∀ command, ∃ result, (uart.perform clock command).outcome = .ok result) ∧
      (∀ byte, uart.isEnabled = false → (uart.receive byte).value = uart) ∧
      (∀ width address, (registers.get receiveIndex).IsLowest width address →
        (uart.read width address).value.1 = (queue.bytes.headD 0).toUInt32) ∧
      ∀ width address, width ≠ .invalid → (registers.get statusIndex).Contains address →
        ∃ word, queue.Shown word ∧
          let lane := (registers.get statusIndex).lane width address
          let answer := (uart.read width address).value.1
          answer = lane.extract word ∧
            if address = (registers.get statusIndex).offset then
              answer &&& overrunBit ≠ 0 ↔ queue.dropped = true
            else answer = lane.extract (word &&& ~~~overrunBit) := by
  have agrees := history.agrees
  refine ⟨agrees.received, agrees.room, perform_ends uart clock, ?_, ?_, ?_⟩
  · exact fun byte disabled => receive_of_disabled disabled byte
  · intro width address covers
    rw [read_receive covers, agrees.received]
  · intro width address valid contains
    obtain ⟨word, displays, answers⟩ := read_status agrees.consistent valid contains
    refine ⟨word, ⟨?_, ?_, ?_⟩, answers, ?_⟩
    · rw [← agrees.received]
      exact displays.ready
    · rw [← agrees.received]
      exact displays.count
    · exact displays.overrun.trans agrees.overrun
    · have mask := Register.mask_lane contains valid
      split
      next here =>
        have lowest : ((registers.get statusIndex).lane width address).IsLowest :=
          Register.IsLowest.lane ⟨valid, here⟩ (by decide)
        rw [answers, lowest.extract_and word (by decide)]
        exact displays.overrun.trans agrees.overrun
      next above =>
        rw [if_neg above] at mask
        rw [answers, Lane.extract_without word (and_eq_zero_of_within mask (by decide))]

/-- The second byte finds the queue of an enabled interface full. -/
theorem queue_of_history_full :
    ∃ (uart : Uart) (clock : Clock), Queue.History 1 uart clock ⟨[7], true⟩ ∧
      uart.received = [7] ∧ (uart.read .word 0x10).value.1 = 7 ∧
        (uart.read .byte 0x08).value.1 &&& overrunBit ≠ 0 := by
  have created : create 0 9 1 = .ok { index := 0, source := 9, capacity := 1 } := rfl
  have enabled := (Queue.History.start created {}).perform (.write .word 0x00 0x100) rfl
  have waiting := enabled.perform (.receive 7) rfl
  have full := waiting.perform (.receive 8) rfl
  obtain ⟨received, -, -, -, oldest, shows⟩ := queue_of_history full
  obtain ⟨word, -, -, overrun⟩ := shows .byte 0x08 (by decide) (by decide)
  refine ⟨_, _, full, received, oldest .word 0x10 (by decide), ?_⟩
  rw [if_pos (by decide)] at overrun
  exact overrun.2 rfl

end Uart

end SocPeripherals
