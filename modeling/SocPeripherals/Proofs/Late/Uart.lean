import SocPeripherals.Proofs.Late.Passed
import SocPeripherals.Proofs.Uart

/-!
# Serial interfaces polled late

The byte in the shifter and the break are handled once each, whether an interface is polled on the
way or not, and neither takes notice of the other.
-/

namespace SocPeripherals

namespace Uart

open Traced (SameEffect)

variable {uart : Uart} {clock first second other : Clock} {before rest : UInt64}

theorem pollShifter_congr (now : other.now = clock.now) (uart : Uart) :
    uart.pollShifter other = uart.pollShifter clock := by
  unfold pollShifter
  simp only [Clock.hasReached_congr now]

theorem pollBreak_congr (now : other.now = clock.now) (uart : Uart) :
    uart.pollBreak other = uart.pollBreak clock := by
  unfold pollBreak
  rw [Clock.claim_congr now]

theorem poll_congr (now : other.now = clock.now) (uart : Uart) :
    uart.poll other = uart.poll clock := by
  unfold poll
  rw [pollShifter_congr now]
  congr 1
  funext between
  exact pollBreak_congr now between

/-- The byte in the shifter is sent once. -/
theorem pollShifter_twice (passed : Clock.Passed clock first second before rest)
    (near : ∀ deadline ∈ uart.held, clock.distance deadline.time < Clock.horizon) :
    (do (← uart.pollShifter first).pollShifter second) = uart.pollShifter second := by
  cases sending : uart.shifter with
  | none => rw [pollShifter_of_idle sending, pure_bind]
  | some pair =>
      obtain ⟨byte, deadline⟩ := pair
      by_cases reached : first.hasReached deadline.time = true
      · have known : deadline ∈ uart.held :=
          Multiset.mem_add.2 (.inl (Deadline.mem_single.2 (by rw [sending]; rfl)))
        have later := (passed.reached (near deadline known) reached).1
        rw [pollShifter_of_reached sending reached, pollShifter_of_reached sending later]
        exact congrArg (Traced.mk _) (List.append_nil _)
      · rw [pollShifter_of_ahead sending reached, pure_bind]

/-- Before its deadlines an interface is left alone. -/
theorem poll_of_ahead (ahead : ∀ deadline ∈ uart.held, clock.hasReached deadline.time = false) :
    uart.poll clock = pure uart := by
  have quiet : uart.pollShifter clock = pure uart := by
    cases sending : uart.shifter with
    | none => exact pollShifter_of_idle sending clock
    | some pair =>
        refine pollShifter_of_ahead sending (Bool.not_eq_true _ ▸ ahead pair.2 ?_)
        exact Multiset.mem_add.2 (.inl (Deadline.mem_single.2 (by rw [sending]; rfl)))
  unfold poll
  rw [quiet, pure_bind]
  cases timed : uart.breakDue with
  | none => exact pollBreak_of_none timed clock
  | some deadline =>
      refine pollBreak_of_ahead timed (Bool.not_eq_true _ ▸ ahead deadline ?_)
      exact Multiset.mem_add.2 (.inr (Deadline.mem_single.2 timed))

/-- A break is reported once. -/
theorem pollBreak_twice (passed : Clock.Passed clock first second before rest)
    (near : ∀ deadline ∈ uart.breakDue, clock.distance deadline.time < Clock.horizon) :
    (do (← uart.pollBreak first).pollBreak second) = uart.pollBreak second := by
  cases timed : uart.breakDue with
  | none => rw [pollBreak_of_none timed, pure_bind]
  | some deadline =>
      by_cases reached : first.hasReached deadline.time = true
      · have later := (passed.reached (near deadline timed) reached).1
        rw [pollBreak_of_reached timed reached, pollBreak_of_reached timed later]
        exact congrArg (Traced.mk _) (List.append_nil _)
      · rw [pollBreak_of_ahead timed reached, pure_bind]

theorem pollBreak_cases (uart : Uart) (clock : Clock) :
    (∀ shifter, ({ uart with shifter } : Uart).pollBreak clock = pure { uart with shifter }) ∨
      ∀ shifter, ({ uart with shifter } : Uart).pollBreak clock
        = ⟨{ uart with
            shifter, breakDue := none, bank := uart.bank.setBits statusIndex breakBit },
          .note (.breakDetected uart.index) :: uart.receiveRequest⟩ := by
  cases uart.breakDue with
  | none => exact .inl fun shifter => pollBreak_of_none rfl clock
  | some deadline =>
      by_cases reached : clock.hasReached deadline.time = true
      · exact .inr fun shifter => pollBreak_of_reached rfl reached
      · exact .inl fun shifter => pollBreak_of_ahead rfl reached

theorem pollShifter_cases (uart : Uart) (clock : Clock) :
    (∀ bank breakDue, ({ uart with bank, breakDue } : Uart).pollShifter clock
        = pure { uart with bank, breakDue }) ∨
      ∃ byte, ∀ bank breakDue, ({ uart with bank, breakDue } : Uart).pollShifter clock
        = ⟨{ uart with bank, breakDue, shifter := none },
          ({ uart with bank, breakDue } : Uart).report byte⟩ := by
  cases uart.shifter with
  | none => exact .inl fun _ _ => pollShifter_of_idle rfl clock
  | some pair =>
      by_cases reached : clock.hasReached pair.2.time = true
      · exact .inr ⟨pair.1, fun _ _ => pollShifter_of_reached rfl reached⟩
      · exact .inl fun _ _ => pollShifter_of_ahead rfl reached

/-- Sending a byte changes nothing but the shifter. -/
theorem pollShifter_leaves (uart : Uart) (clock : Clock) :
    ∃ shifter, (uart.pollShifter clock).value = { uart with shifter } := by
  have sends := uart.pollShifter_sends clock
  generalize uart.pollShifter clock = polled at sends ⊢
  cases sends <;> exact ⟨_, rfl⟩

/-- A break does not change what the control register asks for. -/
theorem report_setBits (uart : Uart) (breakDue : Option Deadline) (byte : UInt8) :
    ({ uart with
      breakDue, bank := uart.bank.setBits statusIndex breakBit } : Uart).report byte
      = uart.report byte := by
  have control : (uart.bank.setBits statusIndex breakBit).get controlIndex
      = uart.bank.get controlIndex := Bank.get_put_of_ne _ (by decide) _
  unfold report controls
  rw [control]

/-- A request for an interrupt sends nothing. -/
theorem sent_receiveRequest (uart : Uart) (port : Nat) :
    uart.receiveRequest.filterMap (Signal.sent? port) = [] := by
  unfold receiveRequest
  split <;> rfl

theorem sent_pollBreak (uart : Uart) (clock : Clock) (port : Nat) :
    (uart.pollBreak clock).signals.filterMap (Signal.sent? port) = [] := by
  have breaks := uart.pollBreak_breaks clock
  generalize uart.pollBreak clock = polled at breaks ⊢
  cases breaks with
  | waits => rfl
  | breaks => exact sent_receiveRequest uart port

/-- A break does not depend on the shifter. -/
theorem pollBreak_shifter (uart : Uart) (clock : Clock) (shifter : Option (UInt8 × Deadline)) :
    (({ uart with shifter } : Uart).pollBreak clock).value
        = { (uart.pollBreak clock).value with shifter } ∧
      (({ uart with shifter } : Uart).pollBreak clock).signals
        = (uart.pollBreak clock).signals := by
  rcases pollBreak_cases uart clock with quiet | breaks
  · rw [show uart.pollBreak clock = pure uart from quiet uart.shifter, quiet shifter]
    exact ⟨rfl, rfl⟩
  · rw [show uart.pollBreak clock = _ from breaks uart.shifter, breaks shifter]
    exact ⟨rfl, rfl⟩

/-- The shifter does not depend on a break. -/
theorem pollShifter_pollBreak (uart : Uart) (first second : Clock) :
    ((uart.pollBreak first).value.pollShifter second).value
        = { (uart.pollBreak first).value with
            shifter := (uart.pollShifter second).value.shifter } ∧
      ((uart.pollBreak first).value.pollShifter second).signals
        = (uart.pollShifter second).signals := by
  rcases pollBreak_cases uart first with quiet | breaks
  · obtain ⟨shifter, same⟩ := pollShifter_leaves uart second
    rw [show uart.pollBreak first = pure uart from quiet uart.shifter, Traced.value_pure, same]
    exact ⟨rfl, rfl⟩
  · rw [show uart.pollBreak first = _ from breaks uart.shifter]
    dsimp only
    rcases pollShifter_cases uart second with still | ⟨byte, sends⟩
    · rw [show uart.pollShifter second = pure uart from still uart.bank uart.breakDue, still _ none]
      exact ⟨rfl, rfl⟩
    · rw [show uart.pollShifter second = _ from sends uart.bank uart.breakDue, sends _ none]
      exact ⟨rfl, report_setBits uart none byte⟩

/-- A break and the byte in the shifter may be handled in either order. -/
theorem pollBreak_pollShifter (uart : Uart) (first second : Clock) :
    SameEffect (do (← uart.pollBreak first).pollShifter second)
      (do (← uart.pollShifter second).pollBreak first) := by
  obtain ⟨shifter, same⟩ := pollShifter_leaves uart second
  obtain ⟨shifted, sends⟩ := uart.pollShifter_pollBreak first second
  obtain ⟨broken, breaks⟩ := uart.pollBreak_shifter first shifter
  refine .comm ?_ sends ?_ (uart.sent_pollBreak first)
  · rw [shifted, same]
    exact broken
  · rw [same]
    exact breaks

theorem breakDue_pollShifter (uart : Uart) (clock : Clock) :
    (uart.pollShifter clock).value.breakDue = uart.breakDue := by
  obtain ⟨shifter, same⟩ := pollShifter_leaves uart clock
  rw [same]

/-- A poll on the way makes no difference to an interface, if its deadlines lay ahead. -/
theorem poll_twice (passed : Clock.Passed clock first second before rest)
    (near : ∀ deadline ∈ uart.held, clock.distance deadline.time < Clock.horizon) :
    SameEffect (do (← uart.poll first).poll second) (uart.poll second) := by
  have nearBreak : ∀ deadline ∈ (uart.pollShifter second).value.breakDue,
      clock.distance deadline.time < Clock.horizon := fun deadline timed =>
    near deadline (Multiset.mem_add.2 (.inr (Deadline.mem_single.2
      (breakDue_pollShifter uart second ▸ timed))))
  -- The break of the first poll is put off until after the second look at the shifter.
  have swapped : SameEffect (do (← uart.poll first).poll second) (do
      let sent ← uart.pollShifter first
      let further ← sent.pollShifter second
      let broken ← further.pollBreak first
      broken.pollBreak second) := by
    unfold poll
    rw [bind_assoc]
    refine .bind (.ofEq rfl) ?_
    rw [← bind_assoc, ← bind_assoc]
    exact .bind (pollBreak_pollShifter _ first second) (.ofEq rfl)
  have once : (do
      let sent ← uart.pollShifter first
      let further ← sent.pollShifter second
      let broken ← further.pollBreak first
      broken.pollBreak second) = (do
      let further ← uart.pollShifter second
      let broken ← further.pollBreak first
      broken.pollBreak second) := by
    rw [← pollShifter_twice passed near, bind_assoc]
  rw [once] at swapped
  exact swapped.trans (.bind (.ofEq rfl) (.ofEq (pollBreak_twice passed nearBreak)))

/-- An interface sends on its own port only. -/
theorem sent_poll_of_ne {port : Nat} (apart : uart.index ≠ port) (clock : Clock) :
    (uart.poll clock).signals.filterMap (Signal.sent? port) = [] := by
  have shifting : (uart.pollShifter clock).signals.filterMap (Signal.sent? port) = [] := by
    have sends := uart.pollShifter_sends clock
    generalize uart.pollShifter clock = polled at sends ⊢
    cases sends with
    | waits => rfl
    | sends =>
        unfold report
        split <;> simp [Signal.sent?, apart]
  unfold poll
  rw [Traced.signals_bind, List.filterMap_append, shifting, sent_pollBreak]
  rfl

theorem snapshot_now (now : second.now = first.now) (uart : Uart) :
    uart.snapshot second = uart.snapshot first := by
  have same : second.remaining = first.remaining :=
    funext fun deadline => Clock.remaining_congr now rfl
  unfold snapshot
  rw [same]

end Uart

end SocPeripherals
