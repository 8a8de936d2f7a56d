import SocPeripherals.Proofs.Dma.Channel

/-!
# Transfers in pieces

A transfer moves its units whenever the channel is looked at, so that it comes in pieces. Moving
some units and then some more is moving them together, since all that a piece needs of those
before it stands in the registers. `Stage` says how far a transfer has come that was asked for so
many units, by what the channel, the memory and the signals tell; it does not tell in which pieces
the units were moved.
-/

namespace SocPeripherals

/-- The source of an interrupt that is asked for. -/
def Signal.interrupt? : Signal → Option UInt8
  | .interrupt source => some source
  | _ => none

/-- The access to the host's memory, if the signal is one. -/
def Signal.host? : Signal → Option BusCall
  | .host call => some call
  | _ => none

namespace Transfer

variable {μ : Type} [Bus μ] {transfer other : Transfer}

/-- The calls from before stay at the end. -/
theorem moveUnit_calls (transfer : Transfer) (position : Position) (memory : μ)
    (calls : List BusCall) :
    transfer.moveUnit position memory calls =
      { transfer.moveUnit position memory [] with
        calls := (transfer.moveUnit position memory []).calls ++ calls } := by
  unfold moveUnit
  dsimp only
  split
  next => rfl
  next => split <;> rfl

theorem moveUnits_calls (transfer : Transfer) (count : Nat) (position : Position) (memory : μ)
    (calls : List BusCall) :
    transfer.moveUnits count position memory calls =
      { transfer.moveUnits count position memory [] with
        calls := (transfer.moveUnits count position memory []).calls ++ calls } := by
  induction count generalizing position memory calls with
  | zero => rfl
  | succ count ih =>
      rw [moveUnits, moveUnits, moveUnit_calls]
      dsimp only
      split
      next => rfl
      next =>
        rw [ih _ _ (_ ++ calls), ih _ _ (moveUnit _ _ _ _).calls]
        simp

/-- Moving some units and then some more, unless the memory refuses an access. -/
theorem moveUnits_add (transfer : Transfer) (first second : Nat) (position : Position)
    (memory : μ) (calls : List BusCall) :
    transfer.moveUnits (first + second) position memory calls =
      let progress := transfer.moveUnits first position memory calls
      match progress.refusal with
      | some _ => progress
      | none => transfer.moveUnits second progress.position progress.memory progress.calls := by
  induction first generalizing position memory calls with
  | zero => rw [Nat.zero_add]; rfl
  | succ first ih =>
      rw [Nat.succ_add, moveUnits, moveUnits]
      dsimp only
      cases refused : (transfer.moveUnit position memory calls).refusal with
      | none => exact ih _ _ _
      | some refusal => simp only [refused]

/-- What is moved depends on the unit and the steps alone. -/
theorem moveUnits_congr (unit : other.unit = transfer.unit)
    (sourceStep : other.sourceStep = transfer.sourceStep)
    (targetStep : other.targetStep = transfer.targetStep) (count : Nat) (position : Position)
    (memory : μ) (calls : List BusCall) :
    other.moveUnits count position memory calls
      = transfer.moveUnits count position memory calls := by
  have single (position : Position) (memory : μ) (calls : List BusCall) :
      other.moveUnit position memory calls = transfer.moveUnit position memory calls := by
    unfold moveUnit advance
    rw [unit, sourceStep, targetStep]
  induction count generalizing position memory calls with
  | zero => rfl
  | succ count ih =>
      rw [moveUnits, moveUnits, single]
      split
      next => rfl
      next => exact ih _ _ _

end Transfer

namespace Dma

/-- All registers are as wide as a word. -/
theorem Registers.set_eq_put (bank : Bank registers) (index : Fin registers.length)
    (value : UInt32) : bank.set index value = bank.put index value := by
  have whole : ∀ index : Fin registers.length, (registers.get index).width.mask = 0xffffffff := by
    decide
  unfold Bank.set
  rw [whole index]
  exact congrArg (bank.put index) UInt32.and_neg_one

namespace Channel

variable {μ : Type} {channel after : Channel} {clock later : Clock} {transfer other : Transfer}
  {memory there : μ} {signals : List Signal} {units count : Nat}

theorem transfer_arrive (channel : Channel) (transfer : Transfer)
    (position : Transfer.Position) :
    (channel.arrive transfer position).transfer
      = some { transfer with moved := position.moved } := rfl

/-- Where a channel has come to stands in its registers. -/
theorem position_arrive (channel : Channel) (transfer other : Transfer)
    (position : Transfer.Position) :
    (channel.arrive transfer position).position { other with moved := position.moved }
      = position := by
  unfold arrive Channel.position
  dsimp only
  rw [Registers.set_eq_put, Registers.set_eq_put, Registers.set_eq_put]
  congr 1
  · rw [Bank.get_put_of_ne _ (by decide), Bank.get_put_of_ne _ (by decide), Bank.get_put_self]
  · rw [Bank.get_put_of_ne _ (by decide), Bank.get_put_self]
  · rw [Bank.get_put_self]

/-- Where a channel has been is forgotten. -/
theorem arrive_arrive (channel : Channel) (transfer : Transfer) (moved : UInt32)
    (first second : Transfer.Position) :
    (channel.arrive transfer first).arrive { transfer with moved } second
      = channel.arrive transfer second := by
  unfold arrive
  dsimp only
  congr 1
  refine Bank.ext_get (fun index => ?_) rfl
  simp only [Registers.set_eq_put, Bank.get_put]
  split_ifs <;> rfl

/-- A channel that has come nowhere. -/
theorem arrive_position (active : channel.transfer = some transfer) :
    channel.arrive transfer (channel.position transfer) = channel := by
  obtain ⟨index, source, cyclesPerUnit, bank, _⟩ := channel
  cases active
  unfold arrive Channel.position
  dsimp only
  congr 1
  refine Bank.ext_get (fun index => ?_) rfl
  simp only [Registers.set_eq_put, Bank.get_put]
  split_ifs with left target source
  · rw [left]
  · rw [target]
  · rw [source]
  · rfl

theorem toNat_dueUnits (channel : Channel) (clock : Clock) (transfer : Transfer) :
    (channel.dueUnits clock transfer).toNat =
      min ((clock.now - transfer.startedAt).toNat / channel.cyclesPerUnit.toNat) 0xffffffff := by
  unfold dueUnits
  dsimp only
  rw [← UInt64.toNat_div]
  generalize (clock.now - transfer.startedAt) / channel.cyclesPerUnit = due
  split
  next few =>
    have bound : due.toNat ≤ 0xffffffff := UInt64.le_iff_toNat_le.1 few
    rw [UInt64.toNat_toUInt32, Nat.mod_eq_of_lt (Nat.lt_succ_of_le bound), Nat.min_eq_left bound]
  next many =>
    rw [UInt64.not_le, UInt64.lt_iff_toNat_lt] at many
    exact (Nat.min_eq_right many.le).symm

/-- A transfer that has ended where it has come to. -/
def concluded (channel : Channel) (transfer : Transfer) (progress : Transfer.Progress μ) :
    Channel :=
  let idle := (channel.arrive transfer progress.position).bank.clearBits controlIndex startBit
  { channel with
    bank := if progress.refusal.isSome then idle.setBits controlIndex errorBit
      else idle.set countIndex 0
    transfer := none }

variable [Bus μ]

/-- How far a transfer comes with so many more units, as far as the memory takes them. -/
def reach (channel : Channel) (transfer : Transfer) (memory : μ) (units : Nat) :
    Transfer.Progress μ :=
  transfer.moveUnits units (channel.position transfer) memory []

/-- With so many more units the transfer is over: they are all, or the memory refuses one. -/
def Ends (channel : Channel) (transfer : Transfer) (memory : μ) (units : Nat) : Prop :=
  (channel.reach transfer memory units).refusal ≠ none ∨
    transfer.moved.toNat + units = transfer.total.toNat

/-- A transfer of the channel that stood at a first moment has been asked for so many units since.
What is left of it by now, in what memory, and what was signalled. -/
structure Stage (channel : Channel) (transfer : Transfer) (memory : μ) (units : Nat)
    (after : Channel) (there : μ) (signals : List Signal) : Prop where
  within : transfer.moved.toNat + units ≤ transfer.total.toNat
  contents : there = (channel.reach transfer memory units).memory
  calls : signals.filterMap Signal.host? = (channel.reach transfer memory units).calls.reverse
  going : ¬ channel.Ends transfer memory units →
    after = channel.arrive transfer (channel.reach transfer memory units).position ∧
      signals.filterMap Signal.interrupt? = []
  finished : channel.Ends transfer memory units →
    after = channel.concluded transfer (channel.reach transfer memory units) ∧
      signals.filterMap Signal.interrupt? = [channel.source]

/-- As long as the memory refuses nothing, all the units asked for are moved. -/
theorem moved_reach (taken : (channel.reach transfer memory units).refusal = none) :
    (channel.reach transfer memory units).position.moved
      = transfer.moved + UInt32.ofNat units := by
  obtain ⟨all, _, there, whole⟩ := transfer.moved_moveUnits units (channel.position transfer)
    memory []
  rw [reach, there, whole.1 taken]
  rfl

/-- What the memory has refused stays so. -/
theorem reach_of_refused (refused : (channel.reach transfer memory units).refusal ≠ none)
    (le : units ≤ count) :
    channel.reach transfer memory count = channel.reach transfer memory units := by
  obtain ⟨more, rfl⟩ := Nat.exists_eq_add_of_le le
  obtain ⟨refusal, refusing⟩ := Option.ne_none_iff_exists'.1 refused
  have parts := transfer.moveUnits_add units more (channel.position transfer) memory []
  unfold reach at *
  rw [parts]
  dsimp only
  rw [refusing]

theorem Ends.mono (ends : channel.Ends transfer memory units) (le : units ≤ count)
    (within : transfer.moved.toNat + count ≤ transfer.total.toNat) :
    channel.Ends transfer memory count := by
  rcases ends with refused | all
  · rw [Ends, reach_of_refused refused le]
    exact .inl refused
  · exact .inr (by omega)

/-- What has been moved makes no difference to how more units are moved. -/
theorem reach_add (taken : (channel.reach transfer memory units).refusal = none) (more : Nat)
    (same : other = { transfer with
      moved := (channel.reach transfer memory units).position.moved }) :
    ∃ progress : Transfer.Progress μ,
      (channel.arrive transfer (channel.reach transfer memory units).position).reach other
        (channel.reach transfer memory units).memory more = progress ∧
      channel.reach transfer memory (units + more) =
        { progress with
          calls := progress.calls ++ (channel.reach transfer memory units).calls } := by
  refine ⟨_, rfl, ?_⟩
  subst same
  have parts := transfer.moveUnits_add units more (channel.position transfer) memory []
  unfold reach at *
  rw [parts]
  generalize transfer.moveUnits units (channel.position transfer) memory [] = first at *
  have unmoved : Transfer.moveUnits { transfer with moved := first.position.moved } more
      first.position first.memory [] = transfer.moveUnits more first.position first.memory [] :=
    Transfer.moveUnits_congr (by rfl) (by rfl) (by rfl) more first.position first.memory []
  dsimp only
  rw [taken, position_arrive, unmoved]
  exact transfer.moveUnits_calls more first.position first.memory first.calls

/-- How many units a transfer has been asked for that was asked for some before and is now asked
to come to a target. -/
def asked (transfer : Transfer) (units : Nat) (target : UInt32) : Nat :=
  max units (min target.toNat transfer.total.toNat - transfer.moved.toNat)

/-- A transfer that is over stays so, however many more units are asked for. -/
theorem Stage.stays (stage : Stage channel transfer memory units after there signals)
    (ends : channel.Ends transfer memory units) (le : units ≤ count)
    (within : transfer.moved.toNat + count ≤ transfer.total.toNat) :
    Stage channel transfer memory count after there signals := by
  have same : channel.reach transfer memory count = channel.reach transfer memory units := by
    rcases ends with refused | all
    · exact reach_of_refused refused le
    · have equal : count = units := by omega
      rw [equal]
  obtain ⟨ended, interrupts⟩ := stage.finished ends
  exact {
    within := within
    contents := by rw [same]; exact stage.contents
    calls := by rw [same]; exact stage.calls
    going := fun goes => absurd (ends.mono le within) goes
    finished := fun _ => by rw [same]; exact ⟨ended, interrupts⟩ }

/-- The transfer is on its way, and the memory has taken all that was asked for. -/
theorem taken_of_going (goes : ¬ channel.Ends transfer memory units) :
    (channel.reach transfer memory units).refusal = none :=
  Decidable.not_not.1 fun refused => goes (.inl refused)

omit [Bus μ] in
/-- The memory accesses are told of as they are. -/
theorem host?_calls (calls : List BusCall) (rest : List Signal) :
    (calls.map Signal.host ++ rest).filterMap Signal.host?
      = calls ++ rest.filterMap Signal.host? := by
  rw [List.filterMap_append, List.filterMap_map]
  exact congrArg (· ++ _) List.filterMap_some

theorem interrupt?_calls (calls : List BusCall) (rest : List Signal) :
    (calls.map Signal.host ++ rest).filterMap Signal.interrupt?
      = rest.filterMap Signal.interrupt? := by
  rw [List.filterMap_append, List.filterMap_map]
  exact congrArg (· ++ _) (List.filterMap_eq_nil_iff.2 fun _ _ => rfl)

/-- What an advance leaves and signals, by the units that it moves. -/
theorem advance_spec (active : channel.transfer = some transfer) (clock : Clock) (memory : μ)
    (target : UInt32) :
    let progress := channel.reach transfer memory (transfer.outstanding target)
    let moved := channel.advance clock memory target
    moved.value.2.2 = progress.memory ∧
      moved.signals.filterMap Signal.host? = progress.calls.reverse ∧
      (¬ (progress.refusal ≠ none ∨ progress.position.moved = transfer.total) →
        moved.value.1 = channel.arrive transfer progress.position ∧
          moved.signals.filterMap Signal.interrupt? = []) ∧
      (progress.refusal ≠ none ∨ progress.position.moved = transfer.total →
        moved.value.1 = channel.concluded transfer progress ∧
          moved.signals.filterMap Signal.interrupt? = [channel.source]) := by
  unfold Channel.advance reach
  rw [active]
  dsimp only
  generalize transfer.moveUnits (transfer.outstanding target) (channel.position transfer) memory []
    = progress
  obtain ⟨position, there, refusal, calls⟩ := progress
  cases refusal with
  | some refusal =>
      refine ⟨rfl, (host?_calls _ _).trans (List.append_nil _), fun goes => ?_, fun _ => ?_⟩
      · exact absurd (.inl (Option.some_ne_none refusal)) goes
      · exact ⟨rfl, interrupt?_calls _ _⟩
  | none =>
      dsimp only
      split
      next all =>
        refine ⟨rfl, (host?_calls _ _).trans (List.append_nil _), fun goes => ?_, fun _ => ?_⟩
        · exact absurd (.inr all) goes
        · exact ⟨rfl, interrupt?_calls _ _⟩
      next few =>
        refine ⟨rfl, (host?_calls _ _).trans (List.append_nil _), fun _ => ?_, fun finished => ?_⟩
        · exact ⟨rfl, interrupt?_calls _ _⟩
        · exact absurd (finished.resolve_left fun refused => refused rfl) few

omit [Bus μ] in
theorem toNat_moved (within : transfer.moved.toNat + units ≤ transfer.total.toNat) :
    (transfer.moved + UInt32.ofNat units).toNat = transfer.moved.toNat + units := by
  have small := transfer.total.toNat_lt
  have few : units < UInt32.size := by
    simp only [UInt32.size]
    omega
  rw [UInt32.toNat_add, UInt32.toNat_ofNat_of_lt' few, Nat.mod_eq_of_lt (by omega)]

/-- Whether a transfer is over shows in where it has come to. -/
theorem ends_iff (within : transfer.moved.toNat + units ≤ transfer.total.toNat) :
    channel.Ends transfer memory units ↔
      (channel.reach transfer memory units).refusal ≠ none ∨
        (channel.reach transfer memory units).position.moved = transfer.total := by
  unfold Ends
  by_cases taken : (channel.reach transfer memory units).refusal = none
  · rw [moved_reach taken, ← UInt32.toNat_inj, toNat_moved within]
  · exact iff_of_true (.inl taken) (.inl taken)

omit [Bus μ] in
theorem asked_eq (target : UInt32)
    (within : transfer.moved.toNat + units ≤ transfer.total.toNat) :
    asked transfer units target = units + Transfer.outstanding
      { transfer with moved := transfer.moved + UInt32.ofNat units } target := by
  rw [asked, Transfer.outstanding_eq]
  dsimp only
  rw [toNat_moved within]
  omega

omit [Bus μ] in
/-- A transfer that has come somewhere ends like one that comes from there. -/
theorem concluded_arrive (channel : Channel) (transfer : Transfer) (moved : UInt32)
    (position : Transfer.Position) (progress : Transfer.Progress μ) :
    (channel.arrive transfer position).concluded { transfer with moved } progress
      = channel.concluded transfer progress := by
  unfold concluded
  rw [arrive_arrive]
  rfl

/-- Moving a transfer on, in whatever pieces it came so far. -/
theorem Stage.advance (stage : Stage channel transfer memory units after there signals)
    (clock : Clock) (target : UInt32) :
    Stage channel transfer memory (asked transfer units target)
      (after.advance clock there target).value.1 (after.advance clock there target).value.2.2
      (signals ++ (after.advance clock there target).signals) := by
  have within : transfer.moved.toNat + asked transfer units target ≤ transfer.total.toNat := by
    have before := stage.within
    unfold asked
    omega
  by_cases ends : channel.Ends transfer memory units
  · obtain ⟨rfl, interrupts⟩ := stage.finished ends
    change Stage channel transfer memory _ _ _ (signals ++ [])
    rw [List.append_nil]
    exact stage.stays ends (Nat.le_max_left _ _) within
  · obtain ⟨rfl, quiet⟩ := stage.going ends
    obtain rfl := stage.contents
    have taken := taken_of_going ends
    have calls := stage.calls
    generalize asking : asked transfer units target = count at within ⊢
    rw [asked_eq target stage.within, ← moved_reach taken] at asking
    obtain ⟨progress, here, whole⟩ := reach_add taken (Transfer.outstanding { transfer with
      moved := (channel.reach transfer memory units).position.moved } target) rfl
    rw [asking] at whole
    obtain ⟨contents, host, going, finished⟩ := advance_spec (transfer_arrive channel transfer _) clock
      (channel.reach transfer memory units).memory target
    rw [here] at contents host going finished
    have over_iff : channel.Ends transfer memory count ↔
        progress.refusal ≠ none ∨ progress.position.moved = transfer.total := by
      rw [ends_iff within, whole]
    refine ⟨within, ?_, ?_, fun goes => ?_, fun ended => ?_⟩
    · rw [contents, whole]
    · rw [List.filterMap_append, host, calls, whole, List.reverse_append]
    · obtain ⟨after, interrupts⟩ := going fun finished => goes (over_iff.2 finished)
      rw [after, List.filterMap_append, quiet, interrupts, arrive_arrive, whole]
      exact ⟨rfl, rfl⟩
    · obtain ⟨after, interrupts⟩ := finished (over_iff.1 ended)
      rw [after, List.filterMap_append, quiet, interrupts, concluded_arrive, whole]
      exact ⟨rfl, rfl⟩

/-- A transfer of which nothing has been asked for yet. -/
theorem stage_zero (active : channel.transfer = some transfer)
    (few : transfer.moved < transfer.total) (memory : μ) :
    Stage channel transfer memory 0 channel memory [] where
  within := (UInt32.lt_iff_toNat_lt.1 few).le
  contents := rfl
  calls := rfl
  going _ := ⟨(arrive_position active).symm, rfl⟩
  finished ends := by
    rcases ends with refused | all
    · exact absurd rfl refused
    · exact absurd all (UInt32.lt_iff_toNat_lt.1 few).ne

/-! ## What looks at a transfer -/

/-- Only the accesses and the requests for interrupts matter of what is signalled. -/
theorem Stage.retold (stage : Stage channel transfer memory units after there signals)
    {told : List Signal} (host : told.filterMap Signal.host? = signals.filterMap Signal.host?)
    (interrupt : told.filterMap Signal.interrupt? = signals.filterMap Signal.interrupt?) :
    Stage channel transfer memory units after there told where
  within := stage.within
  contents := stage.contents
  calls := host.trans stage.calls
  going goes := ⟨(stage.going goes).1, interrupt.trans (stage.going goes).2⟩
  finished ends := ⟨(stage.finished ends).1, interrupt.trans (stage.finished ends).2⟩

/-- Remarks make no difference. -/
theorem Stage.remarked (stage : Stage channel transfer memory units after there signals)
    {rest : List Signal} (host : rest.filterMap Signal.host? = [])
    (interrupt : rest.filterMap Signal.interrupt? = []) :
    Stage channel transfer memory units after there (signals ++ rest) := by
  refine stage.retold ?_ ?_
  · rw [List.filterMap_append, host, List.append_nil]
  · rw [List.filterMap_append, interrupt, List.append_nil]

/-- Catching up asks for the units that are due by the clock. -/
theorem Stage.catchUp (stage : Stage channel transfer memory units after there signals)
    (timed : channel.cyclesPerUnit ≠ 0) (clock : Clock) :
    Stage channel transfer memory (asked transfer units (channel.dueUnits clock transfer))
      (after.catchUp clock there).value.1 (after.catchUp clock there).value.2.2
      (signals ++ (after.catchUp clock there).signals) := by
  have catching : after.catchUp clock there
      = after.advance clock there (channel.dueUnits clock transfer) := by
    by_cases ends : channel.Ends transfer memory units
    · obtain ⟨rfl, _⟩ := stage.finished ends
      rfl
    · obtain ⟨rfl, _⟩ := stage.going ends
      exact catchUp_of_timed (transfer_arrive channel transfer _) timed clock there
  rw [catching]
  exact stage.advance clock _

omit [Bus μ] in
/-- The remarks about an access. -/
theorem noted_quiet (width : Width) (address : UInt32) :
    let noted : Traced Signal _ := Selection.noted .note "dma" registers width address
    noted.signals.filterMap Signal.host? = [] ∧ noted.signals.filterMap Signal.interrupt? = [] := by
  intro noted
  have remarks : ∀ signal ∈ noted.signals, signal.host? = none ∧ signal.interrupt? = none := by
    intro signal told
    obtain ⟨_, _, rfl⟩ := List.mem_map.1 told
    exact ⟨rfl, rfl⟩
  exact ⟨List.filterMap_eq_nil_iff.2 fun signal told => (remarks signal told).1,
    List.filterMap_eq_nil_iff.2 fun signal told => (remarks signal told).2⟩

/-- A register read asks for the units that are due by the clock. -/
theorem Stage.read (stage : Stage channel transfer memory units after there signals)
    (timed : channel.cyclesPerUnit ≠ 0) (clock : Clock) (width : Width) (address : UInt32) :
    Stage channel transfer memory (asked transfer units (channel.dueUnits clock transfer))
      (after.read clock there width address).value.2.1
      (after.read clock there width address).value.2.2.2
      (signals ++ (after.read clock there width address).signals) := by
  have caughtUp := stage.catchUp timed clock
  obtain ⟨host, interrupt⟩ := noted_quiet width address
  have told := caughtUp.remarked host interrupt
  unfold Channel.read
  rw [Traced.signals_bind, Traced.value_bind]
  dsimp only
  rw [Traced.signals_bind, Traced.value_bind, Selection.value_noted, ← List.append_assoc,
    ← List.append_assoc]
  split
  next => exact told.remarked rfl rfl
  next =>
    rw [Registers.read_eq]
    exact told.remarked rfl rfl

/-- Before the deadline a poll does nothing. -/
theorem Stage.poll_of_ahead (stage : Stage channel transfer memory units after there signals)
    (ahead : ∀ due ∈ transfer.due, clock.hasReached due.time = false) :
    Stage channel transfer memory units (after.poll clock there).value.1
      (after.poll clock there).value.2.2 (signals ++ (after.poll clock there).signals) := by
  have waits : ∀ due ∈ after.held, clock.hasReached due.time = false := by
    intro due known
    obtain ⟨going, active, timed⟩ := mem_held.1 known
    by_cases ends : channel.Ends transfer memory units
    · obtain ⟨rfl, _⟩ := stage.finished ends
      contradiction
    · obtain ⟨rfl, _⟩ := stage.going ends
      cases active
      exact ahead due timed
  rw [Channel.poll_of_ahead waits]
  exact stage.remarked rfl rfl

/-- The deadline makes no difference to what is moved. -/
theorem reach_due (channel : Channel) (transfer : Transfer) (memory : μ) (units : Nat)
    (due : Option Deadline) :
    channel.reach { transfer with due } memory units = channel.reach transfer memory units :=
  Transfer.moveUnits_congr (by rfl) (by rfl) (by rfl) units _ memory []

/-- From the deadline on a poll ends the transfer, if all its units are due. -/
theorem Stage.poll_of_reached (stage : Stage channel transfer memory units after there signals)
    (timed : channel.cyclesPerUnit ≠ 0) {due : Deadline} (waits : transfer.due = some due)
    (reached : clock.hasReached due.time = true)
    (all : transfer.total ≤ channel.dueUnits clock transfer) :
    Stage channel transfer memory (transfer.total.toNat - transfer.moved.toNat)
      (after.poll clock there).value.1 (after.poll clock there).value.2.2
      (signals ++ (after.poll clock there).signals) := by
  have within := stage.within
  have whole : transfer.moved.toNat + (transfer.total.toNat - transfer.moved.toNat)
      = transfer.total.toNat := by omega
  by_cases ends : channel.Ends transfer memory units
  · obtain ⟨rfl, _⟩ := stage.finished ends
    exact (stage.stays ends (by omega) whole.le).remarked rfl rfl
  · obtain ⟨rfl, _⟩ := stage.going ends
    rw [Channel.poll_of_reached (transfer_arrive channel transfer _) waits reached]
    have same (count : Nat) : channel.reach { transfer with due := none } memory count
        = channel.reach transfer memory count := reach_due channel transfer memory count none
    have released : Stage channel { transfer with due := none } memory units
        (channel.arrive { transfer with due := none }
          (channel.reach transfer memory units).position) there signals := {
      within := stage.within
      contents := by rw [same]; exact stage.contents
      calls := by rw [same]; exact stage.calls
      going := fun _ => by rw [same]; exact ⟨rfl, (stage.going ends).2⟩
      finished := fun finished => absurd (by unfold Ends at *; rwa [same] at finished) ends }
    have last : asked { transfer with due := none } units
        (channel.dueUnits clock { transfer with due := none })
          = transfer.total.toNat - transfer.moved.toNat := by
      have enough := UInt32.le_iff_toNat_le.1 all
      change max units (min (channel.dueUnits clock transfer).toNat _ - transfer.moved.toNat) = _
      rw [Nat.min_eq_right enough]
      exact Nat.max_eq_right (by omega)
    have caughtUp := released.catchUp timed clock
    rw [last] at caughtUp
    have finished := caughtUp.finished (.inr whole)
    rw [same] at finished
    exact {
      within := whole.le
      contents := caughtUp.contents.trans (by rw [same])
      calls := caughtUp.calls.trans (by rw [same])
      going := fun goes => absurd (.inr whole) goes
      finished := fun _ => finished }

end Channel

end Dma

end SocPeripherals
