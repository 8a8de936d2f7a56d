import SocPeripherals.Dma.Engine
import SocPeripherals.Proofs.Dma.Channel
import SocPeripherals.Proofs.Interrupt
import SocPeripherals.Proofs.Timer
import SocPeripherals.Proofs.Uart

/-!
# What stands against a saved device

A device checks the shape of what it is to take over and answers that it does not fit. The times
in it are not checked: a deadline that lies too far ahead is a fault of the clock, and so is a
period that does not fit a word. Which of these it comes to can be read off what was saved, with
the room in a queue and the cycles of a unit. A device that takes it over holds what was saved, and
one that refuses it stays as it is.
-/

namespace SocPeripherals

/-- What stands against taking over something saved. -/
inductive Obstacle where
  /-- It does not fit, and that is answered. -/
  | mismatch (error : DeviceError)
  /-- Taking it over ends with a fault. -/
  | fault (reason : Fault)
deriving DecidableEq, Repr

/-- What comes of taking over something, by what stands against it. -/
def Obstacle.answer : Option Obstacle → Except Fault (Except DeviceError Unit)
  | none => .ok (.ok ())
  | some (.mismatch error) => .ok (.error error)
  | some (.fault reason) => .error reason

/-- What stands against it can be told by what comes of it. -/
theorem Obstacle.eq_of_answer {first second : Option Obstacle}
    (same : answer first = answer second) : first = second := by
  cases first with
  | none => cases second with
    | none => rfl
    | some obstacle => cases obstacle <;> cases same
  | some obstacle => cases second with
    | none => cases obstacle <;> cases same
    | some other => cases obstacle <;> cases other <;> cases same <;> rfl

/-- What does not fit is told as a mismatch. Only a time that is too long ends with a fault, so that
there is none where all times are near. -/
def Obstacle.Befits (near : Prop) : Obstacle → Prop
  | .mismatch error => ∃ reason, error = .snapshotMismatch reason
  | .fault reason => (reason = .deadlineTooFar ∨ reason = .productOverflow) ∧ ¬ near

theorem Obstacle.Befits.imp {near nearer : Prop} {obstacle : Obstacle}
    (befits : obstacle.Befits near) (implies : nearer → near) : obstacle.Befits nearer := by
  cases obstacle with
  | mismatch error => exact befits
  | fault reason => exact ⟨befits.1, mt implies befits.2⟩

/-- The bank stores the values, cut to the widths of their registers. -/
def Bank.Stores {table : List Register} (values : List UInt32) (bank : Bank table) : Prop :=
  ∀ index : Fin table.length,
    bank.get index = values.getD index.val 0 &&& (table.get index).width.mask

namespace Bank

variable {table : List Register} {bank other : Bank table} {values : List UInt32}

theorem stores_of_load? (loaded : bank.load? values = some other) : other.Stores values := by
  unfold load? at loaded
  split at loaded
  next same =>
    cases loaded
    intro index
    have within : index.val < values.length := by
      rw [same]
      exact index.isLt
    rw [get, Parts.getElem_ofFn]
    simp [within]
  next => contradiction

theorem stores_toList (fits : bank.Fits) : bank.Stores bank.toList := by
  intro index
  have stored : bank.toList.getD index.val 0 = bank.get index := by
    simp [toList, get, Parts.getElem_fin]
  rw [stored]
  exact (fits.stored index).symm

/-- A register that is a whole word stores its value as it is. -/
theorem Stores.word (stores : bank.Stores values) {index : Fin table.length}
    (whole : (table.get index).width = .word) : bank.get index = values.getD index.val 0 := by
  rw [stores index, whole]
  exact UInt32.and_neg_one

/-- The bank has the power-on values of its table, and what it stores fits the registers. -/
structure Built (bank : Bank table) : Prop where
  resets : bank.resets = (initial table).resets
  fits : bank.Fits

theorem Built.load? (built : bank.Built) (loaded : bank.load? values = some other) :
    other.Built where
  resets := (resets_of_load? loaded).trans built.resets
  fits := built.fits.load? loaded

theorem load?_eq_none_iff : bank.load? values = none ↔ values.length ≠ table.length := by
  unfold load?
  split
  next same => simp [same]
  next apart => simp [apart]

end Bank

namespace Clock

/-- The fault of placing a deadline so many cycles ahead. -/
def tooFar? (cycles : Nat) : Option Fault :=
  if cycles < horizon.toNat then none else some .deadlineTooFar

theorem tooFar?_eq_some_iff {cycles : Nat} {reason : Fault} :
    tooFar? cycles = some reason ↔ reason = .deadlineTooFar ∧ ¬ cycles < horizon.toNat := by
  unfold tooFar?
  split
  next near => simp [near]
  next far => simp [far, eq_comm]

/-- A deadline can be placed unless it lies too far ahead. -/
theorem scheduleIn_cases (clock : Clock) (cycles : UInt64) :
    (tooFar? cycles.toNat = none ∧ ∃ result, clock.scheduleIn cycles = .ok result) ∨
      (tooFar? cycles.toNat = some .deadlineTooFar ∧
        clock.scheduleIn cycles = .error .deadlineTooFar) := by
  have near : cycles < horizon ↔ cycles.toNat < horizon.toNat := UInt64.lt_iff_toNat_lt
  unfold tooFar?
  by_cases short : cycles < horizon
  · rw [if_pos (near.1 short)]
    exact .inl ⟨rfl, clock.scheduleIn_of_lt short⟩
  · rw [if_neg (mt near.2 short)]
    exact .inr ⟨rfl, clock.scheduleIn_of_not_lt short⟩

end Clock

/-! ## The interrupt controller -/

namespace Interrupt

/-- What stands against the saved controller. -/
def Snapshot.obstacle? (saved : Snapshot) : Option Obstacle :=
  if saved.regs.length = registers.length then none
  else some (.mismatch (.snapshotMismatch "intc registers"))

theorem Snapshot.obstacle_befits (saved : Snapshot) {near : Prop} :
    ∀ obstacle ∈ saved.obstacle?, obstacle.Befits near := by
  unfold obstacle?
  split
  next => simp
  next =>
    rintro _ ⟨⟩
    exact ⟨_, rfl⟩

/-- The controller stores what was saved. The level of the line is not taken over. -/
def Controller.Holds (saved : Snapshot) (controller : Controller) : Prop :=
  controller.bank.Stores saved.regs

theorem Controller.restore_answer (controller : Controller) (saved : Snapshot) :
    Except.ok (controller.restore saved).value.1 = Obstacle.answer saved.obstacle? := by
  unfold restore Snapshot.obstacle?
  cases loaded : controller.bank.load? saved.regs with
  | none =>
      rw [if_neg (Bank.load?_eq_none_iff.1 loaded)]
      rfl
  | some bank =>
      have fitting : saved.regs.length = registers.length := by
        by_contra apart
        simp [Bank.load?_eq_none_iff.2 apart] at loaded
      rw [if_pos fitting]
      rfl

/-- The controller holds what was saved if it accepts that, else it stays as it is. -/
theorem Controller.restore_leaves (controller : Controller) (saved : Snapshot) :
    if (controller.restore saved).value.1 = .ok () then
      (controller.restore saved).value.2.Holds saved
    else (controller.restore saved).value.2 = controller := by
  unfold restore
  cases loaded : controller.bank.load? saved.regs with
  | none => exact rfl
  | some bank =>
      dsimp only
      rw [Traced.value_bind, value_drive]
      exact Bank.stores_of_load? loaded

theorem Controller.Does.built {controller after : Controller} {restorable : Snapshot → Prop}
    (does : Does restorable controller after) (built : controller.bank.Built) :
    after.bank.Built where
  resets := does.evolves.resets.trans built.resets
  fits := does.evolves.fits built.fits

end Interrupt

/-! ## Timers -/

namespace Timer

/-- The length of the saved period. -/
def Snapshot.length (saved : Snapshot) : Nat :=
  (saved.reload.toNat + 1) * saved.stepCycles.toNat

/-- The fault of going on with the saved period, which ends when its saved remainder has passed, or
else when its length has. -/
def Snapshot.fault? (saved : Snapshot) : Option Fault :=
  match saved.remaining with
  | some cycles => Clock.tooFar? cycles.toNat
  | none =>
      if saved.length < UInt64.size then Clock.tooFar? (saved.length - saved.elapsed.toNat)
      else some .productOverflow

/-- What stands against the saved timer. A stopped one has no time in it. -/
def Snapshot.obstacle? (saved : Snapshot) : Option Obstacle :=
  if saved.stepCycles = 0 ∨ saved.regs.length ≠ registers.length then
    some (.mismatch (.snapshotMismatch "timer registers"))
  else if saved.running then saved.fault?.map .fault
  else none

/-- The period of a timer that was saved running ends near enough for a deadline. -/
def Snapshot.IsNear (saved : Snapshot) : Prop :=
  saved.running = true →
    match saved.remaining with
    | some cycles => cycles < Clock.horizon
    | none =>
        saved.length < UInt64.size ∧ saved.length - saved.elapsed.toNat < Clock.horizon.toNat

theorem Snapshot.obstacle_befits (saved : Snapshot) :
    ∀ obstacle ∈ saved.obstacle?, obstacle.Befits saved.IsNear := by
  intro obstacle stands
  unfold obstacle? at stands
  split at stands
  next =>
    cases stands
    exact ⟨_, rfl⟩
  next =>
    split at stands
    next running =>
      obtain ⟨reason, faulty, rfl⟩ := Option.map_eq_some_iff.1 stands
      unfold fault? at faulty
      cases left : saved.remaining with
      | some cycles =>
          rw [left] at faulty
          obtain ⟨rfl, far⟩ := Clock.tooFar?_eq_some_iff.1 faulty
          refine ⟨.inl rfl, fun near => far ?_⟩
          have near := near running
          rw [left] at near
          exact UInt64.lt_iff_toNat_lt.1 near
      | none =>
          rw [left] at faulty
          dsimp only at faulty
          split at faulty
          next =>
            obtain ⟨rfl, far⟩ := Clock.tooFar?_eq_some_iff.1 faulty
            refine ⟨.inl rfl, fun near => far ?_⟩
            have near := near running
            rw [left] at near
            exact near.2
          next long =>
            cases faulty
            refine ⟨.inr rfl, fun near => long ?_⟩
            have near := near running
            rw [left] at near
            exact near.1
    next => contradiction

/-- The timer stores what was saved, and runs if it was saved running. -/
structure Holds (saved : Snapshot) (timer : Timer) : Prop where
  regs : timer.bank.Stores saved.regs
  running : timer.isRunning = saved.running

variable {timer : Timer} {clock : Clock} {saved : Snapshot}

/-- The length of a period, if it fits a word. -/
theorem Latch.period_eq {latch : Latch} (reload : latch.reload = saved.reload)
    (stepCycles : latch.stepCycles = saved.stepCycles) :
    latch.period = if saved.length < UInt64.size then .ok (UInt64.ofNat saved.length)
      else .error .productOverflow := by
  unfold Latch.period Snapshot.length
  rw [reload, stepCycles]
  split
  next fits =>
    have next : (saved.reload.toUInt64 + 1).toNat = saved.reload.toNat + 1 := by
      have short := saved.reload.toNat_lt
      rw [UInt64.toNat_add, UInt16.toNat_toUInt64, UInt64.toNat_one]
      omega
    congr 1
    rw [← UInt64.toNat_inj, UInt64.toNat_ofNat_of_lt' fits, UInt64.toNat_mul, next]
    exact Nat.mod_eq_of_lt fits
  next => rfl

/-- What is left of a length after some cycles, none if they are as many. -/
theorem toNat_left (length elapsed : UInt64) :
    (if elapsed < length then length - elapsed else 0).toNat = length.toNat - elapsed.toNat := by
  split
  next early => rw [UInt64.toNat_sub_of_le _ _ (UInt64.le_of_lt early)]
  next late =>
    have passed := UInt64.le_iff_toNat_le.1 (UInt64.not_lt.1 late)
    rw [UInt64.toNat_zero, Nat.sub_eq_zero_of_le passed]

/-- The period goes on unless there is a fault in it. -/
theorem resume_cases (timer : Timer) (clock : Clock) {latch : Latch}
    (reload : latch.reload = saved.reload) (stepCycles : latch.stepCycles = saved.stepCycles) :
    (saved.fault? = none ∧ (timer.resume clock latch saved).Succeeds fun (after, _) =>
        after.isRunning = true ∧ after.bank = timer.bank) ∨
      ∃ reason, saved.fault? = some reason ∧
        (timer.resume clock latch saved).outcome = .error reason := by
  have length := Latch.period_eq reload stepCycles
  unfold resume
  extract_lets goesOn
  have placing (rest : UInt64) :
      (Clock.tooFar? rest.toNat = none ∧ (goesOn rest).Succeeds fun (after, _) =>
        after.isRunning = true ∧ after.bank = timer.bank) ∨
      ∃ reason, Clock.tooFar? rest.toNat = some reason ∧ (goesOn rest).outcome = .error reason := by
    rcases clock.scheduleIn_cases rest with ⟨near, result, placed⟩ | ⟨far, failed⟩
    · refine .inl ⟨near, ?_⟩
      simp only [goesOn, placed]
      exact ⟨_, rfl, rfl, rfl⟩
    · refine .inr ⟨_, far, ?_⟩
      simp only [goesOn, failed]
      rfl
  unfold Snapshot.fault?
  cases saved.remaining with
  | some cycles => exact placing cycles
  | none =>
      dsimp only
      rw [length]
      by_cases fits : saved.length < UInt64.size
      · rw [if_pos fits, if_pos fits, ← UInt64.toNat_ofNat_of_lt' fits, ← toNat_left,
          UInt64.ofNat_toNat]
        exact placing _
      · rw [if_neg fits, if_neg fits]
        exact .inr ⟨_, rfl, rfl⟩

/-- A timer answers what stands against the saved one, and holds it unless something does. -/
theorem restore_cases (timer : Timer) (clock : Clock) (saved : Snapshot) :
    (timer.restore clock saved).outcome.map Prod.fst = Obstacle.answer saved.obstacle? ∧
      (timer.restore clock saved).Ensures fun (answer, after, _) =>
        if answer = .ok () then after.Holds saved else after = timer := by
  unfold restore Snapshot.obstacle?
  dsimp only
  by_cases absent : saved.stepCycles = 0
  · rw [dif_neg (not_not.2 absent), if_pos (.inl absent)]
    exact ⟨rfl, .pure rfl⟩
  rw [dif_pos absent]
  cases loaded : timer.bank.load? saved.regs with
  | none =>
      rw [if_pos (.inr (Bank.load?_eq_none_iff.1 loaded))]
      exact ⟨rfl, .pure rfl⟩
  | some bank =>
      have fitting : ¬ (saved.stepCycles = 0 ∨ saved.regs.length ≠ registers.length) := by
        rw [← Bank.load?_eq_none_iff, loaded]
        simp [absent]
      have stores := Bank.stores_of_load? loaded
      rw [if_neg fitting]
      dsimp only
      rw [(halt_eq timer clock).1]
      cases running : saved.running with
      | false => exact ⟨rfl, .pure ⟨stores, running.symm⟩⟩
      | true =>
          rw [if_pos rfl, if_pos rfl]
          rcases resume_cases { timer with bank, phase := .stopped } (timer.halt clock).2
            (rfl : (⟨saved.reload, saved.stepCycles, absent⟩ : Latch).reload = saved.reload)
            rfl with ⟨sound, ⟨after, later⟩, resumed, runs, kept⟩ | ⟨reason, faulty, failed⟩
          · rw [Run.bind_of_ok resumed, sound]
            refine ⟨rfl, ?_⟩
            rintro _ ⟨⟩
            exact ⟨kept ▸ stores, runs.trans running.symm⟩
          · rw [Run.bind_of_error failed, faulty]
            refine ⟨rfl, ?_⟩
            rintro _ ⟨⟩

theorem Does.built {after : Timer} {later : Clock} {restorable : Snapshot → Prop}
    (does : Does restorable timer clock after later) (built : timer.bank.Built) :
    after.bank.Built := by
  have step := does.step UInt64.zero_le fun saved _ _ => saved.ahead_zero
  exact ⟨step.resets.trans built.resets, step.fits built.fits⟩

end Timer

/-! ## Serial interfaces -/

namespace Uart

/-- The fault of timing what was saved: the byte first, then the break. -/
def Snapshot.fault? (saved : Snapshot) : Option Fault :=
  (saved.sending.bind fun sending => Clock.tooFar? sending.2.toNat).or
    (saved.breakRemaining.bind fun cycles => Clock.tooFar? cycles.toNat)

/-- What stands against the saved interface where a queue has room for so many bytes. -/
def Snapshot.obstacle? (capacity : Nat) (saved : Snapshot) : Option Obstacle :=
  if saved.regs.length ≠ registers.length then
    some (.mismatch (.snapshotMismatch "uart registers"))
  else if capacity < saved.received.length then
    some (.mismatch (.snapshotMismatch "uart receive fifo"))
  else saved.fault?.map .fault

/-- What is timed ends near enough for a deadline. -/
structure Snapshot.IsNear (saved : Snapshot) : Prop where
  sending : ∀ sending ∈ saved.sending, sending.2 < Clock.horizon
  breaking : ∀ cycles ∈ saved.breakRemaining, cycles < Clock.horizon

theorem Snapshot.obstacle_befits (capacity : Nat) (saved : Snapshot) :
    ∀ obstacle ∈ saved.obstacle? capacity, obstacle.Befits saved.IsNear := by
  intro obstacle stands
  unfold obstacle? at stands
  split at stands
  next =>
    cases stands
    exact ⟨_, rfl⟩
  next =>
    split at stands
    next =>
      cases stands
      exact ⟨_, rfl⟩
    next =>
      obtain ⟨reason, faulty, rfl⟩ := Option.map_eq_some_iff.1 stands
      rcases Option.or_eq_some_iff.1 faulty with faulty | ⟨-, faulty⟩
      · obtain ⟨sending, listed, faulty⟩ := Option.bind_eq_some_iff.1 faulty
        obtain ⟨rfl, far⟩ := Clock.tooFar?_eq_some_iff.1 faulty
        exact ⟨.inl rfl, fun near => far (UInt64.lt_iff_toNat_lt.1 (near.sending sending listed))⟩
      · obtain ⟨cycles, listed, faulty⟩ := Option.bind_eq_some_iff.1 faulty
        obtain ⟨rfl, far⟩ := Clock.tooFar?_eq_some_iff.1 faulty
        exact ⟨.inl rfl, fun near => far (UInt64.lt_iff_toNat_lt.1 (near.breaking cycles listed))⟩

/-- The interface stores what was saved, sends the byte that was being sent, and times a break if
one was timed. -/
structure Holds (saved : Snapshot) (uart : Uart) : Prop where
  regs : uart.bank.Stores saved.regs
  received : uart.received = saved.received
  sending : uart.shifter.map (·.1) = saved.sending.map (·.1)
  lineLow : uart.lineLow = saved.lineLow
  breaking : uart.breakDue.isSome = saved.breakRemaining.isSome

variable {uart after : Uart} {clock later : Clock} {capacity : Nat}

/-- The interface keeps so many received bytes, in registers as they were made. -/
structure Built (capacity : Nat) (uart : Uart) : Prop where
  capacity : uart.capacity = capacity
  bank : uart.bank.Built

theorem Evolves.built (evolves : Evolves uart after) (built : Built capacity uart) :
    Built capacity after where
  capacity := evolves.capacity.trans built.capacity
  bank := ⟨evolves.resets.trans built.bank.resets, evolves.fits built.bank.fits⟩

theorem resumeByte_cases (idle : uart.shifter = none) (clock : Clock)
    (saved : Option (UInt8 × UInt64)) :
    (saved.bind (fun sending => Clock.tooFar? sending.2.toNat) = none ∧
      ∃ shifter later, uart.resumeByte clock saved = .ok ({ uart with shifter }, later) ∧
        shifter.map (·.1) = saved.map (·.1)) ∨
      ∃ reason, saved.bind (fun sending => Clock.tooFar? sending.2.toNat) = some reason ∧
        uart.resumeByte clock saved = .error reason := by
  cases saved with
  | none => exact .inl ⟨rfl, none, clock, by rw [← idle]; rfl, rfl⟩
  | some sending =>
      obtain ⟨byte, cycles⟩ := sending
      dsimp only [resumeByte]
      rcases clock.scheduleIn_cases cycles with ⟨near, ⟨deadline, later⟩, placed⟩ | ⟨far, failed⟩
      · rw [placed]
        exact .inl ⟨near, some (byte, deadline), later, rfl, rfl⟩
      · rw [failed]
        exact .inr ⟨_, far, rfl⟩

theorem resumeBreak_cases (idle : uart.breakDue = none) (clock : Clock) (saved : Option UInt64) :
    (saved.bind (fun cycles => Clock.tooFar? cycles.toNat) = none ∧
      ∃ breakDue later, uart.resumeBreak clock saved = .ok ({ uart with breakDue }, later) ∧
        breakDue.isSome = saved.isSome) ∨
      ∃ reason, saved.bind (fun cycles => Clock.tooFar? cycles.toNat) = some reason ∧
        uart.resumeBreak clock saved = .error reason := by
  cases saved with
  | none => exact .inl ⟨rfl, none, clock, by rw [← idle]; rfl, rfl⟩
  | some cycles =>
      dsimp only [resumeBreak]
      rcases clock.scheduleIn_cases cycles with ⟨near, ⟨deadline, later⟩, placed⟩ | ⟨far, failed⟩
      · rw [placed]
        exact .inl ⟨near, some deadline, later, rfl, rfl⟩
      · rw [failed]
        exact .inr ⟨_, far, rfl⟩

/-- An interface answers what stands against the saved one, and holds it unless something does. -/
theorem restore_cases (capacity : Nat) (uart : Uart) (clock : Clock) (saved : Snapshot) :
    (uart.restore clock saved).map Prod.fst = Obstacle.answer (saved.obstacle? uart.capacity) ∧
      ∀ answer after later, uart.restore clock saved = .ok (answer, after, later) →
        (if answer = .ok () then after.Holds saved else after = uart) ∧
          (Built capacity uart → Built capacity after) := by
  unfold restore Snapshot.obstacle?
  cases loaded : uart.bank.load? saved.regs with
  | none =>
      rw [if_pos (Bank.load?_eq_none_iff.1 loaded)]
      refine ⟨rfl, ?_⟩
      rintro _ _ _ ⟨⟩
      exact ⟨rfl, id⟩
  | some bank =>
      have fitting : ¬ saved.regs.length ≠ registers.length := by
        rw [← Bank.load?_eq_none_iff, loaded]
        nofun
      rw [if_neg fitting]
      dsimp only
      by_cases long : uart.capacity < saved.received.length
      · rw [if_pos long, if_pos long]
        refine ⟨rfl, ?_⟩
        rintro _ _ _ ⟨⟩
        exact ⟨rfl, id⟩
      rw [if_neg long, if_neg long]
      unfold Snapshot.fault?
      rcases resumeByte_cases (rfl : ({ (uart.abandon clock).1 with
        bank, received := saved.received, lineLow := saved.lineLow } : Uart).shifter = none)
        (uart.abandon clock).2 saved.sending
        with ⟨nearByte, shifter, middle, resumedByte, sending⟩ | ⟨reason, faulty, failed⟩
      · rw [resumedByte, nearByte, Option.none_or]
        dsimp only [bind, Except.bind]
        rcases resumeBreak_cases (rfl : ({ (uart.abandon clock).1 with
          bank, received := saved.received, lineLow := saved.lineLow, shifter } : Uart).breakDue
            = none) middle saved.breakRemaining
          with ⟨nearBreak, breakDue, later, resumedBreak, breaking⟩ | ⟨reason, faulty, failed⟩
        · rw [resumedBreak, nearBreak]
          refine ⟨rfl, ?_⟩
          rintro _ _ _ ⟨⟩
          constructor
          · exact {
              regs := Bank.stores_of_load? loaded
              received := rfl
              sending := sending
              lineLow := rfl
              breaking := breaking }
          · exact fun built => ⟨built.capacity, built.bank.load? loaded⟩
        · rw [failed, faulty]
          refine ⟨rfl, ?_⟩
          rintro _ _ _ ⟨⟩
      · rw [failed, faulty]
        refine ⟨rfl, ?_⟩
        rintro _ _ _ ⟨⟩

theorem setLine_built {high : Bool} (done : uart.setLine clock high = .ok (after, later))
    (built : Built capacity uart) : Built capacity after := by
  cases of_setLine done with
  | kept => exact built
  | _ => exact ⟨built.capacity, built.bank⟩

theorem Does.built {restorable : Snapshot → Prop} (does : Does restorable uart clock after later)
    (built : Built capacity uart) : Built capacity after := by
  cases does with
  | read width address => exact (read_step uart clock width address).built built
  | write width address value done =>
      have step : Step 1 uart clock after later :=
        write_step uart clock width address value _ done
      exact step.built built
  | poll => exact (poll_step uart clock).1.built built
  | reset => exact (reset_step uart clock).built built
  | receive byte => exact (receive_step uart clock byte).built built
  | setLine high done => exact setLine_built done built
  | restore known done => exact ((restore_cases capacity uart clock _).2 _ _ _ done).2 built

end Uart

/-! ## Memory transfers -/

namespace Dma

/-- What stands against the saved channel, at so many cycles a unit. A transfer cannot go on where
transfers happen at once. -/
def Snapshot.obstacle? (cyclesPerUnit : UInt64) (saved : Snapshot) : Option Obstacle :=
  if saved.regs.length ≠ registers.length then
    some (.mismatch (.snapshotMismatch "dma registers"))
  else if saved.transfer.isSome ∧ cyclesPerUnit = 0 then
    some (.mismatch (.snapshotMismatch "dma transfer timing"))
  else
    (saved.transfer.bind fun transfer =>
      Clock.tooFar? (transfer.rest cyclesPerUnit).toNat).map .fault

/-- What is left of the transfer ends near enough for a deadline. -/
def Snapshot.IsNear (cyclesPerUnit : UInt64) (saved : Snapshot) : Prop :=
  ∀ transfer ∈ saved.transfer, transfer.rest cyclesPerUnit < Clock.horizon

theorem Snapshot.obstacle_befits (cyclesPerUnit : UInt64) (saved : Snapshot) :
    ∀ obstacle ∈ saved.obstacle? cyclesPerUnit, obstacle.Befits (saved.IsNear cyclesPerUnit) := by
  intro obstacle stands
  unfold obstacle? at stands
  split at stands
  next =>
    cases stands
    exact ⟨_, rfl⟩
  next =>
    split at stands
    next =>
      cases stands
      exact ⟨_, rfl⟩
    next =>
      obtain ⟨reason, faulty, rfl⟩ := Option.map_eq_some_iff.1 stands
      obtain ⟨transfer, listed, faulty⟩ := Option.bind_eq_some_iff.1 faulty
      obtain ⟨rfl, far⟩ := Clock.tooFar?_eq_some_iff.1 faulty
      exact ⟨.inl rfl, fun near => far (UInt64.lt_iff_toNat_lt.1 (near transfer listed))⟩

namespace Channel

/-- The channel stores what was saved, and has a transfer that has come as far as the saved one. -/
structure Holds (saved : Snapshot) (channel : Channel) : Prop where
  regs : channel.bank.Stores saved.regs
  transfer : channel.transfer.map (fun transfer => (transfer.total, transfer.moved))
    = saved.transfer.map fun transfer => (transfer.total, transfer.moved)

/-- The channel takes so many cycles a unit, with registers as they were made. -/
structure Built (cyclesPerUnit : UInt64) (channel : Channel) : Prop where
  cyclesPerUnit : channel.cyclesPerUnit = cyclesPerUnit
  bank : channel.bank.Built

theorem resume_cases (channel : Channel) (clock : Clock) (saved : TransferSnapshot) :
    (Clock.tooFar? (saved.rest channel.cyclesPerUnit).toNat = none ∧
      ∃ transfer later, channel.resume clock saved
          = .ok ({ channel with transfer := some transfer }, later) ∧
        transfer.total = saved.total ∧ transfer.moved = saved.moved) ∨
      ∃ reason, Clock.tooFar? (saved.rest channel.cyclesPerUnit).toNat = some reason ∧
        channel.resume clock saved = .error reason := by
  have placing : channel.resume clock saved = (do
      let placed ← clock.scheduleIn (saved.rest channel.cyclesPerUnit)
      let transfer := channel.described saved.total (placed.2.now - saved.elapsed) (some placed.1)
      return ({ channel with transfer := some { transfer with moved := saved.moved } }, placed.2)) :=
    rfl
  rw [placing]
  rcases clock.scheduleIn_cases (saved.rest channel.cyclesPerUnit)
    with ⟨near, ⟨due, later⟩, placed⟩ | ⟨far, failed⟩
  · rw [placed]
    let described := channel.described saved.total (later.now - saved.elapsed) (some due)
    exact .inl ⟨near, { described with moved := saved.moved }, later, rfl, rfl, rfl⟩
  · rw [failed]
    exact .inr ⟨_, far, rfl⟩

/-- A channel answers what stands against the saved one, and holds it unless something does. -/
theorem restore_cases (cyclesPerUnit : UInt64) (channel : Channel) (clock : Clock)
    (saved : Snapshot) :
    (channel.restore clock saved).map Prod.fst
        = Obstacle.answer (saved.obstacle? channel.cyclesPerUnit) ∧
      ∀ answer after later, channel.restore clock saved = .ok (answer, after, later) →
        (if answer = .ok () then after.Holds saved else after = channel) ∧
          (Built cyclesPerUnit channel → Built cyclesPerUnit after) := by
  unfold restore Snapshot.obstacle?
  cases loaded : channel.bank.load? saved.regs with
  | none =>
      rw [if_pos (Bank.load?_eq_none_iff.1 loaded)]
      refine ⟨rfl, ?_⟩
      rintro _ _ _ ⟨⟩
      exact ⟨rfl, id⟩
  | some bank =>
      have fitting : ¬ saved.regs.length ≠ registers.length := by
        rw [← Bank.load?_eq_none_iff, loaded]
        nofun
      have stores := Bank.stores_of_load? loaded
      rw [if_neg fitting]
      dsimp only
      by_cases timeless : saved.transfer.isSome ∧ channel.cyclesPerUnit = 0
      · rw [if_pos timeless, if_pos timeless]
        refine ⟨rfl, ?_⟩
        rintro _ _ _ ⟨⟩
        exact ⟨rfl, id⟩
      rw [if_neg timeless, if_neg timeless]
      cases active : saved.transfer with
      | none =>
          refine ⟨rfl, ?_⟩
          rintro _ _ _ ⟨⟩
          exact ⟨⟨stores, by rw [active]; rfl⟩, fun built =>
            ⟨built.cyclesPerUnit, built.bank.load? loaded⟩⟩
      | some transfer =>
          dsimp only [Option.bind_some]
          rcases resume_cases { (channel.reset clock).1 with bank } (channel.reset clock).2 transfer
            with ⟨near, resumed, later, done, total, moved⟩ | ⟨reason, faulty, failed⟩
          · change Clock.tooFar? (transfer.rest channel.cyclesPerUnit).toNat = none at near
            rw [done, near]
            refine ⟨rfl, ?_⟩
            rintro _ _ _ ⟨⟩
            refine ⟨⟨stores, ?_⟩, fun built => ⟨built.cyclesPerUnit, built.bank.load? loaded⟩⟩
            rw [active, Option.map_some, Option.map_some, total, moved]
          · change Clock.tooFar? (transfer.rest channel.cyclesPerUnit).toNat = some reason at faulty
            rw [failed, faulty]
            refine ⟨rfl, ?_⟩
            rintro _ _ _ ⟨⟩

variable {μ : Type} [Bus μ] {channel after : Channel} {clock later : Clock} {memory memory' : μ}
  {cyclesPerUnit : UInt64}

theorem Evolves.built {least : UInt64} (evolves : Evolves least channel clock after later)
    (built : Built cyclesPerUnit channel) : Built cyclesPerUnit after where
  cyclesPerUnit := evolves.cyclesPerUnit.trans built.cyclesPerUnit
  bank := ⟨evolves.resets.trans built.bank.resets, evolves.fits built.bank.fits⟩

theorem Does.built {restorable : Snapshot → Prop}
    (does : Does restorable channel clock memory after later memory')
    (built : Built cyclesPerUnit channel) : Built cyclesPerUnit after := by
  cases does with
  | start source target count control done =>
      have step : Step 1 channel clock after later :=
        start_step channel clock memory source target count control _ done
      exact step.built built
  | read width address => exact (read_step channel clock memory width address).built built
  | write width address value done =>
      have step : Step 1 channel clock after later :=
        write_step channel clock memory width address value _ done
      exact step.built built
  | poll => exact (poll_step channel clock memory).1.built built
  | reset => exact (reset_step channel clock).built built
  | restore known done => exact ((restore_cases cyclesPerUnit channel clock _).2 _ _ _ done).2 built

end Channel

/-! ### Both channels -/

variable {dma : Dma} {cyclesPerUnit : UInt64}

theorem restoreChannel_cases {index : Fin channelCount}
    (speed : dma.channels[index].cyclesPerUnit = cyclesPerUnit) (clock : Clock)
    (saved : Snapshot) :
    (dma.restoreChannel clock index saved).map Prod.fst
        = Obstacle.answer (saved.obstacle? cyclesPerUnit) ∧
      ∀ answer after later, dma.restoreChannel clock index saved = .ok (answer, after, later) →
        (answer = .ok () → after.channels[index].Holds saved) ∧
          ∀ other, other ≠ index → after.channels[other] = dma.channels[other] := by
  obtain ⟨answer, leaves⟩ := dma.channels[index].restore_cases cyclesPerUnit clock saved
  rw [speed] at answer
  unfold restoreChannel
  cases ran : dma.channels[index].restore clock saved with
  | error reason =>
      rw [ran] at answer
      refine ⟨answer, ?_⟩
      rintro _ _ _ ⟨⟩
  | ok result =>
      obtain ⟨answered, channel, later⟩ := result
      rw [ran] at answer
      refine ⟨answer, ?_⟩
      rintro _ _ _ ⟨⟩
      constructor
      · intro accepted
        have held : channel.Holds saved := (if_pos accepted).mp (leaves _ _ _ ran).1
        simpa [set] using held
      · intro other apart
        exact Parts.getElem_set_of_ne _ _ apart.symm

theorem first_or_second (index : Fin channelCount) : index = 0 ∨ index = 1 := by
  revert index
  decide

/-- The engine answers what stands against the first saved channel that something stands against. -/
theorem restore_cases
    (speed : ∀ index : Fin channelCount, dma.channels[index].cyclesPerUnit = cyclesPerUnit)
    (clock : Clock) {saved : List Snapshot} (all : saved.length = channelCount) :
    (dma.restore clock saved).map Prod.fst
        = Obstacle.answer (saved.findSome? (Snapshot.obstacle? cyclesPerUnit)) ∧
      ∀ answer after later, dma.restore clock saved = .ok (answer, after, later) → answer = .ok () →
        ∀ index : Fin channelCount, ∀ part ∈ saved[index.val]?,
          after.channels[index].Holds part := by
  obtain ⟨first, second, rfl⟩ := List.length_eq_two.1 all
  obtain ⟨answer, leaves⟩ := restoreChannel_cases (speed 0) clock first
  rw [List.findSome?_cons]
  dsimp only [restore]
  cases ran : dma.restoreChannel clock 0 first with
  | error reason =>
      rw [ran] at answer
      have stands : first.obstacle? cyclesPerUnit = some (.fault reason) :=
        Obstacle.eq_of_answer answer.symm
      rw [stands]
      refine ⟨rfl, ?_⟩
      rintro _ _ _ ⟨⟩
  | ok result =>
      obtain ⟨answered, between, middle⟩ := result
      obtain ⟨held, others⟩ := leaves _ _ _ ran
      rw [ran] at answer
      cases answered with
      | error error =>
          have stands : first.obstacle? cyclesPerUnit = some (.mismatch error) :=
            Obstacle.eq_of_answer answer.symm
          rw [stands]
          refine ⟨rfl, ?_⟩
          rintro _ _ _ ⟨⟩
          exact nofun
      | ok =>
          have clear : first.obstacle? cyclesPerUnit = none := Obstacle.eq_of_answer answer.symm
          have kept : between.channels[(1 : Fin channelCount)].cyclesPerUnit = cyclesPerUnit := by
            rw [others 1 (by decide)]
            exact speed 1
          obtain ⟨answerSecond, leavesSecond⟩ := restoreChannel_cases kept middle second
          have last : [second].findSome? (Snapshot.obstacle? cyclesPerUnit)
              = second.obstacle? cyclesPerUnit := by
            simp
          rw [clear, last]
          refine ⟨answerSecond, fun answer after later done accepted index part listed => ?_⟩
          obtain ⟨heldSecond, othersSecond⟩ := leavesSecond answer after later done
          obtain rfl | rfl := first_or_second index
          · cases listed
            rw [othersSecond 0 (by decide)]
            exact held rfl
          · cases listed
            exact heldSecond accepted

end Dma

end SocPeripherals
