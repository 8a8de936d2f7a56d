import SocPeripherals.Bus.Ram
import SocPeripherals.Proofs.Dma.Pieces
import Mathlib.Algebra.GroupWithZero.Nat

/-!
# Transfers in pieces and at once

A transfer that takes its time does in the end what it does at once, however it is looked at in the
meantime. What a look at it does is one step of its `Stage`, and the last poll finds all its units
due.
-/

namespace SocPeripherals

namespace Dma

/-- What begins a transfer: the host, or a register write that raises the start bit. -/
inductive Launch where
  | host (source target count control : UInt32)
  | store (width : Width) (address value : UInt32)
deriving DecidableEq, Repr

/-- What happens to a channel while its transfer is under way. -/
inductive Wait where
  | pass (cycles : UInt64)
  | read (width : Width) (address : UInt32)
  | poll
deriving DecidableEq, Repr

/-- The cycles that go by. -/
def Wait.cycles : Wait → Nat
  | .pass cycles => cycles.toNat
  | .read _ _ | .poll => 0

/-- The registers with which a transfer is begun, if one is. -/
def Launch.bank? (bank : Bank registers) : Launch → Option (Bank registers)
  | .host source target count control =>
      some (bank |>.set sourceIndex source |>.set targetIndex target |>.set countIndex count
        |>.set controlIndex ((control ||| startBit) &&& ~~~errorBit))
  | .store width address value => do
      let selection ← Selection.find? registers width address
      let (change, bank) := bank.write selection value
      if selection.index = controlIndex ∧ change.rising &&& startBit ≠ 0 then
        some (bank |>.set controlIndex ((change.new &&& ~~~errorBit) ||| (change.old &&& errorBit))
          |>.clearBits controlIndex errorBit)
      else none

namespace Channel

variable {μ : Type} [Bus μ] {channel after : Channel} {clock later : Clock} {memory there : μ}
  {transfer : Transfer} {bank : Bank registers} {signals : List Signal} {units : Nat}

/-- Begins a transfer. -/
def launch (channel : Channel) (clock : Clock) (memory : μ) :
    Launch → Run Signal (Channel × Clock × μ)
  | .host source target count control => do
      let (_, after) ← channel.start clock memory source target count control
      return after
  | .store width address value => channel.write clock memory width address value

/-- Lets something happen to the channel. -/
def wait (channel : Channel) (clock : Clock) (memory : μ) : Wait → Run Signal (Channel × Clock × μ)
  | .pass cycles => do
      let (_, clock) ← clock.increment cycles
      return (channel, clock, memory)
  | .read width address => do
      let (_, after) ← channel.read clock memory width address
      return after
  | .poll => channel.poll clock memory

/-- Lets things happen to the channel in order. -/
def waitAll (channel : Channel) (clock : Clock) (memory : μ) :
    List Wait → Run Signal (Channel × Clock × μ)
  | [] => pure (channel, clock, memory)
  | wait :: rest => do
      let (channel, clock, memory) ← channel.wait clock memory wait
      channel.waitAll clock memory rest

/-! ## Beginning a transfer -/

theorem catchUp_of_idle (idle : channel.transfer = none) (clock : Clock) (memory : μ) :
    channel.catchUp clock memory = pure (channel, clock, memory) := by
  unfold catchUp
  rw [idle]

/-- However a transfer is begun, it is the one that the registers describe. -/
theorem launch_eq (idle : channel.transfer = none) {launch : Launch}
    (begins : launch.bank? channel.bank = some bank) (clock : Clock) (memory : μ) :
    ∃ remarks : List Note, channel.launch clock memory launch
      = Run.ofTraced (Traced.signalAll (remarks.map Signal.note)) >>= fun _ =>
        { channel with bank }.begin clock memory := by
  cases launch with
  | host source target count control =>
      cases begins
      have inactive : channel.isActive = false := by simp [isActive, idle]
      have unremarked : Run.ofTraced (Traced.signalAll ([].map Signal.note)) = pure () := rfl
      refine ⟨[], ?_⟩
      rw [unremarked, pure_bind]
      unfold launch start
      rw [catchUp_of_idle idle]
      change (if channel.isActive = true then _ else _) >>= _ = _
      rw [inactive, if_neg Bool.false_ne_true, bind_assoc]
      exact bind_pure _
  | store width address value =>
      obtain ⟨selection, found, begins⟩ := Option.bind_eq_some_iff.1 begins
      dsimp only at begins
      split at begins
      next rises =>
        obtain ⟨control, rises⟩ := rises
        cases begins
        have inactive : channel.isActive = false := by simp [isActive, idle]
        have noted : Selection.noted Signal.note "dma" registers width address
            = ⟨some selection, (Selection.remark? "dma" width address
              (some selection)).toList.map Signal.note⟩ := by
          unfold Selection.noted
          rw [found]
        refine ⟨(Selection.remark? "dma" width address (some selection)).toList, ?_⟩
        have caughtUp : (liftM (pure (channel, clock, memory) : Traced Signal _)
            : Run Signal (Channel × Clock × μ)) = pure (channel, clock, memory) := rfl
        unfold launch
        dsimp only
        unfold write
        rw [catchUp_of_idle idle, caughtUp, pure_bind]
        dsimp only
        rw [noted, inactive, Run.liftM_bind]
        dsimp only
        rw [if_neg Bool.false_ne_true, if_pos control]
        unfold controlled
        dsimp only
        rw [if_pos rises]
      next => contradiction

theorem toNat_duration (channel : Channel) (total : UInt32)
    (short : total.toNat * channel.cyclesPerUnit.toNat < Clock.horizon.toNat) :
    (channel.duration total).toNat = total.toNat * channel.cyclesPerUnit.toNat := by
  have fits : total.toUInt64.toNat * channel.cyclesPerUnit.toNat < UInt64.size := by
    rw [UInt32.toNat_toUInt64]
    exact short.trans (by decide)
  rw [duration, boundedProduct, if_pos fits, UInt64.toNat_mul, Nat.mod_eq_of_lt fits,
    UInt32.toNat_toUInt64]

/-- A transfer that takes its time waits for its deadline. -/
theorem begin_timed (timed : channel.cyclesPerUnit ≠ 0) (some : channel.bank.get countIndex ≠ 0)
    (short : channel.duration (channel.bank.get countIndex) < Clock.horizon) (clock : Clock)
    (memory : μ) :
    ∃ (due : Deadline) (later : Clock),
      due.time = clock.now + channel.duration (channel.bank.get countIndex) ∧
      later.now = clock.now ∧
      channel.begin clock memory = ⟨.ok ({ channel with
        transfer := channel.described (channel.bank.get countIndex) clock.now due }, later, memory),
        [.note channel.startNote]⟩ := by
  have near : clock.distance (clock.now + channel.duration (channel.bank.get countIndex))
      < Clock.horizon := by rwa [Clock.distance_add]
  obtain ⟨due, later, placed, time, now⟩ : ∃ due later,
      clock.scheduleIn (channel.duration (channel.bank.get countIndex)) = .ok (due, later) ∧
        due.time = clock.now + channel.duration (channel.bank.get countIndex) ∧
        later.now = clock.now := ⟨_, _, if_pos near, rfl, rfl⟩
  refine ⟨due, later, time, now, ?_⟩
  unfold duration at placed
  unfold begin
  dsimp only
  rw [if_pos ⟨timed, some⟩, placed, ← now]
  rfl

/-- A transfer that takes no time, or that has nothing to move, is over when it has begun. -/
theorem begin_at_once (instant : ¬ (channel.cyclesPerUnit ≠ 0 ∧ channel.bank.get countIndex ≠ 0))
    (clock : Clock) (memory : μ) :
    channel.begin clock memory =
      (do
        Run.signal (.note channel.startNote)
        Run.ofTraced ({ channel with
          transfer := channel.described (channel.bank.get countIndex) clock.now none }.advance clock
            memory (channel.bank.get countIndex))) := by
  unfold begin
  dsimp only
  rw [if_neg instant]
  rfl

/-! ## Completed transfers -/

/-- What moving all the units comes to that the registers describe. -/
def carriedOut (channel : Channel) (memory : μ) : Transfer.Progress μ :=
  channel.reach (channel.described (channel.bank.get countIndex) 0 none) memory
    (channel.bank.get countIndex).toNat

/-- The transfer that the registers describe has been carried out, as far as the memory took it. -/
structure Completed (channel : Channel) (memory : μ) (after : Channel) (there : μ)
    (signals : List Signal) : Prop where
  idle : after.transfer = none
  bank : after.bank = (channel.concluded (channel.described (channel.bank.get countIndex) 0 none)
    (channel.carriedOut memory)).bank
  contents : there = (channel.carriedOut memory).memory
  calls : signals.filterMap Signal.host? = (channel.carriedOut memory).calls.reverse
  interrupts : signals.filterMap Signal.interrupt? = [channel.source]

/-- When a transfer began and for when it is due makes no difference to what is moved. -/
theorem reach_described (channel : Channel) (memory : μ) (startedAt : UInt64)
    (due : Option Deadline) :
    channel.reach (channel.described (channel.bank.get countIndex) startedAt due) memory
      (channel.bank.get countIndex).toNat = channel.carriedOut memory :=
  Transfer.moveUnits_congr (by rfl) (by rfl) (by rfl) _ _ memory []

/-- A transfer that has been asked for all its units is completed. -/
theorem Stage.completed {startedAt : UInt64} {due : Option Deadline}
    (described : transfer = channel.described (channel.bank.get countIndex) startedAt due)
    (stage : Stage channel transfer memory (transfer.total.toNat - transfer.moved.toNat) after there
      signals) :
    Completed channel memory after there signals := by
  subst described
  have carried := reach_described channel memory startedAt due
  obtain ⟨ended, interrupts⟩ := stage.finished (.inr (Nat.zero_add _))
  change after = channel.concluded _ (channel.reach _ memory (channel.bank.get countIndex).toNat)
    at ended
  rw [carried] at ended
  exact {
    idle := ended ▸ rfl
    bank := ended ▸ rfl
    contents := stage.contents.trans (congrArg _ carried)
    calls := stage.calls.trans (congrArg (fun progress => progress.calls.reverse) carried)
    interrupts }

/-- A transfer that happens at once has been asked for all its units when it has begun. -/
theorem begin_at_once_stage
    (instant : ¬ (channel.cyclesPerUnit ≠ 0 ∧ channel.bank.get countIndex ≠ 0)) (clock : Clock)
    (memory : μ) :
    (channel.begin clock memory).Gives fun (after, later, there) signals =>
      later.now = clock.now ∧
        Stage channel (channel.described (channel.bank.get countIndex) clock.now none) memory
          (channel.bank.get countIndex).toNat after there signals := by
  rw [begin_at_once instant]
  refine .bind (.signal _) ?_
  rintro _ _ rfl
  generalize described : channel.described (channel.bank.get countIndex) clock.now none = transfer
  have whole : transfer.moved.toNat + (channel.bank.get countIndex).toNat = transfer.total.toNat := by
    subst described
    exact Nat.zero_add _
  have all : transfer.outstanding (channel.bank.get countIndex)
      = (channel.bank.get countIndex).toNat := by
    subst described
    rw [Transfer.outstanding_eq]
    exact Nat.min_self _
  have active : Channel.transfer { channel with transfer := some transfer } = some transfer := rfl
  have ends : channel.Ends transfer memory (channel.bank.get countIndex).toNat := .inr whole
  have now := (advance_step active clock memory (channel.bank.get countIndex)).1.serves.follows.now
  obtain ⟨contents, calls, _, finished⟩ :=
    advance_spec active clock memory (channel.bank.get countIndex)
  rw [all] at contents calls finished
  refine ⟨(advance { channel with transfer := some transfer } clock memory _).value, rfl, now, ?_⟩
  exact {
    within := whole.le
    contents
    calls
    going := fun goes => absurd ends goes
    finished := fun _ => finished ((ends_iff whole.le).1 ends) }

/-! ## Waiting for the deadline -/

/-- How long a transfer has lasted. -/
def lasted (clock : Clock) (transfer : Transfer) : Nat := (clock.now - transfer.startedAt).toNat

theorem lasted_congr (now : later.now = clock.now) :
    lasted later transfer = lasted clock transfer := by
  unfold lasted
  rw [now]

theorem lasted_of_now {cycles : UInt64} (now : later.now = clock.now + cycles)
    (brief : lasted clock transfer + cycles.toNat < Clock.horizon.toNat) :
    lasted later transfer = lasted clock transfer + cycles.toNat := by
  unfold lasted at *
  have sum : later.now - transfer.startedAt = clock.now - transfer.startedAt + cycles := by
    rw [now]
    grind
  rw [sum, UInt64.toNat_add]
  exact Nat.mod_eq_of_lt (brief.trans (by decide))

theorem lasted_of_increment {cycles : UInt64}
    (brief : lasted clock transfer + cycles.toNat < Clock.horizon.toNat) :
    ∃ reached later, clock.increment cycles = .ok (reached, later) ∧
      lasted later transfer = lasted clock transfer + cycles.toNat := by
  have short : cycles < Clock.horizon :=
    UInt64.lt_iff_toNat_lt.2 ((Nat.le_add_left _ _).trans_lt brief)
  exact ⟨_, _, Clock.increment_of_lt short, lasted_of_now rfl brief⟩

/-- The deadline of a transfer is reached when it has lasted its time. -/
theorem hasReached_due_iff {due : Deadline}
    (time : due.time = transfer.startedAt + channel.duration transfer.total)
    (short : channel.duration transfer.total < Clock.horizon)
    (brief : lasted clock transfer < Clock.horizon.toNat) :
    clock.hasReached due.time = true ↔
      (channel.duration transfer.total).toNat ≤ lasted clock transfer := by
  have left : clock.now - due.time
      = clock.now - transfer.startedAt - channel.duration transfer.total := by
    rw [time]
    grind
  unfold Clock.hasReached lasted at *
  rw [left, decide_eq_true_iff, ← UInt64.le_iff_toNat_le]
  rw [← UInt64.lt_iff_toNat_lt] at brief
  generalize clock.now - transfer.startedAt = elapsed at *
  generalize channel.duration transfer.total = duration at *
  unfold Clock.horizon at *
  constructor <;> intro <;> grind

/-- A transfer of the channel that waits for its deadline, or has nothing left to move. -/
structure Awaiting (channel : Channel) (transfer : Transfer) : Prop where
  performs : channel.Performs transfer
  waits : transfer.due = none ∧ transfer.moved = transfer.total ∨
    ∃ due, transfer.due = some due ∧
      due.time = transfer.startedAt + channel.duration transfer.total

/-- A poll from the deadline on asks for all the units. -/
theorem Awaiting.poll_stage (awaiting : channel.Awaiting transfer)
    (stage : Stage channel transfer memory units after there signals)
    (brief : lasted clock transfer < Clock.horizon.toNat)
    (late : (channel.duration transfer.total).toNat ≤ lasted clock transfer) :
    Stage channel transfer memory (transfer.total.toNat - transfer.moved.toNat)
      (after.poll clock there).value.1 (after.poll clock there).value.2.2
      (signals ++ (after.poll clock there).signals) := by
  obtain ⟨performs, ⟨idle, all⟩ | ⟨due, waits, time⟩⟩ := awaiting
  · have within := stage.within
    have none_left : transfer.total.toNat - transfer.moved.toNat = units := by
      rw [all] at *
      omega
    rw [none_left]
    exact stage.poll_of_ahead fun due waits => absurd (idle.symm.trans waits) (by simp)
  · have reached := (hasReached_due_iff time performs.short brief).2 late
    have regular : channel.Regular clock transfer :=
      ⟨due, waits, time, brief.trans_le (Nat.le_add_left _ _)⟩
    exact stage.poll_of_reached performs.timed waits reached
      (total_le_dueUnits performs regular waits reached)

/-- A poll before the deadline does nothing. -/
theorem Awaiting.poll_early (awaiting : channel.Awaiting transfer)
    (stage : Stage channel transfer memory units after there signals)
    (brief : lasted clock transfer < Clock.horizon.toNat)
    (early : ¬ (channel.duration transfer.total).toNat ≤ lasted clock transfer) :
    Stage channel transfer memory units (after.poll clock there).value.1
      (after.poll clock there).value.2.2 (signals ++ (after.poll clock there).signals) := by
  refine stage.poll_of_ahead fun due held => ?_
  obtain ⟨performs, ⟨idle, _⟩ | ⟨_, waits, time⟩⟩ := awaiting
  · exact absurd (idle.symm.trans held) (by simp)
  · cases waits.symm.trans held
    rw [← Bool.not_eq_true, hasReached_due_iff time performs.short brief]
    exact early

/-- The units that are due of a transfer. -/
def dueBy (channel : Channel) (clock : Clock) (transfer : Transfer) : Nat :=
  min (lasted clock transfer / channel.cyclesPerUnit.toNat) transfer.total.toNat

theorem dueBy_mono (lasts : lasted clock transfer ≤ lasted later transfer) :
    channel.dueBy clock transfer ≤ channel.dueBy later transfer :=
  min_le_min_right _ (Nat.div_le_div_right lasts)

theorem dueBy_eq (channel : Channel) (clock : Clock) (transfer : Transfer) :
    channel.dueBy clock transfer
      = min (channel.dueUnits clock transfer).toNat transfer.total.toNat := by
  have small : transfer.total.toNat ≤ 0xffffffff := Nat.le_of_lt_succ transfer.total.toNat_lt
  rw [toNat_dueUnits, min_assoc, Nat.min_eq_right small]
  rfl

/-- From the deadline on all units are due. -/
theorem Awaiting.dueBy_late (awaiting : channel.Awaiting transfer)
    (late : (channel.duration transfer.total).toNat ≤ lasted clock transfer) :
    channel.dueBy clock transfer = transfer.total.toNat := by
  rw [awaiting.performs.toNat_duration] at late
  have timed : 0 < channel.cyclesPerUnit.toNat :=
    UInt64.lt_iff_toNat_lt.1 (UInt64.pos_iff_ne_zero.2 awaiting.performs.timed)
  exact Nat.min_eq_right ((Nat.le_div_iff_mul_le timed).2 late)

/-- Whatever happens to the channel, its transfer goes on from where it is, and no units are asked
for before they are due. -/
theorem Awaiting.wait_stage (awaiting : channel.Awaiting transfer)
    (stage : Stage channel transfer memory units after there signals) (wait : Wait)
    (brief : lasted clock transfer + wait.cycles < Clock.horizon.toNat) :
    (after.wait clock there wait).Gives fun (next, later, afterwards) more =>
      lasted later transfer = lasted clock transfer + wait.cycles ∧
        ∃ asked ≤ max units (channel.dueBy later transfer),
          Stage channel transfer memory asked next afterwards (signals ++ more) := by
  cases wait with
  | pass cycles =>
      obtain ⟨reached, later, moved, elapsed⟩ := lasted_of_increment brief
      refine ⟨(after, later, there), ?_, elapsed, units, le_max_left _ _, ?_⟩
      · dsimp only [wait]
        rw [moved]
        rfl
      · dsimp only [wait]
        rw [moved]
        exact stage.remarked rfl rfl
  | read width address =>
      have told := stage.read awaiting.performs.timed clock width address
      have now := (read_step after clock there width address).serves.follows.now
      have alone : after.wait clock there (.read width address)
          = ⟨.ok (after.read clock there width address).value.2,
            (after.read clock there width address).signals⟩ :=
        congrArg (Run.mk _) (List.append_nil _)
      rw [alone]
      refine ⟨_, rfl, lasted_congr now, _, ?_, told⟩
      have due : channel.dueBy clock transfer ≤ channel.dueBy _ transfer :=
        dueBy_mono (lasted_congr now).ge
      rw [dueBy_eq] at due
      exact max_le_max_left units ((Nat.sub_le _ _).trans due)
  | poll =>
      have now := (poll_step after clock there).1.serves.follows.now
      refine ⟨(after.poll clock there).value, rfl, lasted_congr now, ?_⟩
      by_cases late : (channel.duration transfer.total).toNat ≤ lasted clock transfer
      · refine ⟨_, le_max_of_le_right ?_, awaiting.poll_stage stage brief late⟩
        rw [awaiting.dueBy_late (late.trans (lasted_congr now).ge)]
        exact Nat.sub_le _ _
      · exact ⟨_, le_max_left _ _, awaiting.poll_early stage brief late⟩

/-- The cycles that go by altogether. -/
def elapsed (waits : List Wait) : Nat := (waits.map Wait.cycles).sum

/-- Whatever happens to the channel one after the other. -/
theorem Awaiting.waits_stage (awaiting : channel.Awaiting transfer)
    (stage : Stage channel transfer memory units after there signals) (waits : List Wait)
    (brief : lasted clock transfer + elapsed waits < Clock.horizon.toNat) :
    (after.waitAll clock there waits).Gives fun (next, later, afterwards) more =>
      lasted later transfer = lasted clock transfer + elapsed waits ∧
        ∃ asked ≤ max units (channel.dueBy later transfer),
          Stage channel transfer memory asked next afterwards (signals ++ more) := by
  induction waits generalizing after clock there signals units with
  | nil =>
      refine ⟨(after, clock, there), rfl, rfl, units, le_max_left _ _, ?_⟩
      rw [waitAll]
      exact stage.remarked rfl rfl
  | cons wait rest ih =>
      have whole : elapsed (wait :: rest) = wait.cycles + elapsed rest := List.sum_cons
      rw [whole, ← Nat.add_assoc] at brief ⊢
      refine .bind (awaiting.wait_stage stage wait (by omega)) ?_
      rintro ⟨next, later, afterwards⟩ more ⟨lasts, asked, few, stage⟩
      rw [← lasts] at brief ⊢
      refine (ih stage brief).imp ?_
      rintro ⟨last, latest, _⟩ further ⟨lasts, asked, fewer, stage⟩
      have due : channel.dueBy later transfer ≤ channel.dueBy latest transfer :=
        dueBy_mono ((Nat.le_add_right _ _).trans lasts.ge)
      refine ⟨lasts, asked, by omega, ?_⟩
      rwa [← List.append_assoc]

theorem waitAll_append (channel : Channel) (clock : Clock) (memory : μ)
    (first second : List Wait) :
    channel.waitAll clock memory (first ++ second)
      = channel.waitAll clock memory first >>= fun (channel, clock, memory) =>
          channel.waitAll clock memory second := by
  induction first generalizing channel clock memory with
  | nil => rw [waitAll, pure_bind]; rfl
  | cons wait rest ih =>
      rw [List.cons_append, waitAll, waitAll, bind_assoc]
      exact congrArg _ (funext fun (channel, clock, memory) => ih channel clock memory)

/-- Whatever happens to the channel before a last poll at its deadline or later, its transfer has
then been asked for all its units. -/
theorem Awaiting.waitAll_stage (awaiting : channel.Awaiting transfer)
    (stage : Stage channel transfer memory units after there signals) (waits : List Wait)
    (long : (channel.duration transfer.total).toNat ≤ lasted clock transfer + elapsed waits)
    (brief : lasted clock transfer + elapsed waits < Clock.horizon.toNat) :
    (after.waitAll clock there (waits ++ [.poll])).Gives fun (last, _, afterwards) more =>
      Stage channel transfer memory (transfer.total.toNat - transfer.moved.toNat) last afterwards
        (signals ++ more) := by
  rw [waitAll_append]
  refine .bind (awaiting.waits_stage stage waits brief) ?_
  rintro ⟨next, later, afterwards⟩ more ⟨lasts, _, _, stage⟩
  rw [← lasts] at long brief
  have alone : next.waitAll later afterwards [.poll]
      = ⟨.ok (next.poll later afterwards).value, (next.poll later afterwards).signals⟩ :=
    congrArg (Run.mk _) (List.append_nil _)
  dsimp only
  rw [alone]
  refine ⟨_, rfl, ?_⟩
  dsimp only
  rw [← List.append_assoc]
  exact awaiting.poll_stage stage brief long

/-- Whether a transfer is under way makes no difference to where one comes to. -/
theorem Stage.forget {active : Option Transfer}
    (stage : Stage { channel with transfer := active } transfer memory units after there signals) :
    Stage channel transfer memory units after there signals where
  within := stage.within
  contents := stage.contents
  calls := stage.calls
  going := stage.going
  finished := stage.finished

theorem begun_transfer (channel : Channel) (startedAt : UInt64) (due : Deadline) :
    Channel.transfer { channel with
      transfer := channel.described (channel.bank.get countIndex) startedAt (some due) }
        = some (channel.described (channel.bank.get countIndex) startedAt (some due)) := rfl

theorem performs_described (timed : channel.cyclesPerUnit ≠ 0)
    (short : channel.duration (channel.bank.get countIndex) < Clock.horizon) (startedAt : UInt64)
    (due : Option Deadline) :
    channel.Performs (channel.described (channel.bank.get countIndex) startedAt due) :=
  ⟨timed, rfl, rfl, rfl, UInt32.zero_le, short⟩

/-- A transfer that takes its time has not moved anything when it has begun. -/
theorem begin_timed_stage (timed : channel.cyclesPerUnit ≠ 0)
    (some : channel.bank.get countIndex ≠ 0)
    (short : channel.duration (channel.bank.get countIndex) < Clock.horizon) (clock : Clock)
    (memory : μ) :
    (channel.begin clock memory).Gives fun (after, later, there) signals =>
      later.now = clock.now ∧ ∃ due,
        channel.Awaiting (channel.described (channel.bank.get countIndex) clock.now due) ∧
          Stage channel (channel.described (channel.bank.get countIndex) clock.now due) memory
            0 after there signals := by
  obtain ⟨due, later, time, now, begun⟩ := begin_timed timed some short clock memory
  rw [begun]
  refine ⟨_, rfl, now, due, ⟨performs_described timed short _ _, .inr ⟨due, rfl, time⟩⟩, ?_⟩
  have zero := stage_zero (begun_transfer channel clock.now due)
    (UInt32.pos_iff_ne_zero.2 some) memory
  exact zero.forget.remarked rfl rfl

/-- A transfer that has begun in a channel whose transfers take their time. -/
theorem begin_stage (timed : channel.cyclesPerUnit ≠ 0)
    (short : channel.duration (channel.bank.get countIndex) < Clock.horizon) (clock : Clock)
    (memory : μ) :
    (channel.begin clock memory).Gives fun (after, later, there) signals =>
      later.now = clock.now ∧ ∃ due units,
        channel.Awaiting (channel.described (channel.bank.get countIndex) clock.now due) ∧
          Stage channel (channel.described (channel.bank.get countIndex) clock.now due) memory
            units after there signals := by
  by_cases empty : channel.bank.get countIndex = 0
  · refine (begin_at_once_stage (fun takes => takes.2 empty) clock memory).imp ?_
    rintro _ _ ⟨now, stage⟩
    exact ⟨now, none, _, ⟨performs_described timed short _ _, .inl ⟨rfl, empty.symm⟩⟩, stage⟩
  · refine (begin_timed_stage timed empty short clock memory).imp ?_
    rintro _ _ ⟨now, due, awaiting, stage⟩
    exact ⟨now, due, 0, awaiting, stage⟩

/-- What holds when a transfer has begun holds however it was begun, if remarks make no difference
to it. -/
theorem launch_gives {holds : Channel × Clock × μ → List Signal → Prop} {launch : Launch}
    (idle : channel.transfer = none) (begins : launch.bank? channel.bank = some bank)
    (begun : (begin { channel with bank } clock memory).Gives holds)
    (indifferent : ∀ value signals (remarks : List Note), holds value signals →
      holds value (remarks.map Signal.note ++ signals)) :
    (channel.launch clock memory launch).Gives holds := by
  obtain ⟨remarks, launching⟩ := launch_eq idle begins clock memory
  obtain ⟨value, done, known⟩ := begun
  rw [launching]
  exact ⟨value, done, indifferent value _ remarks known⟩

theorem Stage.preceded (stage : Stage channel transfer memory units after there signals)
    (remarks : List Note) :
    Stage channel transfer memory units after there (remarks.map Signal.note ++ signals) := by
  refine stage.retold ?_ ?_
  · rw [List.filterMap_append, List.filterMap_map]
    exact congrArg (· ++ _) (List.filterMap_eq_nil_iff.2 fun _ _ => rfl)
  · rw [List.filterMap_append, List.filterMap_map]
    exact congrArg (· ++ _) (List.filterMap_eq_nil_iff.2 fun _ _ => rfl)

/-- A transfer that is given its time and then polled is completed. -/
theorem waitAll_completes {request : Launch} {waits : List Wait} (idle : channel.transfer = none)
    (timed : channel.cyclesPerUnit ≠ 0) (begins : request.bank? channel.bank = some bank)
    (short : (bank.get countIndex).toNat * channel.cyclesPerUnit.toNat < Clock.horizon.toNat)
    (long : (bank.get countIndex).toNat * channel.cyclesPerUnit.toNat ≤ elapsed waits)
    (brief : elapsed waits < Clock.horizon.toNat) :
    (channel.launch clock memory request >>= fun (begun, later, there) =>
      begun.waitAll later there (waits ++ [.poll])).Gives fun (after, _, there) signals =>
        Completed { channel with bank } memory after there signals := by
  have length := toNat_duration { channel with bank } (bank.get countIndex) short
  refine .bind (launch_gives idle begins (begin_stage (by exact timed)
    (UInt64.lt_iff_toNat_lt.2 (length ▸ short)) clock memory) ?_) ?_
  · rintro value signals remarks ⟨now, due, units, awaiting, stage⟩
    exact ⟨now, due, units, awaiting, stage.preceded remarks⟩
  · rintro ⟨begun, later, there⟩ signals ⟨now, due, units, awaiting, stage⟩
    have start : lasted later (Channel.described { channel with bank } (bank.get countIndex)
        clock.now due) = 0 := by
      change (later.now - clock.now).toNat = 0
      rw [now, UInt64.sub_self]
      rfl
    refine (awaiting.waitAll_stage stage waits ?_ ?_).imp ?_
    · rw [start, Nat.zero_add]
      exact length.trans_le long
    · rwa [start, Nat.zero_add]
    · rintro ⟨last, _, afterwards⟩ more stage
      exact stage.completed rfl

/-- A transfer that takes no time is completed when it has begun. -/
theorem launch_completes {request : Launch} (idle : channel.transfer = none)
    (begins : request.bank? channel.bank = some bank) :
    (launch { channel with cyclesPerUnit := 0 } clock memory request).Gives
      fun (after, _, there) signals =>
        Completed { channel with bank } memory after there signals := by
  refine .imp (launch_gives idle begins (begin_at_once_stage (fun takes => takes.1 rfl) clock
    memory) ?_) ?_
  · rintro value signals remarks ⟨now, stage⟩
    exact ⟨now, stage.preceded remarks⟩
  · rintro ⟨after, later, there⟩ signals ⟨_, stage⟩
    obtain ⟨ended, bank, contents, calls, interrupts⟩ := stage.completed rfl
    exact ⟨ended, bank, contents, calls, interrupts⟩

/-- A transfer in pieces does in the end what it does at once. Whatever happens to a channel while
its transfer is under way, from the poll at the deadline or later on the memory has seen the same
accesses in the same order, the memory and the registers are the same, the channel is idle, and its
interrupt has been asked for once. -/
theorem pieces_eq_at_once {request : Launch} {waits : List Wait} (idle : channel.transfer = none)
    (timed : channel.cyclesPerUnit ≠ 0) (begins : request.bank? channel.bank = some bank)
    (short : (bank.get countIndex).toNat * channel.cyclesPerUnit.toNat < Clock.horizon.toNat)
    (long : (bank.get countIndex).toNat * channel.cyclesPerUnit.toNat ≤ elapsed waits)
    (brief : elapsed waits < Clock.horizon.toNat) :
    let pieces : Run Signal (Channel × Clock × μ) := do
      let (begun, later, there) ← channel.launch clock memory request
      begun.waitAll later there (waits ++ [.poll])
    let whole := launch { channel with cyclesPerUnit := 0 } clock memory request
    ∃ (inPieces atOnce : Channel) (later clock' : Clock) (there : μ),
      pieces.outcome = .ok (inPieces, later, there) ∧ whole.outcome = .ok (atOnce, clock', there) ∧
      pieces.signals.filterMap Signal.host? = whole.signals.filterMap Signal.host? ∧
      inPieces.bank = atOnce.bank ∧ inPieces.transfer = none ∧ atOnce.transfer = none ∧
      pieces.signals.filterMap Signal.interrupt? = [channel.source] ∧
      whole.signals.filterMap Signal.interrupt? = [channel.source] := by
  intro pieces whole
  have inPieces : pieces.Gives fun (after, _, there) signals =>
      Completed { channel with bank } memory after there signals :=
    waitAll_completes idle timed begins short long brief
  have atOnce : whole.Gives fun (after, _, there) signals =>
      Completed { channel with bank } memory after there signals :=
    launch_completes idle begins
  obtain ⟨⟨last, later, there⟩, done, completed⟩ := inPieces
  obtain ⟨⟨once, clock', thereToo⟩, doneToo, completedToo⟩ := atOnce
  obtain rfl := completed.contents.trans completedToo.contents.symm
  exact ⟨last, once, later, clock', there, done, doneToo,
    completed.calls.trans completedToo.calls.symm, completed.bank.trans completedToo.bank.symm,
    completed.idle, completedToo.idle, completed.interrupts, completedToo.interrupts⟩

/-- A transfer of four bytes to the end of a memory that takes only two of them, looked at on the
way. -/
theorem pieces_eq_at_once_refused :
    let channel : Channel := { index := 0, source := 7, cyclesPerUnit := 3 }
    let memory := Ram.ofList [1, 2, 3, 4, 5, 6, 7, 8]
    let request : Launch := .host 0 6 4 0
    let waits : List Wait := [.pass 5, .read .word 8, .pass 20]
    let pieces : Run Signal (Channel × Clock × Ram) := do
      let (begun, later, there) ← channel.launch {} memory request
      begun.waitAll later there (waits ++ [.poll])
    let whole := launch { channel with cyclesPerUnit := 0 } {} memory request
    whole.signals.filterMap Signal.host? = [.read .byte 0, .write .byte 6 1, .read .byte 1,
      .write .byte 7 2, .read .byte 2, .write .byte 8 3] ∧
    ∃ (inPieces atOnce : Channel) (later clock' : Clock) (there : Ram),
      pieces.outcome = .ok (inPieces, later, there) ∧ whole.outcome = .ok (atOnce, clock', there) ∧
      pieces.signals.filterMap Signal.host? = whole.signals.filterMap Signal.host? ∧
      inPieces.bank = atOnce.bank ∧ inPieces.transfer = none ∧ atOnce.transfer = none ∧
      pieces.signals.filterMap Signal.interrupt? = [7] ∧
      whole.signals.filterMap Signal.interrupt? = [7] :=
  ⟨by decide, pieces_eq_at_once rfl (by decide) rfl (by decide) (by decide) (by decide)⟩

end Channel

end Dma

end SocPeripherals
