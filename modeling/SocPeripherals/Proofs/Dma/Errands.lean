import SocPeripherals.Proofs.Dma.Plan
import SocPeripherals.Proofs.Dma.Protection
import SocPeripherals.Proofs.Dma.Reached

/-!
# What a channel has copied of its errand

An errand is what a channel has been asked to copy, how many cycles ago, and which calls it has made
to the memory since. Whatever is done to the channel, the calls of an errand under way are those
that copy its first units, the registers stand behind the last of them, and no unit is copied before
it is due. The deadline comes when the last unit is due, or later if the channel was restored after
that.
-/

namespace SocPeripherals

namespace Dma

/-- The calls that copy the first so many units of a plan, each read at its source before it is
written at its target. -/
inductive Plan.Copies (plan : Plan) : Nat → List BusCall → Prop where
  | none : plan.Copies 0 []
  | next {number : Nat} {calls : List BusCall} (copies : plan.Copies number calls)
      (value : UInt32) :
      plan.Copies (number + 1) (calls ++ [.read plan.unit (plan.sourceAt number),
        .write plan.unit (plan.targetAt number) value])

/-- What a channel has been asked to copy. -/
structure Errand where
  plan : Plan
  /-- The cycles since it was asked. -/
  cycles : Nat
  /-- What the channel has asked of the memory since, oldest first. -/
  calls : List BusCall
deriving DecidableEq

namespace Errand

/-- A new errand. -/
def fresh (plan : Plan) : Errand := ⟨plan, 0, []⟩

/-- The errand after what a channel has signalled on its behalf. -/
def extended (errand : Errand) (signals : List Signal) : Errand :=
  { errand with calls := errand.calls ++ signals.filterMap Signal.host? }

@[simp]
theorem extended_nil (errand : Errand) : errand.extended [] = errand := by
  simp [extended]

/-- Remarks do not matter to an errand. -/
theorem extended_eq {first second : List Signal}
    (same : first.filter (!Signal.isRemark ·) = second.filter (!Signal.isRemark ·))
    (errand : Errand) : errand.extended first = errand.extended second := by
  have calls (signals : List Signal) : signals.filterMap Signal.host?
      = (signals.filter (!Signal.isRemark ·)).filterMap Signal.host? := by
    rw [List.filterMap_filter]
    refine List.filterMap_congr fun signal _ => ?_
    cases signal <;> rfl
  unfold extended
  rw [calls first, same, ← calls second]

/-- The errand after so many cycles. -/
def aged (errand : Errand) (cycles : Nat) : Errand :=
  { errand with cycles := errand.cycles + cycles }

/-- The units of which the time has come. -/
def due (errand : Errand) (cyclesPerUnit : UInt64) : Nat :=
  min errand.plan.count.toNat (errand.cycles / cyclesPerUnit.toNat)

/-- Just so many units have been copied, as a channel's registers tell. -/
def HasCopied (errand : Errand) (channel : Channel) (units : Nat) : Prop :=
  errand.plan.Copies units errand.calls ∧ channel.StandsAt errand.plan units

end Errand

/-! ## Moving units, reading and waiting -/

section Moving

variable {μ : Type} [Bus μ] {plan : Plan} {transfer : Transfer} {number : Nat}
  {calls : List BusCall}

/-- A unit that the memory takes is read and then written. -/
theorem calls_moveUnit {position : Transfer.Position} {memory : μ}
    (taken : (transfer.moveUnit position memory calls).refusal = none) :
    (transfer.moveUnit position memory calls).position = transfer.advance position ∧
      ∃ value, (transfer.moveUnit position memory calls).calls =
        .write transfer.unit position.target value :: .read transfer.unit position.source
          :: calls := by
  unfold Transfer.moveUnit at *
  generalize Bus.read memory transfer.unit position.source = answered at *
  obtain ⟨_ | value, there⟩ := answered
  · contradiction
  · dsimp only at *
    generalize Bus.write there transfer.unit position.target value = answered at *
    obtain ⟨_ | _, there⟩ := answered
    · contradiction
    · exact ⟨rfl, value, rfl⟩

/-- As long as the memory takes the units, moving them copies the next ones of the plan. -/
theorem Plan.Describes.copies (describes : plan.Describes transfer)
    (copies : plan.Copies number calls) (memory : μ) (count : Nat)
    (taken : (transfer.moveUnits count (plan.position number) memory []).refusal = none) :
    let progress := transfer.moveUnits count (plan.position number) memory []
    progress.position = plan.position (number + count) ∧
      plan.Copies (number + count) (calls ++ progress.calls.reverse) := by
  induction count with
  | zero => exact ⟨rfl, by simpa [Transfer.moveUnits] using copies⟩
  | succ count ih =>
      rw [transfer.moveUnits_succ] at taken ⊢
      cases going : (transfer.moveUnits count (plan.position number) memory []).refusal with
      | some refusal =>
          dsimp only at taken
          simp only [going] at taken
          exact absurd taken (by simp)
      | none =>
          obtain ⟨here, before⟩ := ih going
          generalize transfer.moveUnits count (plan.position number) memory [] = progress at *
          dsimp only at *
          simp only [going] at taken ⊢
          obtain ⟨further, value, made⟩ := calls_moveUnit taken
          constructor
          · rw [further, here, describes.advance]
            rfl
          · rw [made, here, describes.unit, List.reverse_cons, List.reverse_cons, List.append_assoc,
              ← List.append_assoc]
            exact before.next value

/-- A read signals what it does to bring the channel up to date, and remarks. -/
theorem Channel.filter_read (channel : Channel) (clock : Clock) (memory : μ) (width : Width)
    (address : UInt32) :
    (channel.read clock memory width address).signals.filter (!Signal.isRemark ·)
      = (channel.catchUp clock memory).signals.filter (!Signal.isRemark ·) := by
  have told := (channel.read_agrees clock memory width address).signals
  change ((channel.read clock memory width address).signals ++ []).filter _ = _ at told
  rwa [List.append_nil] at told

/-- A poll does nothing for a transfer that does not wait, or waits for a deadline ahead. -/
theorem Channel.poll_of_waiting {channel : Channel} {transfer : Transfer} {clock : Clock}
    (active : channel.transfer = some transfer) (ahead : ¬ ∃ deadline,
      transfer.due = some deadline ∧ clock.hasReached deadline.time = true) (memory : μ) :
    channel.poll clock memory = pure (channel, clock, memory) := by
  refine Channel.poll_of_ahead (fun deadline held => ?_) memory
  obtain ⟨_, same, due⟩ := Channel.mem_held.1 held
  cases active.symm.trans same
  exact Bool.eq_false_of_not_eq_true fun reached => ahead ⟨deadline, due, reached⟩

/-- The memory refuses none of the units that are left of the channel's transfer. -/
def Channel.IsUnhindered (channel : Channel) (memory : μ) : Prop :=
  ∀ transfer ∈ channel.transfer,
    (channel.reach transfer memory (transfer.total.toNat - transfer.moved.toNat)).refusal = none

end Moving

/-! ## Errands under way -/

namespace Errand

variable {errand : Errand} {channel : Channel} {transfer : Transfer} {clock : Clock}

/-- A channel's transfer has copied the first units of its errand, and is to copy the others. -/
structure Copying (errand : Errand) (channel : Channel) (transfer : Transfer) : Prop where
  performs : channel.Performs transfer
  describes : errand.plan.Describes transfer
  total : transfer.total = errand.plan.count
  position : channel.position transfer = errand.plan.position transfer.moved.toNat
  copies : errand.plan.Copies transfer.moved.toNat errand.calls
  unfinished : transfer.moved ≠ transfer.total

/-- The transfer has copied nothing before it was due. -/
structure Paced (errand : Errand) (channel : Channel) (now : UInt64) (transfer : Transfer) : Prop
    extends Copying errand channel transfer where
  paced : transfer.moved.toNat * channel.cyclesPerUnit.toNat ≤ errand.cycles
  time : now = transfer.startedAt + UInt64.ofNat errand.cycles

/-- Unless the cycles are too many to count, the transfer waits for the one at which its last unit
is due, or for one that is over. -/
structure Runs (errand : Errand) (channel : Channel) (now : UInt64) (transfer : Transfer) : Prop
    extends Paced errand channel now transfer where
  waits : errand.cycles < UInt64.size → ∃ deadline cycles, transfer.due = some deadline ∧
    deadline.time = transfer.startedAt + UInt64.ofNat cycles ∧
    transfer.total.toNat * channel.cyclesPerUnit.toNat ≤ cycles ∧
    (cycles = transfer.total.toNat * channel.cyclesPerUnit.toNat ∨ cycles ≤ errand.cycles)

/-- If the channel has a transfer, it runs the errand. -/
def Holds (errand : Errand) (channel : Channel) (now : UInt64) : Prop :=
  ∀ transfer ∈ channel.transfer, errand.Runs channel now transfer

theorem Holds.ofIdle (idle : channel.transfer = none) (errand : Errand) (now : UInt64) :
    errand.Holds channel now := by
  intro transfer active
  rw [idle] at active
  contradiction

theorem Copying.hasCopied (copying : errand.Copying channel transfer) :
    errand.HasCopied channel transfer.moved.toNat := by
  have within := UInt32.le_iff_toNat_le.1 copying.performs.moved
  rw [copying.total] at within
  refine ⟨copying.copies, ?_, ?_, ?_⟩
  · exact congrArg Transfer.Position.source copying.position
  · exact congrArg Transfer.Position.target copying.position
  · exact (congrArg (fun position => position.left.toNat) copying.position).trans
      (Channel.toNat_left within)

/-- The errand runs on any clock that shows the same cycle. -/
theorem Runs.still {now other : UInt64} (runs : errand.Runs channel now transfer)
    (same : other = now) : errand.Runs channel other transfer :=
  same ▸ runs

variable {μ : Type} [Bus μ] {memory : μ} {target : UInt32}

/-- Units that the memory takes are copied as the errand says. -/
theorem Copying.reaches (copying : errand.Copying channel transfer) {units : Nat}
    (within : transfer.moved.toNat + units ≤ errand.plan.count.toNat)
    (taken : (channel.reach transfer memory units).refusal = none) :
    let progress := channel.reach transfer memory units
    progress.position = errand.plan.position (transfer.moved.toNat + units) ∧
      progress.position.moved.toNat = transfer.moved.toNat + units ∧
      errand.plan.Copies (transfer.moved.toNat + units)
        (errand.calls ++ progress.calls.reverse) := by
  have moving := copying.describes.copies copying.copies memory units
  rw [← copying.position] at moving
  obtain ⟨here, copies⟩ := moving taken
  refine ⟨here, ?_, copies⟩
  exact (congrArg (fun position => position.moved.toNat) here).trans
    (Channel.toNat_ofNat_of_le within)

omit [Bus μ] in
theorem Copying.outstanding_le (copying : errand.Copying channel transfer) (target : UInt32) :
    transfer.moved.toNat + transfer.outstanding target ≤ errand.plan.count.toNat := by
  rw [← copying.total]
  exact (Channel.toNat_add_taken copying.performs.moved le_rfl).2

/-- A transfer that the memory does not hinder copies what is asked for. -/
theorem Copying.hasCopied_advance (copying : errand.Copying channel transfer)
    (active : channel.transfer = some transfer) (clock : Clock) (memory : μ) (target : UInt32)
    (taken : (channel.reach transfer memory (transfer.outstanding target)).refusal = none) :
    let advanced := channel.advance clock memory target
    (errand.extended advanced.signals).HasCopied advanced.value.1
      (transfer.moved.toNat + transfer.outstanding target) := by
  obtain ⟨-, told, going, finished⟩ := Channel.advance_spec active clock memory target
  have within := copying.outstanding_le target
  obtain ⟨here, count, copies⟩ := copying.reaches within taken
  dsimp only at *
  rw [← told] at copies
  refine ⟨copies, ?_⟩
  by_cases done : (channel.reach transfer memory (transfer.outstanding target)).refusal ≠ none ∨
      (channel.reach transfer memory (transfer.outstanding target)).position.moved = transfer.total
  · rw [(finished done).1]
    refine Channel.concluded_standsAt channel transfer here within fun _ => ?_
    have all := done.resolve_left fun refused => refused taken
    rw [← count, all, copying.total]
    rfl
  · rw [(going done).1, here]
    exact Channel.arrive_standsAt channel transfer within

/-- A transfer that is not over goes on with its errand. -/
theorem Copying.advance (copying : errand.Copying channel transfer)
    (active : channel.transfer = some transfer) (clock : Clock) (memory : μ) (target : UInt32) :
    let advanced := channel.advance clock memory target
    ∀ going ∈ advanced.value.1.transfer,
      (errand.extended advanced.signals).Copying advanced.value.1 going ∧
        ∃ moved : UInt32, moved.toNat = transfer.moved.toNat + transfer.outstanding target ∧
          going = { transfer with moved } := by
  obtain ⟨-, told, going, finished⟩ := Channel.advance_spec active clock memory target
  have sound : channel.IsSound := fun _ known => by
    cases active.symm.trans known
    exact copying.performs
  have performs := (Channel.advance_step active clock memory target).1.sound sound
  intro advanced later going'
  by_cases done : (channel.reach transfer memory (transfer.outstanding target)).refusal ≠ none ∨
      (channel.reach transfer memory (transfer.outstanding target)).position.moved = transfer.total
  · rw [(finished done).1] at going'
    contradiction
  · obtain ⟨taken, few⟩ := not_or.1 done
    obtain ⟨here, count, copies⟩ :=
      copying.reaches (copying.outstanding_le target) (Decidable.not_not.1 taken)
    have performs := performs later going'
    rw [← told] at copies
    rw [(going done).1] at going' performs ⊢
    cases going'
    refine ⟨?_, _, count, rfl⟩
    exact {
      performs := performs
      describes := { copying.describes with }
      total := copying.total
      position := by
        rw [Channel.position_arrive, count]
        exact here
      copies := by
        rw [count]
        exact copies
      unfinished := few }

omit [Bus μ] in
theorem Copying.pace_pos (copying : errand.Copying channel transfer) :
    0 < channel.cyclesPerUnit.toNat := by
  have timed := copying.performs.timed
  rw [ne_eq, ← UInt64.toNat_inj, UInt64.toNat_zero] at timed
  exact Nat.pos_of_ne_zero timed

omit [Bus μ] in
theorem Paced.elapsed {now : UInt64} (paced : errand.Paced channel now transfer) :
    now - transfer.startedAt = UInt64.ofNat errand.cycles := by
  rw [paced.time]
  grind

omit [Bus μ] in
/-- The units that are outstanding are due. -/
theorem Paced.outstanding_le (paced : errand.Paced channel clock.now transfer) :
    (transfer.moved.toNat + transfer.outstanding (channel.dueUnits clock transfer))
      * channel.cyclesPerUnit.toNat ≤ errand.cycles := by
  have counted : (UInt64.ofNat errand.cycles).toNat ≤ errand.cycles :=
    (UInt64.toNat_ofNat' (n := errand.cycles)).trans_le (Nat.mod_le _ _)
  have due := Nat.div_le_div_right (c := channel.cyclesPerUnit.toNat) counted
  have moved := (Nat.le_div_iff_mul_le paced.pace_pos).2 paced.paced
  refine (Nat.le_div_iff_mul_le paced.pace_pos).1 ?_
  rw [Transfer.outstanding_eq, Channel.toNat_dueUnits, paced.elapsed]
  omega

omit [Bus μ] in
/-- As many units are outstanding as are due and not moved. -/
theorem Paced.outstanding (paced : errand.Paced channel clock.now transfer)
    (recent : errand.cycles < UInt64.size) :
    transfer.outstanding (channel.dueUnits clock transfer)
        = errand.due channel.cyclesPerUnit - transfer.moved.toNat ∧
      transfer.moved.toNat ≤ errand.due channel.cyclesPerUnit := by
  have bound := transfer.total.toNat_lt
  have within := UInt32.le_iff_toNat_le.1 paced.performs.moved
  have moved := (Nat.le_div_iff_mul_le paced.pace_pos).2 paced.paced
  rw [Transfer.outstanding_eq, Channel.toNat_dueUnits, paced.elapsed,
    UInt64.toNat_ofNat_of_lt' recent, due, ← paced.total]
  omega

/-- A channel that is brought up to date copies what is due, unless the memory hinders it. -/
theorem Paced.hasCopied_advance (paced : errand.Paced channel clock.now transfer)
    (active : channel.transfer = some transfer) (memory : μ)
    (recent : errand.cycles < UInt64.size)
    (taken : (channel.reach transfer memory
      (errand.due channel.cyclesPerUnit - transfer.moved.toNat)).refusal = none) :
    let advanced := channel.advance clock memory (channel.dueUnits clock transfer)
    (errand.extended advanced.signals).HasCopied advanced.value.1
      (errand.due channel.cyclesPerUnit) := by
  obtain ⟨outstanding, least⟩ := paced.outstanding recent
  rw [← outstanding] at taken
  have copied := paced.toCopying.hasCopied_advance active clock memory _ taken
  rwa [outstanding, Nat.add_sub_cancel' least] at copied

/-- If its transfer is not over, it goes on at its pace. -/
theorem Paced.advance (paced : errand.Paced channel clock.now transfer)
    (active : channel.transfer = some transfer) (memory : μ) :
    let advanced := channel.advance clock memory (channel.dueUnits clock transfer)
    ∀ going ∈ advanced.value.1.transfer,
      (errand.extended advanced.signals).Paced advanced.value.1 clock.now going ∧
        ∃ moved : UInt32, moved.toNat = transfer.moved.toNat
            + transfer.outstanding (channel.dueUnits clock transfer) ∧
          going = { transfer with moved } := by
  have step := (Channel.advance_step active clock memory (channel.dueUnits clock transfer)).1
  intro advanced going known
  obtain ⟨copying, moved, count, rfl⟩ := paced.toCopying.advance active clock memory
    (channel.dueUnits clock transfer) going known
  refine ⟨?_, moved, count, rfl⟩
  exact { copying with
    paced := by
      rw [count, step.cyclesPerUnit]
      exact paced.outstanding_le
    time := paced.time }

theorem Runs.catchUp (runs : errand.Runs channel clock.now transfer)
    (active : channel.transfer = some transfer) (memory : μ) :
    let caught := channel.catchUp clock memory
    ∀ going ∈ caught.value.1.transfer,
      (errand.extended caught.signals).Runs caught.value.1 clock.now going := by
  have step := channel.catchUp_step clock memory
  have further := runs.toPaced.advance active memory
  rw [← Channel.catchUp_of_timed active runs.performs.timed] at further
  intro caught going known
  obtain ⟨paced, moved, -, rfl⟩ := further going known
  exact { paced with
    waits := by
      rw [step.cyclesPerUnit]
      exact runs.waits }

theorem Holds.catchUp (holds : errand.Holds channel clock.now) (memory : μ) :
    (errand.extended (channel.catchUp clock memory).signals).Holds
      (channel.catchUp clock memory).value.1 (channel.catchUp clock memory).value.2.1.now := by
  rw [(channel.catchUp_step clock memory).serves.follows.now]
  cases active : channel.transfer with
  | none =>
      rw [Channel.catchUp_of_idle active]
      exact .ofIdle active _ _
  | some transfer =>
      exact (holds transfer active).catchUp active memory

/-! ## Polling -/

omit [Bus μ] in
/-- The deadline has been reached from the cycle that it is for until half of the counter later. -/
theorem Runs.hasReached_iff (runs : errand.Runs channel clock.now transfer)
    (recent : errand.cycles < UInt64.size) :
    ∃ deadline cycles, transfer.due = some deadline ∧
      errand.plan.count.toNat * channel.cyclesPerUnit.toNat ≤ cycles ∧
      (cycles = errand.plan.count.toNat * channel.cyclesPerUnit.toNat ∨ cycles ≤ errand.cycles) ∧
      (clock.hasReached deadline.time = true ↔
        cycles ≤ errand.cycles ∧ errand.cycles < cycles + Clock.horizon.toNat) := by
  obtain ⟨deadline, cycles, due, time, least, most⟩ := runs.waits recent
  have short := runs.performs.duration_eq.2
  rw [runs.total] at least most short
  refine ⟨deadline, cycles, due, least, most, ?_⟩
  have behind : clock.now - deadline.time = UInt64.ofNat errand.cycles - UInt64.ofNat cycles := by
    rw [runs.time, time]
    grind
  have horizon : Clock.horizon.toNat = 0x7fffffffffffffff := rfl
  have size : UInt64.size = 0x10000000000000000 := rfl
  have few : cycles < UInt64.size := by omega
  rw [Clock.hasReached, behind, decide_eq_true_iff, UInt64.lt_iff_toNat_lt, UInt64.toNat_sub,
    UInt64.toNat_ofNat_of_lt' recent, UInt64.toNat_ofNat_of_lt' few]
  omega

omit [Bus μ] in
/-- Before half of the counter has passed since the last unit is due, the deadline has been reached
just if that unit is due. -/
theorem Runs.reached_iff_due (runs : errand.Runs channel clock.now transfer)
    (recent : errand.cycles
      < errand.plan.count.toNat * channel.cyclesPerUnit.toNat + Clock.horizon.toNat) :
    errand.cycles < UInt64.size ∧ ∃ deadline, transfer.due = some deadline ∧
      (clock.hasReached deadline.time = true ↔
        errand.plan.count.toNat * channel.cyclesPerUnit.toNat ≤ errand.cycles) := by
  have short := runs.performs.duration_eq.2
  rw [runs.total] at short
  have few : errand.cycles < UInt64.size := by
    have twice : Clock.horizon.toNat + Clock.horizon.toNat < UInt64.size := by decide
    omega
  obtain ⟨deadline, cycles, due, least, most, reached⟩ := runs.hasReached_iff few
  refine ⟨few, deadline, due, reached.trans ?_⟩
  omega

omit [Bus μ] in
/-- The errand is kept to as well when the deadline is let go of. -/
theorem Runs.released (runs : errand.Runs channel clock.now transfer) :
    errand.Paced (channel.letGo transfer) clock.now { transfer with due := none } :=
  { runs.toPaced with
    performs := { runs.performs with }
    describes := { runs.describes with } }

omit [Bus μ] in
/-- When the deadline has been reached, all units are due. -/
theorem Runs.due_of_reached (runs : errand.Runs channel clock.now transfer) {deadline : Deadline}
    (waits : transfer.due = some deadline) (reached : clock.hasReached deadline.time = true)
    (recent : errand.cycles < UInt64.size) :
    errand.due channel.cyclesPerUnit = transfer.total.toNat := by
  obtain ⟨_, cycles, same, least, -, late⟩ := runs.hasReached_iff recent
  cases waits.symm.trans same
  rw [runs.total]
  exact Nat.min_eq_left ((Nat.le_div_iff_mul_le runs.pace_pos).2 (least.trans (late.1 reached).1))

/-- A poll at a deadline that has been reached lets go of it and brings the channel up to date. -/
theorem Runs.poll_eq (runs : errand.Runs channel clock.now transfer)
    (active : channel.transfer = some transfer) {deadline : Deadline}
    (waits : transfer.due = some deadline) (reached : clock.hasReached deadline.time = true)
    (memory : μ) :
    channel.poll clock memory = (channel.letGo transfer).advance clock memory
      (channel.dueUnits clock transfer) := by
  have going : (channel.letGo transfer).transfer = some { transfer with due := none } := rfl
  rw [Channel.poll_of_reached active waits reached]
  exact Channel.catchUp_of_timed going runs.performs.timed clock memory

/-- A poll at a deadline that has been reached copies what is left, unless the memory hinders it. -/
theorem Runs.hasCopied_poll (runs : errand.Runs channel clock.now transfer)
    (active : channel.transfer = some transfer) {deadline : Deadline}
    (waits : transfer.due = some deadline) (reached : clock.hasReached deadline.time = true)
    (memory : μ) (recent : errand.cycles < UInt64.size)
    (taken : (channel.reach transfer memory
      (transfer.total.toNat - transfer.moved.toNat)).refusal = none) :
    let polled := channel.poll clock memory
    (errand.extended polled.signals).HasCopied polled.value.1 errand.plan.count.toNat := by
  have all := runs.due_of_reached waits reached recent
  have reach := congrArg Transfer.Progress.refusal (Channel.reach_due channel transfer memory
    (errand.due channel.cyclesPerUnit - transfer.moved.toNat) none)
  have copied := runs.released.hasCopied_advance rfl memory recent
    (reach.trans (by rwa [all]))
  dsimp only
  rw [runs.poll_eq active waits reached memory, ← runs.total, ← all]
  exact copied

/-- If such a poll leaves a transfer under way, its cycles are too many to count. -/
theorem Runs.poll_of_reached (runs : errand.Runs channel clock.now transfer)
    (active : channel.transfer = some transfer) {deadline : Deadline}
    (waits : transfer.due = some deadline) (reached : clock.hasReached deadline.time = true)
    (memory : μ) :
    let polled := channel.poll clock memory
    ∀ going ∈ polled.value.1.transfer,
      (errand.extended polled.signals).Runs polled.value.1 clock.now going := by
  have released := runs.released
  dsimp only
  rw [runs.poll_eq active waits reached memory]
  intro later known
  obtain ⟨paced, moved, units, rfl⟩ := released.advance rfl memory later known
  refine { paced with waits := fun recent => absurd (UInt32.toNat_inj.1 ?_) paced.unfinished }
  obtain ⟨outstanding, least⟩ := released.outstanding recent
  rw [units, outstanding]
  exact (Nat.add_sub_cancel' least).trans (runs.due_of_reached waits reached recent)

/-- A poll before the last unit is due does nothing. -/
theorem Runs.poll_early (runs : errand.Runs channel clock.now transfer)
    (active : channel.transfer = some transfer)
    (early : errand.cycles < errand.plan.count.toNat * channel.cyclesPerUnit.toNat) (memory : μ) :
    channel.poll clock memory = pure (channel, clock, memory) := by
  obtain ⟨-, deadline, waits, reached⟩ :=
    runs.reached_iff_due (early.trans_le (Nat.le_add_right _ _))
  refine Channel.poll_of_waiting active ?_ memory
  rintro ⟨_, also, past⟩
  cases waits.symm.trans also
  exact early.not_ge (reached.1 past)

/-- A poll from then on until half of the counter later leaves what is due copied. -/
theorem Runs.poll_late (runs : errand.Runs channel clock.now transfer)
    (active : channel.transfer = some transfer)
    (late : errand.plan.count.toNat * channel.cyclesPerUnit.toNat ≤ errand.cycles)
    (recent : errand.cycles
      < errand.plan.count.toNat * channel.cyclesPerUnit.toNat + Clock.horizon.toNat)
    (unhindered : channel.IsUnhindered memory) :
    let polled := channel.poll clock memory
    (errand.extended polled.signals).HasCopied polled.value.1
      (errand.due channel.cyclesPerUnit) := by
  obtain ⟨few, deadline, waits, reached⟩ := runs.reached_iff_due recent
  have all : errand.due channel.cyclesPerUnit = errand.plan.count.toNat :=
    Nat.min_eq_left ((Nat.le_div_iff_mul_le runs.pace_pos).2 late)
  rw [all]
  exact runs.hasCopied_poll active waits (reached.2 late) memory few (unhindered transfer active)

/-- To be brought up to date always leaves what is due copied. -/
theorem Runs.hasCopied_catchUp (runs : errand.Runs channel clock.now transfer)
    (active : channel.transfer = some transfer) (recent : errand.cycles < UInt64.size)
    (unhindered : channel.IsUnhindered memory) :
    let caught := channel.catchUp clock memory
    (errand.extended caught.signals).HasCopied caught.value.1
      (errand.due channel.cyclesPerUnit) := by
  have within : errand.due channel.cyclesPerUnit ≤ transfer.total.toNat :=
    runs.total ▸ Nat.min_le_left _ _
  dsimp only
  rw [Channel.catchUp_of_timed active runs.performs.timed]
  refine runs.hasCopied_advance active memory recent ?_
  by_contra refused
  have more := Channel.reach_of_refused refused
    (Nat.sub_le_sub_right within transfer.moved.toNat)
  exact refused (more ▸ unhindered transfer active)

theorem Holds.poll (holds : errand.Holds channel clock.now) (memory : μ) :
    (errand.extended (channel.poll clock memory).signals).Holds
      (channel.poll clock memory).value.1 (channel.poll clock memory).value.2.1.now := by
  rw [(channel.poll_step clock memory).1.serves.follows.now]
  cases active : channel.transfer with
  | none =>
      have idle : channel.poll clock memory = pure (channel, clock, memory) := by
        unfold Channel.poll
        rw [active]
      rw [idle]
      exact .ofIdle active _ _
  | some transfer =>
      have runs := holds transfer active
      by_cases waiting : ∃ deadline, transfer.due = some deadline ∧
          clock.hasReached deadline.time = true
      · obtain ⟨deadline, waits, reached⟩ := waiting
        exact runs.poll_of_reached active waits reached memory
      · rw [Channel.poll_of_waiting active waiting memory, Traced.signals_pure, extended_nil]
        exact holds

/-! ## Being asked -/

/-- If an errand is known, the channel runs it. -/
def HoldsIfKnown (errand : Option Errand) (channel : Channel) (now : UInt64) : Prop :=
  ∀ known ∈ errand, known.Holds channel now

/-- The errand, if one is known, after what a channel has signalled on its behalf. -/
def extendedIfKnown (errand : Option Errand) (signals : List Signal) : Option Errand :=
  errand.map fun known => known.extended signals

/-- The errand of a channel that was brought up to date in an access. A transfer that is under way
only afterwards is a new errand. -/
def accessed (errand : Option Errand) (caught after : Channel) (signals : List Signal) :
    Option Errand :=
  if after.isActive = true ∧ ¬ caught.isActive = true then some (fresh (.ofBank after.bank))
  else extendedIfKnown errand signals

/-- A transfer that begins has copied nothing. -/
theorem begin_holds (channel : Channel) (clock : Clock) (memory : μ) :
    (channel.begin clock memory).Ensures fun (after, later, _) =>
      (fresh (.ofBank after.bank)).Holds after later.now := by
  unfold Channel.begin
  refine .bind (.trivial _) fun _ _ => ?_
  split
  next takesTime =>
    refine .bind (.except _) ?_
    rintro ⟨due, later⟩ placed
    have now : later.now = clock.now :=
      (Clock.Serves.scheduleIn placed UInt64.zero_le).follows.now
    have performs : Channel.Performs { channel with transfer := some (channel.described
        (channel.bank.get countIndex) later.now (some due)) }
          (channel.described (channel.bank.get countIndex) later.now (some due)) :=
      ⟨takesTime.1, rfl, rfl, rfl, UInt32.zero_le, Channel.short_of_scheduleIn placed⟩
    have length := performs.toNat_duration
    apply Run.Ensures.pure
    rintro _ ⟨⟩
    exact {
      performs := performs
      describes := channel.describes_described _ _ _
      total := rfl
      position := channel.position_described _ _ _
      copies := .none
      unfinished := Ne.symm takesTime.2
      paced := (Nat.zero_mul _).le
      time := (UInt64.add_zero _).symm
      waits := fun _ => by
        refine ⟨due, _, rfl, ?_, length.ge, .inl length⟩
        rw [(Clock.pending_of_scheduleAt placed).2, UInt64.ofNat_toNat, ← now]
        rfl }
  next =>
    refine (Run.Ensures.traced _).imp ?_
    rintro _ rfl
    have active : ({ channel with
        transfer := some (channel.described (channel.bank.get countIndex) clock.now none) }
        : Channel).transfer = _ := rfl
    have ended := (Channel.advance_step active clock memory (channel.bank.get countIndex)).2
      UInt32.zero_le (UInt32.le_refl _)
    exact .ofIdle ended _ _

/-- Whatever is under way after a request to an idle channel has just begun. -/
theorem start_begins (idle : ¬ (channel.catchUp clock memory).value.1.isActive = true)
    (source target count control : UInt32) :
    (channel.start clock memory source target count control).Ensures fun (_, after, later, _) =>
      (fresh (.ofBank after.bank)).Holds after later.now := by
  unfold Channel.start
  refine .bind (.traced (channel.catchUp clock memory)) ?_
  rintro _ rfl
  dsimp only
  rw [if_neg idle]
  exact .bind (begin_holds _ _ _) fun _ begins => .pure begins

/-- Whatever is under way after a write to an idle channel has just begun. -/
theorem write_begins (idle : ¬ (channel.catchUp clock memory).value.1.isActive = true)
    (width : Width) (address value : UInt32) :
    (channel.write clock memory width address value).Ensures fun (after, later, _) =>
      (fresh (.ofBank after.bank)).Holds after later.now := by
  have still : (channel.catchUp clock memory).value.1.transfer = none := by
    simpa [Channel.isActive] using idle
  refine (channel.write_writes clock memory width address value).imp ?_
  rintro ⟨after, later, memory'⟩ writes
  cases writes with
  | missed => exact .ofIdle still _ _
  | busy active => exact absurd active idle
  | control _ _ _ done =>
      unfold Channel.controlled at done
      dsimp only at done
      split at done
      next => exact begin_holds _ _ _ _ done
      next =>
        cases done
        exact .ofIdle (by exact still) _ _
  | store => exact .ofIdle (by exact still) _ _

variable {caught after : Channel} {now : UInt64}

namespace HoldsIfKnown

variable {errand : Option Errand} {signals : List Signal}

omit [Bus μ] in
theorem ofIdle (idle : channel.transfer = none) (errand : Option Errand) (now : UInt64) :
    HoldsIfKnown errand channel now :=
  fun _ _ => .ofIdle idle _ _

omit [Bus μ] in
theorem extended (holds : ∀ known ∈ errand, (known.extended signals).Holds channel now) :
    HoldsIfKnown (extendedIfKnown errand signals) channel now := by
  intro _ further
  obtain ⟨known, here, rfl⟩ := Option.map_eq_some_iff.1 further
  exact holds known here

omit [Bus μ] in
theorem begun (idle : ¬ caught.isActive = true)
    (holds : (fresh (.ofBank after.bank)).Holds after now) (errand : Option Errand)
    (signals : List Signal) : HoldsIfKnown (accessed errand caught after signals) after now := by
  by_cases active : after.isActive = true
  · rw [accessed, if_pos ⟨active, idle⟩]
    rintro _ ⟨⟩
    exact holds
  · exact ofIdle (by simpa [Channel.isActive] using active) _ _

omit [Bus μ] in
theorem accessed_self (errand : Option Errand) (caught : Channel) (signals : List Signal) :
    accessed errand caught caught signals = extendedIfKnown errand signals :=
  if_neg fun begun => begun.2 begun.1

/-- An access may do no more than bring the channel up to date. -/
theorem catchUp (holds : HoldsIfKnown errand channel clock.now) {memory : μ}
    (told : signals.filter (!Signal.isRemark ·)
      = (channel.catchUp clock memory).signals.filter (!Signal.isRemark ·)) :
    let caught := (channel.catchUp clock memory).value
    HoldsIfKnown (accessed errand caught.1 caught.1 signals) caught.1 caught.2.1.now := by
  dsimp only
  rw [accessed_self]
  refine extended fun known here => ?_
  rw [extended_eq told]
  exact (holds known here).catchUp memory

theorem read (holds : HoldsIfKnown errand channel clock.now) (memory : μ) (width : Width)
    (address : UInt32) :
    let read := channel.read clock memory width address
    HoldsIfKnown (accessed errand (channel.catchUp clock memory).value.1 read.value.2.1
      read.signals) read.value.2.1 read.value.2.2.1.now := by
  dsimp only
  rw [(channel.read_eq clock memory width address).1]
  exact holds.catchUp (channel.filter_read clock memory width address)

theorem start (holds : HoldsIfKnown errand channel clock.now) (memory : μ)
    (source target count control : UInt32) :
    (channel.start clock memory source target count control).Tells
      fun (_, after, later, _) signals =>
        HoldsIfKnown (accessed errand (channel.catchUp clock memory).value.1 after signals) after
          later.now := by
  by_cases active : (channel.catchUp clock memory).value.1.isActive = true
  · rw [Channel.start_of_active active, ← bind_pure_comp]
    refine .conclude (.traced _) ?_
    rintro _ _ ⟨rfl, rfl⟩
    exact ⟨_, rfl, holds.catchUp rfl⟩
  · exact fun ended done => begun active (start_begins active _ _ _ _ ended done) _ _

theorem write (holds : HoldsIfKnown errand channel clock.now) (memory : μ) (width : Width)
    (address value : UInt32) :
    (channel.write clock memory width address value).Tells fun (after, later, _) signals =>
      HoldsIfKnown (accessed errand (channel.catchUp clock memory).value.1 after signals) after
        later.now := by
  by_cases active : (channel.catchUp clock memory).value.1.isActive = true
  · have agrees := Channel.write_agrees active width address value
    intro ended done
    rw [agrees.outcome] at done
    cases done
    exact holds.catchUp agrees.signals
  · exact fun ended done => begun active (write_begins active _ _ _ ended done) _ _

theorem poll (holds : HoldsIfKnown errand channel clock.now) (memory : μ) :
    let polled := channel.poll clock memory
    HoldsIfKnown (extendedIfKnown errand polled.signals) polled.value.1 polled.value.2.1.now :=
  extended fun known here => (holds known here).poll memory

end HoldsIfKnown

/-! ## Time and restoration -/

omit [Bus μ] in
theorem Holds.aged (holds : errand.Holds channel now) (cycles : UInt64) :
    (errand.aged cycles.toNat).Holds channel (now + cycles) := by
  intro transfer active
  have few : errand.cycles ≤ (errand.aged cycles.toNat).cycles := Nat.le_add_right _ _
  have runs := holds transfer active
  exact { runs.toCopying with
    paced := runs.paced.trans few
    time := by
      have sum : UInt64.ofNat (errand.aged cycles.toNat).cycles
          = UInt64.ofNat errand.cycles + cycles := by
        rw [Errand.aged, UInt64.ofNat_add, UInt64.ofNat_toNat]
      rw [sum, runs.time, UInt64.add_assoc]
    waits := fun recent => by
      obtain ⟨deadline, waiting, due, time, least, most⟩ := runs.waits (few.trans_lt recent)
      exact ⟨deadline, waiting, due, time, least, most.imp_right few.trans'⟩ }

/-- What is left of a saved transfer comes after what has elapsed of it. -/
theorem elapsed_add_rest (saved : TransferSnapshot) (cyclesPerUnit : UInt64) :
    saved.elapsed + saved.rest cyclesPerUnit = UInt64.ofNat
      (max (boundedProduct saved.total.toUInt64 cyclesPerUnit).toNat saved.elapsed.toNat) := by
  unfold TransferSnapshot.rest
  dsimp only
  generalize boundedProduct saved.total.toUInt64 cyclesPerUnit = duration
  split
  next early =>
    rw [Nat.max_eq_left (UInt64.le_iff_toNat_le.1 (UInt64.le_of_lt early)), UInt64.ofNat_toNat]
    grind
  next late =>
    rw [Nat.max_eq_right (UInt64.le_iff_toNat_le.1 (UInt64.not_lt.1 late)), UInt64.ofNat_toNat,
      UInt64.add_zero]

omit [Bus μ] in
/-- A channel with the registers of another one takes over its transfer. -/
theorem Runs.resume {origin : Channel} (runs : errand.Runs origin now transfer)
    (bank : channel.bank = origin.bank) (pace : channel.cyclesPerUnit = origin.cyclesPerUnit)
    {later : Clock} (done : channel.resume clock
      ⟨transfer.total, transfer.moved, now - transfer.startedAt⟩ = .ok (after, later)) :
    errand.Holds after later.now := by
  obtain ⟨due, placed, rfl⟩ := Channel.of_resume done
  rintro _ ⟨⟩
  have performs := runs.performs
  exact {
    performs := ⟨pace ▸ performs.timed, rfl, rfl, rfl, performs.moved, pace ▸ performs.short⟩
    describes := ⟨(bank ▸ performs.unit).symm.trans runs.describes.unit,
      (bank ▸ performs.sourceStep).symm.trans runs.describes.sourceStep,
      (bank ▸ performs.targetStep).symm.trans runs.describes.targetStep⟩
    total := runs.total
    position := bank ▸ runs.position
    copies := runs.copies
    unfinished := runs.unfinished
    paced := pace ▸ runs.paced
    time := by
      change later.now = later.now - (now - transfer.startedAt) + _
      rw [runs.elapsed]
      grind
    waits := fun recent => by
      have same : later.now = clock.now :=
        (Clock.Serves.scheduleIn placed UInt64.zero_le).follows.now
      let saved : TransferSnapshot := ⟨transfer.total, transfer.moved, now - transfer.startedAt⟩
      have time : due.time = clock.now + saved.rest channel.cyclesPerUnit :=
        (Clock.pending_of_scheduleAt placed).2
      have both := elapsed_add_rest saved channel.cyclesPerUnit
      have length : (boundedProduct saved.total.toUInt64 channel.cyclesPerUnit).toNat
          = transfer.total.toNat * channel.cyclesPerUnit.toNat := pace ▸ performs.toNat_duration
      have gone : saved.elapsed.toNat = errand.cycles := by
        change (now - transfer.startedAt).toNat = _
        rw [runs.elapsed]
        exact UInt64.toNat_ofNat_of_lt' recent
      rw [length, gone] at both
      refine ⟨due, max (transfer.total.toNat * channel.cyclesPerUnit.toNat) errand.cycles, rfl, ?_,
        Nat.le_max_left _ _, ?_⟩
      · change due.time = later.now - saved.elapsed + _
        rw [← both, time, same]
        grind
      · rcases Nat.le_total errand.cycles (transfer.total.toNat * channel.cyclesPerUnit.toNat)
          with early | late
        · exact .inl (Nat.max_eq_left early)
        · exact .inr (Nat.max_eq_right late).le }

omit [Bus μ] in
/-- A channel that takes over what another one has saved goes on with its errand. -/
theorem Holds.restore {origin : Channel} {saving later : Clock}
    (holds : errand.Holds origin saving.now) (fits : origin.bank.Fits)
    (resets : channel.bank.resets = origin.bank.resets)
    (pace : channel.cyclesPerUnit = origin.cyclesPerUnit) {answer : Except DeviceError Unit}
    (done : channel.restore clock (origin.snapshot saving) = .ok (answer, after, later)) :
    errand.Holds after later.now := by
  have loaded : channel.bank.load? (origin.snapshot saving).regs = some origin.bank :=
    Bank.load?_toList fits resets
  unfold Channel.restore at done
  rw [loaded] at done
  dsimp only at done
  cases active : origin.transfer with
  | none =>
      have none : (origin.snapshot saving).transfer = none := congrArg (Option.map _) active
      rw [none, if_neg (by simp)] at done
      cases done
      exact .ofIdle rfl _ _
  | some transfer =>
      have saved : (origin.snapshot saving).transfer
          = some ⟨transfer.total, transfer.moved, saving.now - transfer.startedAt⟩ :=
        congrArg (Option.map _) active
      have runs := holds transfer active
      rw [saved, if_neg fun fails => runs.performs.timed (pace ▸ fails.2)] at done
      obtain ⟨_, resuming, same⟩ := Run.except_bind_eq_ok.1 done
      cases same
      exact runs.resume (by rfl) (by exact pace) resuming

end Errand

end Dma

end SocPeripherals
