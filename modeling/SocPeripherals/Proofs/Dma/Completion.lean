import SocPeripherals.Proofs.Dma.Atomic

/-!
# When a transfer is over

A transfer is over when the deadline of its last unit is polled, or before that when the channel
catches up with a unit that the memory refuses. So as long as the memory refuses nothing it makes no
difference when the channel is looked at. Otherwise the first look at which the refused unit is due
ends the transfer.
-/

namespace SocPeripherals

namespace Dma

namespace Channel

variable {μ : Type} [Bus μ] {channel after : Channel} {clock : Clock} {memory there : μ}
  {transfer : Transfer} {signals : List Signal} {units : Nat} {looks : List Nat}

/-- What moving all that is left comes to. -/
def whole (channel : Channel) (transfer : Transfer) (memory : μ) : Transfer.Progress μ :=
  channel.reach transfer memory (transfer.total.toNat - transfer.moved.toNat)

/-- How long a transfer has lasted when the unit is due that the memory refuses, if it refuses
one. -/
def refusedAt? (channel : Channel) (transfer : Transfer) (memory : μ) : Option Nat :=
  let progress := channel.whole transfer memory
  if progress.refusal.isSome then
    some ((progress.position.moved.toNat + 1) * channel.cyclesPerUnit.toNat)
  else none

/-- The first of the looks at which the refused unit is due, if there is one before the time of the
transfer has come. -/
def exposedAt? (channel : Channel) (transfer : Transfer) (memory : μ) (looks : List Nat) :
    Option Nat := do
  let refused ← channel.refusedAt? transfer memory
  looks.find? fun look =>
    refused ≤ look ∧ look < transfer.total.toNat * channel.cyclesPerUnit.toNat

/-- How long a transfer has lasted when it is over, if the channel is looked at when the transfer
has lasted so long. -/
def completion (channel : Channel) (transfer : Transfer) (memory : μ) (looks : List Nat) : Nat :=
  (channel.exposedAt? transfer memory looks).getD
    (transfer.total.toNat * channel.cyclesPerUnit.toNat)

/-! ## What the looks decide -/

theorem exposedAt?_eq_some {look : Nat}
    (exposed : channel.exposedAt? transfer memory looks = some look) :
    look ∈ looks ∧ look < transfer.total.toNat * channel.cyclesPerUnit.toNat ∧
      ∃ refused ∈ channel.refusedAt? transfer memory, refused ≤ look := by
  obtain ⟨refused, known, found⟩ := Option.bind_eq_some_iff.1 exposed
  have holds := List.find?_some found
  rw [decide_eq_true_iff] at holds
  exact ⟨List.mem_of_find?_eq_some found, holds.2, refused, known, holds.1⟩

/-- While the memory refuses nothing, the looks expose nothing. -/
theorem exposedAt?_of_none (taken : channel.refusedAt? transfer memory = none)
    (looks : List Nat) : channel.exposedAt? transfer memory looks = none := by
  unfold exposedAt?
  rw [taken]
  rfl

theorem completion_le_due (channel : Channel) (transfer : Transfer) (memory : μ)
    (looks : List Nat) :
    channel.completion transfer memory looks
      ≤ transfer.total.toNat * channel.cyclesPerUnit.toNat := by
  unfold completion
  cases exposed : channel.exposedAt? transfer memory looks with
  | none => exact le_rfl
  | some look => exact (exposedAt?_eq_some exposed).2.1.le

/-- A transfer is over when its time has come, or when the refusal has been exposed. -/
theorem completion_le_iff {lasted : Nat} :
    channel.completion transfer memory looks ≤ lasted ↔
      transfer.total.toNat * channel.cyclesPerUnit.toNat ≤ lasted ∨
        ∃ look ∈ channel.exposedAt? transfer memory looks, look ≤ lasted := by
  unfold completion
  cases exposed : channel.exposedAt? transfer memory looks with
  | none => simp
  | some look =>
      have early := (exposedAt?_eq_some exposed).2.1
      refine ⟨fun late => .inr ⟨look, rfl, late⟩, ?_⟩
      rintro (due | ⟨_, ⟨⟩, late⟩)
      · exact early.le.trans due
      · exact late

/-- While nobody looks, a transfer is over only when its time has come. -/
theorem completion_le_later {lasted later : Nat} (seen : ∀ look ∈ looks, look ≤ lasted)
    (le : lasted ≤ later) :
    channel.completion transfer memory looks ≤ later ↔
      channel.completion transfer memory looks ≤ lasted ∨
        transfer.total.toNat * channel.cyclesPerUnit.toNat ≤ later := by
  rw [completion_le_iff, completion_le_iff]
  constructor
  · rintro (due | ⟨look, exposed, _⟩)
    · exact .inr due
    · exact .inl (.inr ⟨look, exposed, seen look (exposedAt?_eq_some exposed).1⟩)
  · rintro ((due | ⟨look, exposed, early⟩) | due)
    · exact .inl (due.trans le)
    · exact .inr ⟨look, exposed, early.trans le⟩
    · exact .inl due

/-- A look ends a transfer if the refused unit is due by then. -/
theorem completion_append {lasted : Nat} (seen : ∀ look ∈ looks, look ≤ lasted)
    (early : lasted < transfer.total.toNat * channel.cyclesPerUnit.toNat) :
    channel.completion transfer memory (looks ++ [lasted]) ≤ lasted ↔
      channel.completion transfer memory looks ≤ lasted ∨
        ∃ refused ∈ channel.refusedAt? transfer memory, refused ≤ lasted := by
  unfold completion exposedAt?
  cases channel.refusedAt? transfer memory with
  | none => simp [Nat.not_le.2 early]
  | some refused =>
      rw [Option.bind_eq_bind, Option.bind_some, Option.bind_some, List.find?_append]
      cases found : looks.find? fun look =>
          decide (refused ≤ look ∧ look < transfer.total.toNat * channel.cyclesPerUnit.toNat) with
      | some look =>
          have before := seen look (List.mem_of_find?_eq_some found)
          exact iff_of_true before (.inl before)
      | none => by_cases due : refused ≤ lasted <;> simp [due, early]

/-! ## What the memory decides -/

omit [Bus μ] in
theorem cyclesPerUnit_pos (timed : channel.cyclesPerUnit ≠ 0) : 0 < channel.cyclesPerUnit.toNat :=
  UInt64.lt_iff_toNat_lt.1 (UInt64.pos_iff_ne_zero.2 timed)

/-- What has been moved stays moved. -/
theorem le_moved_reach {count : Nat} (taken : (channel.reach transfer memory units).refusal = none)
    (le : units ≤ count) (within : transfer.moved.toNat + count ≤ transfer.total.toNat) :
    transfer.moved.toNat + units
      ≤ (channel.reach transfer memory count).position.moved.toNat := by
  obtain ⟨more, rfl⟩ := Nat.exists_eq_add_of_le le
  have parts := transfer.moveUnits_add units more (channel.position transfer) memory []
  obtain ⟨further, bound, there, _⟩ := transfer.moved_moveUnits more
    (channel.reach transfer memory units).position (channel.reach transfer memory units).memory
    (channel.reach transfer memory units).calls
  rw [moved_reach taken, UInt32.add_assoc, ← UInt32.ofNat_add] at there
  unfold reach at *
  rw [parts]
  dsimp only
  rw [taken, there, toNat_moved (by omega)]
  omega

/-- The memory has refused one of so many units if the one that it refuses is due with them. -/
theorem refused_iff (timed : channel.cyclesPerUnit ≠ 0)
    (within : transfer.moved.toNat + units ≤ transfer.total.toNat) :
    (channel.reach transfer memory units).refusal ≠ none ↔
      ∃ refused ∈ channel.refusedAt? transfer memory,
        refused ≤ (transfer.moved.toNat + units) * channel.cyclesPerUnit.toNat := by
  have positive := cyclesPerUnit_pos timed
  have most : units ≤ transfer.total.toNat - transfer.moved.toNat := by omega
  unfold refusedAt?
  dsimp only
  by_cases taken : (channel.reach transfer memory units).refusal = none
  · refine iff_of_false (not_not_intro taken) ?_
    rintro ⟨refused, known, due⟩
    have further := le_moved_reach taken most (by omega)
    split at known
    next =>
      cases known
      exact absurd (Nat.le_of_mul_le_mul_right due positive)
        (Nat.not_le.2 (Nat.lt_succ_of_le further))
    next => contradiction
  · obtain ⟨moved, bound, there, all⟩ := transfer.moved_moveUnits units (channel.position transfer)
      memory []
    have few : moved < units := lt_of_le_of_ne bound (mt all.2 taken)
    have counted : (channel.reach transfer memory units).position.moved.toNat
        = transfer.moved.toNat + moved := by
      rw [reach, there]
      exact toNat_moved (by omega)
    refine iff_of_true taken ?_
    rw [whole, reach_of_refused taken most, if_pos (Option.isSome_iff_ne_none.2 taken), counted]
    exact ⟨_, rfl, Nat.mul_le_mul_right _ (by omega)⟩

/-- The refused unit is due with so many units if it is due once they are. -/
theorem refusedAt?_le_iff (timed : channel.cyclesPerUnit ≠ 0) {refused lasted : Nat}
    (known : refused ∈ channel.refusedAt? transfer memory) :
    refused ≤ lasted / channel.cyclesPerUnit.toNat * channel.cyclesPerUnit.toNat ↔
      refused ≤ lasted := by
  have positive := cyclesPerUnit_pos timed
  unfold refusedAt? at known
  dsimp only at known
  split at known
  next =>
    cases known
    exact (Nat.mul_le_mul_right_iff positive).trans (Nat.le_div_iff_mul_le positive)
  next => contradiction

/-- While its time has not come, catching up ends a transfer if the refused unit is due by then. -/
theorem ends_asked (timed : channel.cyclesPerUnit ≠ 0)
    (within : transfer.moved.toNat + units ≤ transfer.total.toNat)
    (early : lasted clock transfer < transfer.total.toNat * channel.cyclesPerUnit.toNat) :
    channel.Ends transfer memory (asked transfer units (channel.dueUnits clock transfer)) ↔
      channel.Ends transfer memory units ∨
        ∃ refused ∈ channel.refusedAt? transfer memory, refused ≤ lasted clock transfer := by
  have positive := cyclesPerUnit_pos timed
  generalize due : lasted clock transfer / channel.cyclesPerUnit.toNat = count
  have few : count < transfer.total.toNat := due ▸ (Nat.div_lt_iff_lt_mul positive).2 early
  have asking : transfer.moved.toNat + asked transfer units (channel.dueUnits clock transfer)
      = max (transfer.moved.toNat + units) count := by
    have bound := transfer.total.toNat_lt
    unfold asked
    rw [toNat_dueUnits]
    unfold lasted at due
    rw [due]
    omega
  have byThen : (∃ refused ∈ channel.refusedAt? transfer memory, refused ≤ lasted clock transfer) ↔
      ∃ refused ∈ channel.refusedAt? transfer memory,
        refused ≤ count * channel.cyclesPerUnit.toNat :=
    exists_congr fun refused => and_congr_right fun known =>
      due ▸ (refusedAt?_le_iff timed known).symm
  unfold Ends
  rw [refused_iff timed (by rw [asking]; omega), refused_iff timed within, asking, byThen]
  rcases Nat.le_total count (transfer.moved.toNat + units) with before | ahead
  · rw [Nat.max_eq_left before]
    refine ⟨.inl, fun ended => ended.elim id ?_⟩
    rintro ⟨refused, known, early⟩
    exact .inl ⟨refused, known, early.trans (Nat.mul_le_mul_right _ before)⟩
  · rw [Nat.max_eq_right ahead]
    constructor
    · rintro (ended | whole)
      · exact .inr ended
      · exact absurd whole few.ne
    · rintro ((⟨refused, known, early⟩ | whole) | ended)
      · exact .inl ⟨refused, known, early.trans (Nat.mul_le_mul_right _ ahead)⟩
      · exact absurd (whole ▸ ahead) (Nat.not_le.2 few)
      · exact .inl ended

/-! ## What looks at a channel -/

/-- An operation that catches up first, and does no more to a transfer that goes on. -/
def Looks (channel : Channel) (clock : Clock) (memory : μ) (after : Channel) (there : μ)
    (signals : List Signal) : Prop :=
  ∃ rest, signals = (channel.catchUp clock memory).signals ++ rest ∧
    ((channel.catchUp clock memory).value.1.transfer ≠ none →
      after = (channel.catchUp clock memory).value.1 ∧
        there = (channel.catchUp clock memory).value.2.2 ∧
        rest.filterMap Signal.host? = [] ∧ rest.filterMap Signal.interrupt? = [])

theorem read_looks (channel : Channel) (clock : Clock) (memory : μ) (width : Width)
    (address : UInt32) :
    channel.Looks clock memory (channel.read clock memory width address).value.2.1
      (channel.read clock memory width address).value.2.2.2
      (channel.read clock memory width address).signals := by
  obtain ⟨host, interrupt⟩ := noted_quiet width address
  unfold read
  rw [Traced.signals_bind, Traced.value_bind]
  dsimp only
  rw [Traced.signals_bind, Traced.value_bind, Selection.value_noted]
  refine ⟨_, rfl, fun _ => ?_⟩
  rw [List.filterMap_append, List.filterMap_append, host, interrupt]
  split
  next => exact ⟨rfl, rfl, rfl, rfl⟩
  next =>
    rw [Registers.read_eq]
    exact ⟨rfl, rfl, rfl, rfl⟩

/-- What an operation of its own tells that goes on after a catch-up. -/
theorem looks_of_bind {α : Type} (told : α → Channel × Clock × μ)
    {next : Channel × Clock × μ → Run Signal α} {value : α}
    (done : (liftM (channel.catchUp clock memory) >>= next : Run Signal α).outcome = .ok value)
    (goesOn : ∀ caught : Channel × Clock × μ, caught.1.transfer ≠ none →
      (next caught).Gives fun value signals => told value = caught ∧
        signals.filterMap Signal.host? = [] ∧ signals.filterMap Signal.interrupt? = []) :
    channel.Looks clock memory (told value).1 (told value).2.2
      (liftM (channel.catchUp clock memory) >>= next : Run Signal α).signals := by
  obtain ⟨caught, caughtUp, done⟩ := Run.outcome_bind_eq_ok.1 done
  cases caughtUp
  refine ⟨_, rfl, fun active => ?_⟩
  obtain ⟨same, host, interrupt⟩ := (goesOn _ active).ensures value done
  rw [same]
  exact ⟨rfl, rfl, host, interrupt⟩

theorem write_looks {width : Width} {address value : UInt32} {result : Channel × Clock × μ}
    (done : (channel.write clock memory width address value).outcome = .ok result) :
    channel.Looks clock memory result.1 result.2.2
      (channel.write clock memory width address value).signals := by
  refine looks_of_bind id done fun ⟨caught, later, there⟩ active => ?_
  have going : caught.isActive = true := Option.isSome_iff_ne_none.2 active
  obtain ⟨host, interrupt⟩ := noted_quiet width address
  have noted : (liftM (Selection.noted Signal.note "dma" registers width address
      : Traced Signal _) : Run Signal (Option (Selection registers))).Gives fun _ signals =>
        signals.filterMap Signal.host? = [] ∧ signals.filterMap Signal.interrupt? = [] :=
    ⟨_, rfl, host, interrupt⟩
  refine .bind noted ?_
  rintro selection signals ⟨host, interrupt⟩
  dsimp only
  cases selection with
  | none => exact .pure ⟨rfl, by rwa [List.append_nil], by rwa [List.append_nil]⟩
  | some selection =>
      dsimp only
      rw [if_pos going]
      refine ⟨_, rfl, rfl, ?_, ?_⟩
      · rw [List.filterMap_append, host]
        rfl
      · rw [List.filterMap_append, interrupt]
        rfl

theorem start_looks {source target count control : UInt32}
    {result : Except DeviceError Unit × Channel × Clock × μ}
    (done : (channel.start clock memory source target count control).outcome = .ok result) :
    channel.Looks clock memory result.2.1 result.2.2.2
      (channel.start clock memory source target count control).signals := by
  refine looks_of_bind Prod.snd done fun ⟨caught, later, there⟩ active => ?_
  have going : caught.isActive = true := Option.isSome_iff_ne_none.2 active
  dsimp only
  rw [if_pos going]
  exact .pure ⟨rfl, rfl, rfl⟩

/-- A look at a transfer on its way ends it, and then asks for its interrupt, or leaves it on its
way. -/
theorem Stage.look (stage : Stage channel transfer memory units after there signals)
    (goes : ¬ channel.Ends transfer memory units) (timed : channel.cyclesPerUnit ≠ 0)
    {next : Channel} {afterwards : μ} {more : List Signal}
    (looked : after.Looks clock there next afterwards more) :
    let count := asked transfer units (channel.dueUnits clock transfer)
    (channel.Ends transfer memory count → channel.source ∈ more.filterMap Signal.interrupt?) ∧
      (¬ channel.Ends transfer memory count → more.filterMap Signal.interrupt? = [] ∧
        Stage channel transfer memory count next afterwards (signals ++ more)) := by
  intro count
  have caughtUp := stage.catchUp timed clock
  obtain ⟨rest, rfl, goesOn⟩ := looked
  have quiet := (stage.going goes).2
  constructor
  · intro ends
    have interrupts := (caughtUp.finished ends).2
    rw [List.filterMap_append, quiet, List.nil_append] at interrupts
    rw [List.filterMap_append, interrupts]
    exact List.mem_cons_self
  · intro going
    obtain ⟨caught, still⟩ := caughtUp.going going
    obtain ⟨rfl, rfl, host, interrupt⟩ := goesOn (by rw [caught]; exact Option.some_ne_none _)
    have told := caughtUp.remarked host interrupt
    rw [List.append_assoc] at told
    have silent := (told.going going).2
    rw [List.filterMap_append, quiet, List.nil_append] at silent
    exact ⟨silent, told⟩

/-! ## Polls -/

/-- A step of the clock reaches the deadline of a transfer that comes to last its time. -/
theorem Performs.reached_iff (performs : channel.Performs transfer) {later : Clock}
    {due : Deadline} {cycles : UInt64}
    (time : due.time = transfer.startedAt + channel.duration transfer.total)
    (early : lasted clock transfer < transfer.total.toNat * channel.cyclesPerUnit.toNat)
    (short : cycles < Clock.horizon) (now : later.now = clock.now + cycles) :
    later.hasReached due.time = true ↔
      transfer.total.toNat * channel.cyclesPerUnit.toNat
        ≤ lasted clock transfer + cycles.toNat := by
  have brief := performs.short
  rw [← performs.toNat_duration] at early ⊢
  have left : clock.distance due.time
      = channel.duration transfer.total - (clock.now - transfer.startedAt) := by
    rw [Clock.distance, time]
    grind
  unfold lasted at *
  have exact : (channel.duration transfer.total - (clock.now - transfer.startedAt)).toNat
      = (channel.duration transfer.total).toNat - (clock.now - transfer.startedAt).toNat :=
    UInt64.toNat_sub_of_le _ _ (UInt64.le_iff_toNat_le.2 early.le)
  have near : clock.distance due.time < Clock.horizon := by
    rw [left, UInt64.lt_iff_toNat_lt, exact]
    exact (Nat.sub_le _ _).trans_lt (UInt64.lt_iff_toNat_lt.1 brief)
  have moved : later.hasReached due.time = (clock.moved cycles).hasReached due.time :=
    Clock.hasReached_congr now _
  rw [moved, Clock.hasReached_moved_iff near short, left, UInt64.le_iff_toNat_le, exact]
  omega

/-- A poll after a step of the clock ends a transfer on its way whose time has come, and leaves
another one alone. -/
theorem Stage.poll (stage : Stage channel transfer memory units after there signals)
    (goes : ¬ channel.Ends transfer memory units) (performs : channel.Performs transfer)
    {due : Deadline} (waits : transfer.due = some due)
    (time : due.time = transfer.startedAt + channel.duration transfer.total) {later : Clock}
    {cycles : UInt64}
    (early : lasted clock transfer < transfer.total.toNat * channel.cyclesPerUnit.toNat)
    (short : cycles < Clock.horizon) (now : later.now = clock.now + cycles) :
    let polled := after.poll later there
    (transfer.total.toNat * channel.cyclesPerUnit.toNat ≤ lasted clock transfer + cycles.toNat →
      channel.source ∈ polled.signals.filterMap Signal.interrupt?) ∧
    (lasted clock transfer + cycles.toNat < transfer.total.toNat * channel.cyclesPerUnit.toNat →
      polled.signals.filterMap Signal.interrupt? = [] ∧
        Stage channel transfer memory units polled.value.1 polled.value.2.2
          (signals ++ polled.signals)) := by
  intro polled
  have reached := performs.reached_iff time early short now
  have quiet := (stage.going goes).2
  constructor
  · intro late
    have regular : channel.Regular later transfer := by
      refine ⟨due, waits, time, ?_⟩
      have sum : later.now - transfer.startedAt = clock.now - transfer.startedAt + cycles := by
        rw [now]
        grind
      rw [sum, UInt64.toNat_add, performs.toNat_duration]
      exact (Nat.mod_le _ _).trans_lt (Nat.add_lt_add early (UInt64.lt_iff_toNat_lt.1 short))
    have all := total_le_dueUnits performs regular waits (reached.2 late)
    have finished := stage.poll_of_reached performs.timed waits (reached.2 late) all
    have whole : channel.Ends transfer memory (transfer.total.toNat - transfer.moved.toNat) := by
      have within := stage.within
      exact .inr (by omega)
    have interrupts := (finished.finished whole).2
    rw [List.filterMap_append, quiet, List.nil_append] at interrupts
    rw [interrupts]
    exact List.mem_cons_self
  · intro ahead
    have waiting : ∀ other ∈ transfer.due, later.hasReached other.time = false := by
      intro other held
      cases waits.symm.trans held
      exact Bool.eq_false_iff.2 (mt reached.1 (Nat.not_le.2 ahead))
    have still := stage.poll_of_ahead waiting
    have silent := (still.going goes).2
    rw [List.filterMap_append, quiet, List.nil_append] at silent
    exact ⟨silent, still⟩

end Channel

end Dma

end SocPeripherals
