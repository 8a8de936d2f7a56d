import SocPeripherals.Proofs.Lockstep.Chronicle

/-!
# Reset forgets everything

Whatever was done to a block before it is reset, and whatever of it has been missed, nothing of it
comes to light afterwards. Only deadlines of others stay on the clock, every register reads its
listed value, and from then on the block cannot be told from a new one of the same settings on that
clock and over that memory.
-/

namespace SocPeripherals

namespace Block

variable {μ : Type} [Bus μ] {settings : Settings} {others : Multiset Deadline}
  {block after : Block μ}

/-- A block as a host can leave it that never restores it, on a clock on which others have placed
deadlines. The others know their own deadlines only. -/
inductive Worked (settings : Settings) : Multiset Deadline → Block μ → Prop where
  | create {clock : Clock} {memory : μ} {block : Block μ} (used : clock.Used)
      (created : create settings clock memory = .ok block) : Worked settings clock.pending block
  | perform {others : Multiset Deadline} {block after : Block μ} {response : Response}
      (worked : Worked settings others block) (command : Command) (own : command.IsOwn)
      (lasts : command.Respects fun _ => False)
      (done : (block.perform command).outcome = .ok (response, after)) : Worked settings others after
  | place {others : Multiset Deadline} {block : Block μ} {time : UInt64} {deadline : Deadline}
      {clock : Clock} (worked : Worked settings others block)
      (done : block.clock.scheduleAt time = .ok (deadline, clock)) :
      Worked settings ({deadline} + others) { block with clock }
  | cancel {others : Multiset Deadline} {block : Block μ} {deadline : Deadline} {clock : Clock}
      (worked : Worked settings others block) (known : deadline ∈ others)
      (done : block.clock.cancel deadline = .ok clock) : Worked settings others { block with clock }

/-- What is pending is the block's or the others', and what is late is the others'. -/
structure Accounted (settings : Settings) (others : Multiset Deadline) (block : Block μ) : Prop where
  sound : Sound settings block
  within : block.clock.Within
  owes : block.clock.Owes (block.held + others)
  late : ∀ deadline ∈ block.clock.pending, block.clock.hasReached deadline.time = true →
    deadline ∈ others

omit [Bus μ] in
theorem Accounted.serves (accounted : Accounted settings others block)
    (sound : Sound settings after)
    (serves : Clock.Serves 1 block.held after.held block.clock after.clock) :
    Accounted settings others after where
  sound := sound
  within := serves.follows.within accounted.within
  owes := serves.owes others accounted.owes
  late := by
    intro deadline placed reached
    rw [Clock.hasReached_congr serves.follows.now] at reached
    rcases serves.follows.placed deadline placed with old | fresh
    · exact accounted.late deadline old reached
    · rw [fresh.hasReached (by decide)] at reached
      contradiction

omit [Bus μ] in
/-- All that is pending is the block's or the others'. -/
theorem Accounted.mem_pending (accounted : Accounted settings others block) {deadline : Deadline}
    (placed : deadline ∈ block.clock.pending) : deadline ∈ block.held + others := by
  cases reached : block.clock.hasReached deadline.time with
  | true => exact Multiset.mem_add.2 (.inr (accounted.late deadline placed reached))
  | false => exact accounted.owes deadline placed reached

omit [Bus μ] in
/-- Somebody else has used the clock, and may have placed something. -/
theorem Accounted.onClock (accounted : Accounted settings others block) {clock : Clock}
    {more : Multiset Deadline} (now : clock.now = block.clock.now) (within : clock.Within)
    (known : ∀ deadline ∈ others, deadline ∈ more)
    (placed : ∀ deadline ∈ clock.pending, deadline ∈ block.clock.pending ∨ deadline ∈ more) :
    Accounted settings more { block with clock } where
  sound := { accounted.sound with }
  within := within
  owes := by
    intro deadline waits _
    rcases placed deadline waits with before | new
    · rcases Multiset.mem_add.1 (accounted.mem_pending before) with held | other
      · exact Multiset.mem_add.2 (.inl held)
      · exact Multiset.mem_add.2 (.inr (known deadline other))
    · exact Multiset.mem_add.2 (.inr new)
  late := by
    intro deadline waits reached
    rcases placed deadline waits with before | new
    · rw [Clock.hasReached_congr now] at reached
      exact known deadline (accounted.late deadline before reached)
    · exact new

theorem accounted_lasting (settings : Settings) (others : Multiset Deadline) :
    Lasting (μ := μ) (fun _ => False) (Accounted settings others) where
  act accounted act := by
    have step := act.step UInt64.le_rfl (fun _ never => never.elim) (fun _ never => never.elim)
      accounted.sound
    exact accounted.serves (step.sound accounted.sound) step.serves
  moved accounted done := by
    have sound := (sound_lasting settings).moved accounted.sound done
    obtain ⟨clock, moving, rfl⟩ := of_increment done
    have upcoming := Clock.upcoming_of_increment accounted.within moving
    have before {deadline : Deadline} (placed : deadline ∈ clock.pending) :=
      accounted.mem_pending ((Clock.pending_of_increment moving).1 placed).1
    exact {
      sound := sound
      within := upcoming.within
      owes := fun deadline placed _ => before placed
      late := fun deadline placed reached => by
        have near := upcoming deadline placed
        rw [(Clock.hasReached_eq_false_iff near.2).2 near.1] at reached
        contradiction }

/-- What can be relied on about a block that was never restored. -/
theorem Worked.accounted (worked : Worked settings others block) :
    Storage.reserve settings.uartCapacity = .ok () ∧ Accounted settings others block ∧
      block.IsNative := by
  induction worked with
  | @create clock memory block used created =>
      obtain ⟨room, rfl⟩ := of_create created
      refine ⟨room, ⟨sound_initial settings clock memory, used.within, ?_, ?_⟩,
        isNative_initial used.isOwn settings memory⟩
      · exact fun deadline placed _ => Multiset.mem_add.2 (.inr placed)
      · exact fun deadline placed _ => placed
  | perform _ command own lasts done kept =>
      obtain ⟨room, accounted, native⟩ := kept
      exact ⟨room, (accounted_lasting settings _).perform accounted own lasts _ done,
        native.perform _ _ done⟩
  | place _ done kept =>
      obtain ⟨room, accounted, native⟩ := kept
      obtain ⟨_, identity, own⟩ := native.isOwn.scheduleAt done
      have serves := Clock.Serves.scheduleAt done UInt64.zero_le
      refine ⟨room, ?_, native.onClock identity own⟩
      refine accounted.onClock serves.follows.now (Clock.within_of_scheduleAt accounted.within done)
        (fun other known => Multiset.mem_add.2 (.inr known)) fun other placed => ?_
      rw [(Clock.pending_of_scheduleAt done).1] at placed
      rcases List.mem_cons.1 placed with rfl | before
      · exact .inr (Multiset.mem_add.2 (.inl (Multiset.mem_singleton_self _)))
      · exact .inl before
  | cancel _ known done kept =>
      obtain ⟨room, accounted, native⟩ := kept
      obtain ⟨identity, own⟩ := native.isOwn.cancel done
      have within := Clock.within_of_cancel accounted.within done
      refine ⟨room, ?_, native.onClock identity own⟩
      cases Clock.of_cancel done
      exact accounted.onClock rfl within (fun _ => id) fun other placed =>
        .inl (Clock.mem_pending_drop.1 placed).1

/-- A reset succeeds. Of the deadlines only those of others are left, the line is low, every
register reads its listed value, and whatever is done from then on, the block does the same as a new
one of its settings on its clock and over its memory. -/
theorem reset_forgets (worked : Worked settings others block) :
    ∃ after fresh, block.reset.outcome = .ok after ∧ after.memory = block.memory ∧
      after.held = 0 ∧ (∀ deadline ∈ after.clock.pending, deadline ∈ others) ∧
      after.isInterruptPending = false ∧ (∀ register ∈ after.registerMap, after.Shows register) ∧
      create settings after.clock after.memory = .ok fresh ∧
      ∀ deeds, Session.chronicle view ⟨after, []⟩ deeds
        = Session.chronicle view ⟨fresh, []⟩ deeds := by
  obtain ⟨room, accounted, native⟩ := worked.accounted
  obtain ⟨after, done, fresh, memory⟩ := reset_fresh accounted.sound
  have kept := (accounted_lasting settings others).acts accounted
    (reset_acts (fun _ => False) block after done)
  have own : after.IsNative :=
    native.perform .reset _ (Run.outcome_bind_eq_ok.2 ⟨after, done, rfl⟩)
  have alike : Alike (.displaced after.clock.identity after.clock.identity 0) (fun _ _ => True)
      (initial settings after.clock after.memory) after :=
    fresh.alike (fun _ => trivial) own.clocks
  have sessions : Session.Alike (.displaced after.clock.identity after.clock.identity 0)
      (fun _ _ => True) ⟨initial settings after.clock after.memory, []⟩ ⟨after, []⟩ :=
    ⟨alike, .nil⟩
  have marches := Clock.Lockstep.displaced_marches after.clock.identity after.clock.identity 0
  refine ⟨after, initial settings after.clock after.memory, done, memory, fresh.held, ?_, ?_,
    fresh.shows, ?_, fun deeds => ?_⟩
  · intro deadline placed
    simpa [fresh.held] using kept.mem_pending placed
  · rw [isInterruptPending, fresh.controller]
  · rw [create, room]
    rfl
  · have same := sessions.chronicle_eq marches (fun _ => trivial) view view id
      (view_eq_of_alike marches) deeds
    simpa using same

/-- A block that is reset in the middle of a timer's period. -/
theorem reset_forgets_running : ∃ block after fresh : Block Ram, Worked {} 0 block ∧
    block.view.waits = some 13 ∧ block.reset.outcome = .ok after ∧ after.clock.pending = [] ∧
      create {} after.clock after.memory = .ok fresh ∧
      Session.chronicle view ⟨after, []⟩ [.give (.tick 20), .give (.read .word 0x1404)]
        = Session.chronicle view ⟨fresh, []⟩ [.give (.tick 20), .give (.read .word 0x1404)] := by
  have created : Worked {} 0 (initial {} {} Ram.empty) := .create (.fresh 0 0) rfl
  have counting := created.perform (.write .word 0x1404 20) trivial trivial rfl
  have running := counting.perform (.write .word 0x1400 3) trivial trivial rfl
  have halfway := running.perform (.tick 8) trivial trivial rfl
  obtain ⟨after, fresh, done, _, _, left, _, _, made, same⟩ := reset_forgets halfway
  have none : after.clock.pending = [] :=
    List.eq_nil_iff_forall_not_mem.2 fun deadline placed =>
      Multiset.notMem_zero deadline (left deadline placed)
  exact ⟨_, after, fresh, halfway, rfl, done, none, made, same _⟩

end Block

end SocPeripherals
