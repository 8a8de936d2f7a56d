import SocPeripherals.Bus.Ram
import SocPeripherals.Proofs.Late.Twice
import SocPeripherals.Proofs.Stepping

/-!
# Catching up

A host may move the clock on at once and poll at the end, or hop from deadline to deadline and poll
at each. What is saved afterwards is the same, and so are the memory, the masks and the line of the
interrupt controller, the levels that the line took, and the bytes sent on each port.
-/

namespace SocPeripherals

namespace Block

variable {μ : Type} [Bus μ] {block between after : Block μ} {settings : Settings}
  {before rest cycles : UInt64}

/-! ## Blocks stay settled -/

/-- What acts keep to while everything that is held and lies ahead is pending. -/
theorem Acts.keeps (acts : Acts (fun _ => False) block after) (sound : Sound settings block)
    (distinct : block.clock.Distinct block.held) (keeps : block.clock.Keeps block.held) :
    Sound settings after ∧ after.clock.Distinct after.held ∧ after.clock.Keeps after.held := by
  induction acts with
  | refl => exact ⟨sound, distinct, keeps⟩
  | tail _ act kept =>
      obtain ⟨sound, distinct, keeps⟩ := kept
      have step := act.step UInt64.le_rfl (fun _ never => never.elim) (fun _ never => never.elim)
        sound
      have serves := step.serves.frame 0
      simp only [add_zero] at serves
      refine ⟨step.sound sound, ?_, ?_⟩
      · simpa using serves.distinct 0 (by simpa using distinct)
      · simpa using serves.keeps 0 (by simpa using distinct) (by simpa using keeps)

theorem Settled.tick_awaits (settled : Settled settings block) (cycles : UInt64) :
    (block.tick cycles).Ensures fun (_, after) =>
      ∀ deadline ∈ after.held, after.clock.Awaits deadline := by
  unfold Block.tick
  refine .bind (.except _) ?_
  rintro ⟨reached, moved⟩ done
  have punctual := settled.punctual.increment done
  obtain ⟨clock, moving, rfl⟩ := of_increment done
  have keeps : clock.Keeps block.held := fun deadline known ahead =>
    (Clock.pending_of_increment moving).2 ⟨(settled.awaits deadline known).pending, ahead⟩
  dsimp only
  split
  next =>
    have polled :=
      (poll_acts (fun _ => False) { block with clock }).and (poll_ahead { block with clock })
    refine .bind polled fun after ⟨acts, ahead⟩ => .pure fun deadline known => ?_
    have kept := (acts.keeps punctual.sound punctual.distinct keeps).2.2
    exact ⟨kept deadline known (ahead deadline known), ahead deadline known⟩
  next quiet =>
    cases Bool.eq_false_iff.2 quiet
    refine .pure fun deadline known => ?_
    have ahead := Clock.ahead_of_increment moving (settled.awaits deadline known).pending
    exact ⟨keeps deadline known ahead, ahead⟩

/-- What a tick makes of a settled block. -/
theorem Settled.tick_gives (settled : Settled settings block) (short : cycles < Clock.horizon) :
    (block.tick cycles).Gives fun (reached, after) events =>
      (reached = block.clock.pending.any fun deadline =>
        (block.clock.moved cycles).hasReached deadline.time) ∧
      ∃ clock asked, clock.now = block.clock.now + cycles ∧
        Handled clock asked block after events := by
  obtain ⟨driven, regular, lone⟩ := settled.pollable
  obtain ⟨clock, moving, now⟩ : ∃ clock, block.clock.increment cycles
      = .ok (block.clock.pending.any fun deadline =>
        (block.clock.moved cycles).hasReached deadline.time, clock) ∧
      clock.now = block.clock.now + cycles := ⟨_, Clock.increment_of_lt short, rfl⟩
  have pollable : Pollable { block with clock } := ⟨driven, regular, lone⟩
  have stepped : (liftM (block.increment cycles) : Run Event (Bool × Block μ)).Gives
      fun (reached, moved) events => events = [] ∧ moved = { block with clock } ∧
        block.clock.increment cycles = .ok (reached, clock) ∧
        reached = block.clock.pending.any fun deadline =>
          (block.clock.moved cycles).hasReached deadline.time := by
    refine ⟨(_, { block with clock }), ?_, rfl, rfl, moving, rfl⟩
    unfold increment
    rw [moving]
    rfl
  unfold Block.tick
  refine .bind stepped ?_
  rintro ⟨reached, _⟩ _ ⟨rfl, rfl, moving, polls⟩
  cases reached with
  | true =>
      refine .bind (poll_handles pollable) ?_
      rintro after events ⟨asked, handled⟩
      refine .pure ⟨polls, clock, asked, now, ?_⟩
      rw [List.append_nil, List.nil_append]
      exact { handled with }
  | false =>
      refine .pure ⟨polls, clock, fun _ => [], now, ?_⟩
      have left := handled_of_ahead pollable rfl fun deadline known =>
        Clock.ahead_of_increment moving (settled.awaits deadline known).pending
      exact { left with }

theorem Settled.tick (settled : Settled settings block) (short : cycles < Clock.horizon) :
    (block.tick cycles).Ensures fun (_, after) => Settled settings after := by
  have lasting : Lasting (μ := μ) (fun _ => False) (Punctual settings) :=
    punctual_lasting fun _ never => never.elim
  have kept := (lasting.tick settled.punctual cycles).and (settled.tick_awaits cycles)
  refine (kept.and (settled.tick_gives short).ensures).imp ?_
  rintro ⟨reached, after⟩ ⟨⟨punctual, awaits⟩, _, clock, asked, _, handled⟩
  obtain ⟨index, lone⟩ := settled.lone
  exact ⟨punctual, awaits, index, handled.dma ▸ lone.poll clock block.memory⟩

/-! ## What is told of a run -/

/-- What can be told of a block after the clock was moved on, and of what was heard until then. -/
structure Account (μ : Type) where
  /-- Whether a deadline was reached. -/
  reached : Bool
  now : UInt64
  saved : Snapshot
  memory : μ
  controller : Interrupt.Controller
  /-- The levels that the interrupt line took. -/
  levels : List Bool
  /-- The bytes that were sent on each port. -/
  sent : Nat → List UInt8

/-- The account of a run that moves the clock on, unless a fault cuts it short. -/
def account (run : Run Event (Bool × Block μ)) : Except Fault (Account μ) :=
  run.outcome.map fun (reached, after) =>
    { reached
      now := after.clock.now
      saved := after.snapshot
      memory := after.memory
      controller := after.controller
      levels := run.signals.filterMap Event.level?
      sent := fun port => run.signals.filterMap (Event.sent? port) }

/-- One move of the clock after another. -/
def moveTwice (first : Run Event (Bool × Block μ)) (next : Block μ → Run Event (Bool × Block μ)) :
    Run Event (Bool × Block μ) := do
  let (reached, between) ← first
  let (more, last) ← next between
  return (reached || more, last)

omit [Bus μ] in
theorem account_of_ok {run : Run Event (Bool × Block μ)} {reached : Bool}
    (done : run.outcome = .ok (reached, after)) :
    account run = .ok
      { reached
        now := after.clock.now
        saved := after.snapshot
        memory := after.memory
        controller := after.controller
        levels := run.signals.filterMap Event.level?
        sent := fun port => run.signals.filterMap (Event.sent? port) } := by
  unfold account
  rw [done]
  rfl

omit [Bus μ] in
/-- The account of two moves takes only the account of the second. -/
theorem account_moveTwice {first : Run Event (Bool × Block μ)} {reached : Bool}
    (done : first.outcome = .ok (reached, between)) (next : Block μ → Run Event (Bool × Block μ)) :
    account (moveTwice first next) = (account (next between)).map fun account =>
      { account with
        reached := reached || account.reached
        levels := first.signals.filterMap Event.level? ++ account.levels
        sent := fun port => first.signals.filterMap (Event.sent? port) ++ account.sent port } := by
  unfold moveTwice account
  rw [Run.bind_of_ok done]
  cases ended : (next between).outcome with
  | error fault => simp [Bind.bind, Run.andThen, ended, Except.map]
  | ok value => simp [Bind.bind, Run.andThen, ended, Except.map, pure]

omit [Bus μ] in
theorem account_moveTwice_congr {first : Run Event (Bool × Block μ)}
    {next other : Block μ → Run Event (Bool × Block μ)}
    (same : first.Ensures fun (_, between) => account (next between) = account (other between)) :
    account (moveTwice first next) = account (moveTwice first other) := by
  cases done : first.outcome with
  | error fault => simp [account, moveTwice, Bind.bind, Run.andThen, done, Except.map]
  | ok value =>
      obtain ⟨reached, between⟩ := value
      rw [account_moveTwice done, account_moveTwice done, same _ done]

/-- A tick on the way makes no difference. -/
theorem Settled.tick_tick (settled : Settled settings block)
    (short : before.toNat + rest.toNat < Clock.horizon.toNat) :
    account (moveTwice (block.tick before) fun between => between.tick rest)
      = account (block.tick (before + rest)) := by
  have shortBefore : before < Clock.horizon :=
    UInt64.lt_iff_toNat_lt.2 ((Nat.le_add_right _ _).trans_lt short)
  have shortRest : rest < Clock.horizon :=
    UInt64.lt_iff_toNat_lt.2 ((Nat.le_add_left _ _).trans_lt short)
  have shortSum : before + rest < Clock.horizon := by
    rw [UInt64.lt_iff_toNat_lt, UInt64.toNat_add]
    exact (Nat.mod_le _ _).trans_lt short
  obtain ⟨⟨reached, between⟩, done, polls, first, asked, now, one⟩ := settled.tick_gives shortBefore
  cases reached with
  | false =>
      have quiet : ∀ deadline ∈ block.clock.pending,
          (block.clock.moved before).hasReached deadline.time = false := fun deadline placed =>
        Bool.not_eq_true _ ▸ List.any_eq_false.1 polls.symm deadline placed
      unfold moveTwice
      rw [tick_of_quiet shortBefore quiet, pure_bind]
      dsimp only
      rw [tick_moved block shortRest shortSum]
      simp
  | true =>
      have settledBetween := settled.tick shortBefore _ done
      obtain ⟨⟨more, after⟩, doneNext, _, again, moreAsked, nowNext, two⟩ :=
        settledBetween.tick_gives shortRest
      obtain ⟨⟨whole, coarse⟩, doneWhole, pollsWhole, late, total, nowWhole, all⟩ :=
        settled.tick_gives shortSum
      have passed : Clock.Passed block.clock first again before rest :=
        ⟨now, by rw [nowNext, one.now], short⟩
      have nowLate : late.now = again.now := by
        rw [nowWhole, nowNext, one.now, now, UInt64.add_assoc]
      -- What was reached on the way has been reached at the end as well.
      have polled : whole = true := by
        obtain ⟨deadline, placed, reached⟩ := List.any_eq_true.1 polls.symm
        rw [pollsWhole, List.any_eq_true]
        have near := settled.punctual.within deadline placed
        have reachedFirst : first.hasReached deadline.time = true :=
          (Clock.hasReached_congr now _).trans reached
        refine ⟨deadline, placed, ?_⟩
        rw [Clock.hasReached_congr (nowWhole.symm.trans nowLate)]
        exact (passed.reached near reachedFirst).1
      obtain ⟨state, levels, sent⟩ := one.twice settled settledBetween passed nowLate two all
      rw [account_moveTwice done, account_of_ok doneNext, account_of_ok doneWhole, polled, state.now,
        state.saved, state.memory, state.controller, levels, funext sent]
      simp only [List.filterMap_append]
      rfl

/-! ## Hops -/

/-- One hop and those after it, if they do what a tick does. -/
theorem Settled.hop_account_succ (settled : Settled settings block) {left : UInt64}
    (short : left < Clock.horizon) (steps : Nat)
    (rest : block.nextStep left < left → ∀ between : Block μ, Settled settings between →
      between.clock.Upcoming → account (hop steps between (left - block.nextStep left) false [])
        = account (between.tick (left - block.nextStep left))) :
    account (hop (steps + 1) block left false []) = account (block.tick left) := by
  obtain ⟨_, last | ⟨less, _⟩⟩ := nextStep_cases block left
  · rw [hop_succ, last]
    simp
  · have apart : left ≠ block.nextStep left := fun same =>
      UInt64.lt_irrefl _ (same ▸ less : block.nextStep left < block.nextStep left)
    have onward : hop (steps + 1) block left false []
        = moveTwice (block.tick (block.nextStep left)) fun between =>
          hop steps between (left - block.nextStep left) false [] := by
      rw [hop_succ]
      unfold moveTwice
      congr 1
      funext ⟨reached, between⟩
      dsimp only
      rw [if_neg apart, hop_polled]
      simp
    have parts : (block.nextStep left).toNat + (left - block.nextStep left).toNat = left.toNat := by
      rw [UInt64.toNat_sub_of_le _ _ (UInt64.le_of_lt less)]
      exact Nat.add_sub_cancel' (UInt64.le_iff_toNat_le.1 (UInt64.le_of_lt less))
    have whole : block.nextStep left + (left - block.nextStep left) = left := by grind
    have kept := (settled.tick (UInt64.lt_trans less short)).and
      (tick_upcoming settled.punctual.within (block.nextStep left))
    have told := settled.tick_tick (parts ▸ UInt64.lt_iff_toNat_lt.1 short)
    rw [whole] at told
    rw [onward, ← told]
    refine account_moveTwice_congr (kept.imp ?_)
    rintro ⟨_, between⟩ ⟨settled, upcoming⟩
    exact rest less between settled upcoming

/-- The hops over some cycles tell what one tick tells. -/
theorem Settled.hop_account (settled : Settled settings block) (upcoming : block.clock.Upcoming)
    (steps : Nat) {left : UInt64} (short : left < Clock.horizon) (enough : left.toNat < steps) :
    account (hop steps block left false []) = account (block.tick left) := by
  induction steps generalizing block left with
  | zero => exact absurd enough (Nat.not_lt_zero _)
  | succ steps ih =>
      refine settled.hop_account_succ short steps fun less between settled further => ?_
      have positive : 0 < block.nextStep left := by
        obtain ⟨_, last | ⟨_, deadline, placed, next⟩⟩ := nextStep_cases block left
        · rw [last] at less
          exact absurd less (UInt64.lt_irrefl left)
        · exact next ▸ (upcoming deadline placed).1
      have fewer : (left - block.nextStep left).toNat = left.toNat - (block.nextStep left).toNat :=
        UInt64.toNat_sub_of_le _ _ (UInt64.le_of_lt less)
      rw [UInt64.lt_iff_toNat_lt, UInt64.toNat_zero] at positive
      rw [UInt64.lt_iff_toNat_lt] at less
      refine ih settled further (UInt64.lt_of_le_of_lt ?_ short) (by omega)
      rw [UInt64.le_iff_toNat_le, fewer]
      exact Nat.sub_le _ _

/-- Moving the clock on at once and polling at the end tells what moving it on from deadline to
deadline tells. -/
theorem account_tick_eq_advance (reached : Faithful settings block)
    (polled : ∀ deadline ∈ block.held, block.clock.Awaits deadline)
    (single : ∀ first second : Fin Dma.channelCount, block.dma.channels[first].isActive = true →
      block.dma.channels[second].isActive = true → first = second)
    (short : cycles < Clock.horizon) :
    ∃ told, account (block.tick cycles) = .ok told ∧ account (block.advance cycles) = .ok told := by
  have lone : ∃ index, block.dma.IsLone index := by
    by_cases active : block.dma.channels[(0 : Fin Dma.channelCount)].isActive = true
    · refine ⟨0, fun other apart => ?_⟩
      exact Option.not_isSome_iff_eq_none.1 fun going => apart (single other 0 going active)
    · refine ⟨1, fun other apart => ?_⟩
      match other with
      | 0 => exact Option.not_isSome_iff_eq_none.1 active
      | 1 => exact absurd rfl apart
  have settled : Settled settings block := ⟨reached.punctual, polled, lone⟩
  obtain ⟨⟨answer, after⟩, done, _⟩ := settled.tick_gives short
  refine ⟨_, account_of_ok done, ?_⟩
  rw [← account_of_ok done]
  unfold advance
  refine settled.hop_account_succ short _ fun less between settled upcoming => ?_
  have fewer : (cycles - block.nextStep cycles).toNat ≤ cycles.toNat := by
    rw [UInt64.toNat_sub_of_le _ _ (UInt64.le_of_lt less)]
    exact Nat.sub_le _ _
  exact settled.hop_account upcoming _
    (UInt64.lt_of_le_of_lt (UInt64.le_iff_toNat_le.2 fewer) short) (Nat.lt_succ_of_le fewer)

/-- A block in the middle of a timer's period and of a byte, and of a transfer. -/
theorem account_tick_eq_advance_running : ∃ block : Block Ram, Faithful { dmaCycles := 7 } block ∧
    block.clock.pending.length = 3 ∧ ∃ told,
      account (block.tick 400) = .ok told ∧ account (block.advance 400) = .ok told := by
  have created : Timely { dmaCycles := 7 } true false
      (initial { dmaCycles := 7 } {} Ram.empty) := .create (.fresh 0 0) (fun _ => rfl) rfl
  have counting := created.perform (.write .word 0x1404 20) trivial rfl
  have running := counting.perform (.write .word 0x1400 3) trivial rfl
  have enabled := running.perform (.write .word 0x1800 0x100) trivial rfl
  have sending := enabled.perform (.write .word 0x180c 65) trivial rfl
  have moving := sending.perform (.startTransfer 0 0 32 4 0) trivial rfl
  have halfway := moving.perform (.tick 8) rfl rfl
  refine ⟨_, halfway.faithful, rfl, ?_⟩
  exact account_tick_eq_advance halfway.faithful halfway.orderly.awaits (by decide) (by decide)

/-- A timer that is saved after a period was missed by half of the counter comes back out of step,
so that a late poll cannot place its next deadline. And a host is called for the line and for a byte
in the order of the devices when it polls late, and in the order of their deadlines otherwise. -/
theorem tick_unlike_advance :
    (∃ missed later late : Block Ram, ∃ first second,
      ((initial {} {} Ram.empty).performAll [.write .halfWord 0x1404 9, .write .word 0x1400 3,
        .increment 0x7ffffffffffffffe]).outcome = .ok (first, missed) ∧
      (missed.performAll [.restore missed.snapshot, .increment 0x7ffffffffffffffe,
        .increment 0x7ffffffffffffff8]).outcome = .ok (second, later) ∧
      (later.perform (.restore later.snapshot)).outcome = .ok (.accepted (.ok ()), late) ∧
      (∀ deadline ∈ late.held, late.clock.Awaits deadline) ∧
      (late.tick 23).outcome = .error .deadlineTooFar ∧
      ∃ after, (late.advance 23).outcome = .ok (true, after)) ∧
    ∃ block : Block Ram, Timely {} true false block ∧
      (block.tick 400).signals.filterMap Event.call? = [.inl true, .inr 65] ∧
      (block.advance 400).signals.filterMap Event.call? = [.inr 65, .inl true] := by
  refine ⟨⟨_, _, _, _, _, rfl, rfl, rfl, by decide, rfl, _, rfl⟩, ?_⟩
  have created : Timely {} true false (initial {} {} Ram.empty) :=
    .create (.fresh 0 0) (fun _ => rfl) rfl
  have listening := created.perform (.write .word 0x804 1) trivial rfl
  have enabled := listening.perform (.write .word 0x1800 0x100) trivial rfl
  have sending := enabled.perform (.write .word 0x180c 65) trivial rfl
  have counting := sending.perform (.write .word 0x1404 299) trivial rfl
  have running := counting.perform (.write .word 0x1400 1) trivial rfl
  exact ⟨_, running, rfl, rfl⟩

end Block

end SocPeripherals
