import SocPeripherals.Bus.Ram
import SocPeripherals.Proofs.Faults.Block
import SocPeripherals.Proofs.Late.Advance
import SocPeripherals.Proofs.Timer.Others

/-!
# The course of a started timer

A timer of a block is started by a write, and from then on the host advances the clock, in whatever
steps, and does with the rest of the block what it likes. At every cycle the timer stands where the
cycles since its start put it, and its interrupt has been asked for at the ends of its periods.
-/

namespace SocPeripherals

open Interrupt (timerSources)

namespace Block

variable {μ : Type}

/-! ## What is heard of a timer -/

/-- The cycles at which the expiry of a timer was heard. -/
def expiriesHeard (index : Fin timerCount) (heard : List (Nat × Event)) : List Nat :=
  (heard.filter fun (_, event) => event = .note (.timerExpired index.val)).map Prod.fst

theorem expiriesHeard_append (index : Fin timerCount) (heard further : List (Nat × Event)) :
    expiriesHeard index (heard ++ further)
      = expiriesHeard index heard ++ expiriesHeard index further := by
  rw [expiriesHeard, List.filter_append, List.map_append]
  rfl

/-- What is heard at one cycle. -/
theorem expiriesHeard_map (index : Fin timerCount) (events : List Event) (cycle : Nat) :
    expiriesHeard index (events.map (cycle, ·))
      = List.replicate (events.count (.note (.timerExpired index.val))) cycle := by
  induction events with
  | nil => rfl
  | cons event rest ih =>
      unfold expiriesHeard at *
      rw [List.map_cons, List.filter_cons, List.count_cons]
      by_cases told : event = .note (.timerExpired index.val)
      · simp [told, ih, List.replicate_succ]
      · simp [told, ih]

variable [Bus μ] {before start block after : Block μ} {settings : Settings}
  {index : Fin timerCount} {elapsed cycles : Nat} {heard : List (Nat × Event)}
  {events : List Event}

/-! ## Starting a timer -/

/-- A write starts a timer. -/
structure Starts (index : Fin timerCount) (before start : Block μ) : Prop where
  wrote : ∃ width address value response,
    (before.perform (.write width address value)).outcome = .ok (response, start)
  idle : before.timers[index].isRunning = false
  running : start.timers[index].isRunning = true

/-- Only a write to the timer itself can start it. -/
theorem write_starts (sound : Sound settings before) (idle : before.timers[index].isRunning = false)
    (width : Width) (address value : UInt32) :
    (before.write width address value).Ensures fun (_, start) =>
      start.timers[index].isRunning = true → start.timers[index].isEnabled = true ∧
        start.timers[index].Runs before.clock.now 0 start.timers[index] := by
  have still {start : Block μ} (same : start.timers[index] = before.timers[index])
      (running : start.timers[index].isRunning = true) :
      start.timers[index].isEnabled = true ∧
        start.timers[index].Runs before.clock.now 0 start.timers[index] :=
    absurd ((same ▸ running : before.timers[index].isRunning = true).symm.trans idle) (by decide)
  unfold Block.write
  split
  next => exact .bind (.trivial _) fun _ _ => .pure (still rfl)
  next =>
    split
    next => exact .bind (.trivial _) fun _ _ => .pure (still rfl)
    next part offset _ =>
      by_cases own : part = .timer index
      · subst own
        refine .bind (onTimer_ensures index (fun timer _ => timer.isRunning = true →
          timer.isEnabled = true ∧ timer.Runs before.clock.now 0 timer) ?_) ?_
        · refine .bind (Timer.write_starts idle before.clock width offset value) ?_
          rintro ⟨timer, clock⟩ starts
          exact .pure starts
        · rintro ⟨_, _⟩ ⟨timer, clock, starts, rfl⟩
          refine .pure ?_
          dsimp only
          rw [Parts.getElem_set_self]
          exact starts
      · have passes := writePart_passesOver sound width offset value part fun same =>
          absurd same own
        refine .bind passes.ensures ?_
        rintro ⟨_, start⟩ passes
        exact .pure (still passes.timer)

/-! ## Where the timer stands -/

/-- What a started timer and its block keep to: by now so many cycles have gone by since the start,
and this was heard. -/
structure Keeping (settings : Settings) (index : Fin timerCount) (start : Block μ) (elapsed : Nat)
    (heard : List (Nat × Event)) (block : Block μ) : Prop where
  punctual : Punctual settings block
  now : block.clock.now = start.clock.now + UInt64.ofNat elapsed
  keeps : block.clock.Keeps block.timers[index].held
  runs : start.timers[index].Runs start.clock.now elapsed block.timers[index]
  asked : expiriesHeard index heard = start.timers[index].expiries elapsed

theorem Starts.keeping (starts : Starts index before start) (punctual : Punctual settings before) :
    Keeping settings index start 0 [] start ∧ start.timers[index].isEnabled = true := by
  obtain ⟨⟨width, address, value, response, wrote⟩, idle, running⟩ := starts
  obtain ⟨⟨answer, _⟩, done, same⟩ := Run.outcome_bind_eq_ok.1 wrote
  cases same
  have acts := write_acts (fun _ => False) before width address value _ done
  obtain ⟨enabled, runs⟩ := write_starts punctual.sound idle width address value _ done running
  have now : start.clock.now = before.clock.now := (acts.stays punctual.sound).2
  have held : before.timers[index].held = 0 := Timer.held_eq_zero_iff.2 idle
  refine ⟨⟨?_, ?_, ?_, ?_, ?_⟩, enabled⟩
  · exact (punctual_lasting fun _ => False.elim).acts punctual acts
  · exact (UInt64.add_zero _).symm
  · refine acts.keeps_timer punctual.sound punctual.distinct fun deadline known => ?_
    rw [held] at known
    exact absurd known (Multiset.notMem_zero deadline)
  · rw [now]
    exact runs
  · exact (Timer.expiries_zero _).symm

omit [Bus μ] in
/-- The timer's deadline waits on the clock. -/
theorem Keeping.pending (keeping : Keeping settings index start elapsed heard block) :
    ∀ deadline ∈ block.timers[index].held, deadline ∈ block.clock.pending :=
  fun deadline known =>
    keeping.keeps deadline known (keeping.runs.ahead keeping.now deadline known)

/-! ## Moving the clock on -/

omit [Bus μ] in
theorem Keeping.serviced (keeping : Keeping settings index start elapsed heard block)
    (serviced : Serviced index start.timers[index] start.clock.now elapsed cycles block after events)
    (punctual : Punctual settings after)
    (now : after.clock.now = start.clock.now + UInt64.ofNat (elapsed + cycles))
    (keeps : after.clock.Keeps after.timers[index].held) :
    Keeping settings index start (elapsed + cycles)
      (heard ++ events.map (elapsed + cycles, ·)) after where
  punctual := punctual
  now := now
  keeps := keeps
  runs := serviced.runs
  asked := by
    rw [expiriesHeard_append, expiriesHeard_map, keeping.asked]
    exact serviced.expiries.symm

omit [Bus μ] in
/-- A tick up to the first deadline goes no further than the end of the timer's period. -/
theorem Keeping.within (keeping : Keeping settings index start elapsed heard block)
    {cycles : UInt64}
    (first : ∀ deadline ∈ block.clock.pending, cycles ≤ block.clock.distance deadline.time)
    (goes : start.timers[index].Goes elapsed) : cycles.toNat ≤ start.timers[index].left elapsed := by
  obtain ⟨-, -, expiry, held, time⟩ := keeping.runs.of_goes goes
  have known : expiry ∈ block.timers[index].held := held ▸ Multiset.mem_singleton_self expiry
  have near := first expiry (keeping.pending expiry known)
  have short : start.timers[index].left elapsed < UInt64.size :=
    (start.timers[index].left_le elapsed).trans_lt (by decide)
  rwa [Timer.distance_expiry keeping.now time, UInt64.le_iff_toNat_le,
    UInt64.toNat_ofNat_of_lt' short] at near

omit [Bus μ] in
/-- A move that reaches no deadline ends within the timer's period. -/
theorem Keeping.quiet (keeping : Keeping settings index start elapsed heard block) {cycles : UInt64}
    {clock : Clock} (moving : block.clock.increment cycles = .ok (false, clock)) :
    Serviced index start.timers[index] start.clock.now elapsed cycles.toNat block
      { block with clock } [] := by
  have stays (goes : start.timers[index].Goes elapsed) :
      cycles.toNat < start.timers[index].left elapsed := by
    obtain ⟨-, -, expiry, held, time⟩ := keeping.runs.of_goes goes
    have placed := keeping.pending expiry (held ▸ Multiset.mem_singleton_self expiry)
    have short : start.timers[index].left elapsed < UInt64.size :=
      (start.timers[index].left_le elapsed).trans_lt (by decide)
    have ahead := Clock.ahead_of_increment moving placed
    obtain ⟨-, -, further⟩ := Clock.awaits_of_increment keeping.punctual.within moving
      ⟨(Clock.pending_of_increment moving).2 ⟨placed, ahead⟩, ahead⟩
    rwa [Timer.distance_expiry keeping.now time, UInt64.lt_iff_toNat_lt,
      UInt64.toNat_ofNat_of_lt' short] at further
  obtain ⟨runs, same⟩ := keeping.runs.stays stays
  have silent := Timer.Polled.ofSilent runs same
  exact ⟨runs, silent.expiries, (or_iff_left (mt silent.asks.2 List.not_mem_nil)).symm⟩

/-- A tick up to the first deadline services the timer. -/
theorem Keeping.tick (keeping : Keeping settings index start elapsed heard block) {cycles : UInt64}
    (first : ∀ deadline ∈ block.clock.pending, cycles ≤ block.clock.distance deadline.time) :
    (block.tick cycles).Tells fun (_, after) events =>
      Keeping settings index start (elapsed + cycles.toNat)
          (heard ++ events.map (elapsed + cycles.toNat, ·)) after ∧
        Serviced index start.timers[index] start.clock.now elapsed cycles.toNat block after
          events := by
  unfold Block.tick
  refine .bind (.except _) ?_
  rintro ⟨reached, moved⟩ _ ⟨done, rfl⟩
  have punctual := keeping.punctual.increment done
  obtain ⟨clock, moving, rfl⟩ := of_increment done
  have now : clock.now = start.clock.now + UInt64.ofNat (elapsed + cycles.toNat) := by
    rw [Clock.now_of_increment moving, keeping.now, UInt64.ofNat_add, UInt64.ofNat_toNat,
      UInt64.add_assoc]
  have keeps : clock.Keeps block.timers[index].held := fun deadline known ahead =>
    (Clock.pending_of_increment moving).2 ⟨keeping.pending deadline known, ahead⟩
  dsimp only
  split
  next =>
    have polls : (Block.poll { block with clock }).Tells fun after events =>
        Serviced index start.timers[index] start.clock.now elapsed cycles.toNat
          { block with clock } after events :=
      poll_services punctual.sound keeping.runs now (keeping.within first)
    refine .conclude (polls.and (poll_acts (fun _ => False) _)) ?_
    rintro after events ⟨polled, acts⟩
    have serviced : Serviced index start.timers[index] start.clock.now elapsed cycles.toNat block
        after events := { polled with }
    have kept := (punctual_lasting fun _ => False.elim).acts punctual acts
    have keepsAfter := acts.keeps_timer punctual.sound punctual.distinct keeps
    have nowAfter := (acts.stays punctual.sound).2.trans now
    exact ⟨_, rfl, keeping.serviced serviced kept nowAfter keepsAfter, serviced⟩
  next quiet =>
    cases Bool.eq_false_iff.2 quiet
    have serviced := keeping.quiet moving
    exact .pure ⟨keeping.serviced serviced punctual now keeps, serviced⟩

/-- An advance keeps to it, and makes the timer's interrupt pending if a period ends on the way. -/
theorem Keeping.advance (keeping : Keeping settings index start elapsed heard block)
    (cycles : UInt64) :
    (block.advance cycles).Ensures fun (_, after) =>
      Keeping settings index start (elapsed + cycles.toNat)
          (heard ++ block.advanceDated cycles elapsed) after ∧
        (after.controller.IsPending timerSources[index] ↔
          block.controller.IsPending timerSources[index] ∨
            ∃ cycle ∈ start.timers[index].expiries (elapsed + cycles.toNat), elapsed < cycle) := by
  let holds (total : Nat) (heard : List (Nat × Event)) (after : Block μ) : Prop :=
    Keeping settings index start total heard after ∧ elapsed ≤ total ∧
      (after.controller.IsPending timerSources[index] ↔
        block.controller.IsPending timerSources[index] ∨
          ∃ cycle ∈ start.timers[index].expiries total, elapsed < cycle)
  have ticks : ∀ total heard between cycles, holds total heard between →
      (∀ deadline ∈ between.clock.pending, cycles ≤ between.clock.distance deadline.time) →
        TickKeeps holds total heard between cycles := by
    rintro total heard between cycles ⟨keeping, le, asked⟩ first
    refine (keeping.tick first).imp ?_
    rintro ⟨_, after⟩ events ⟨kept, serviced⟩
    refine ⟨kept, le.trans (Nat.le_add_right _ _), ?_⟩
    rw [serviced.asks, asked, or_assoc, Timer.exists_expiries_add le]
  have none : ¬∃ cycle ∈ start.timers[index].expiries elapsed, elapsed < cycle := by
    rintro ⟨cycle, asked, later⟩
    exact Nat.not_le.2 later (Timer.le_of_mem_expiries asked)
  have held : holds elapsed heard block := ⟨keeping, le_rfl, (or_iff_left none).symm⟩
  refine (advance_keepsTo ticks keeping.punctual.within cycles heard held).imp ?_
  rintro ⟨_, after⟩ ⟨kept, -, asked⟩
  exact ⟨kept, asked⟩

/-! ## What else is done -/

/-- Whatever others do at one cycle, the clock goes on waiting for the timer's deadline. -/
theorem perform_keeps (punctual : Punctual settings block)
    (keeps : block.clock.Keeps block.timers[index].held) {command : Command}
    (beside : command.IsBeside index) :
    (block.perform command).Ensures fun (_, after) => Punctual settings after ∧
      after.clock.now = block.clock.now ∧ after.clock.Keeps after.timers[index].held := by
  by_cases at_once : command.IsLocal
  · have respects : command.Respects fun _ => False := by
      cases command with
      | restore saved => exact beside
      | _ => trivial
    refine (perform_acts (fun _ => False) at_once respects block).imp ?_
    rintro ⟨response, after⟩ acts
    exact ⟨(punctual_lasting fun _ => False.elim).acts punctual acts,
      (acts.stays punctual.sound).2, acts.keeps_timer punctual.sound punctual.distinct keeps⟩
  · cases command with
    | placeDeadline cycles =>
        refine .bind (.except _) ?_
        rintro ⟨deadline, clock⟩ placed
        have serves := Clock.Serves.scheduleIn placed UInt64.zero_le
        have own := punctual.distinct.ofLe (timer_le_held index)
        rw [← add_zero block.timers[index].held] at own
        exact .pure ⟨punctual.ofFollows serves.follows, serves.follows.now,
          serves.keepsOthers own keeps⟩
    | increment cycles => exact beside.elim
    | tick cycles => exact beside.elim
    | advance cycles => exact beside.elim
    | _ => exact absurd trivial at_once

theorem Keeping.beside (keeping : Keeping settings index start elapsed heard block)
    {command : Command} (beside : command.IsBeside index) :
    (block.perform command).Tells fun (_, after) events =>
      Keeping settings index start elapsed (heard ++ events.map (elapsed, ·)) after := by
  have tells := (perform_beside beside keeping.punctual.sound keeping.runs keeping.now).and
    (perform_keeps keeping.punctual keeping.keeps beside)
  refine tells.imp ?_
  rintro ⟨response, after⟩ events ⟨⟨runs, untold⟩, punctual, now, keeps⟩
  refine ⟨punctual, now.trans keeping.now, keeps, runs, ?_⟩
  rw [expiriesHeard_append, expiriesHeard_map, List.count_eq_zero.2 untold, List.replicate_zero,
    List.append_nil]
  exact keeping.asked

omit [Bus μ] in
theorem Keeping.cancel (keeping : Keeping settings index start elapsed heard block)
    {deadline : Deadline} {clock : Clock} (other : deadline ∉ block.timers[index].held)
    (done : block.clock.cancel deadline = .ok clock) :
    Keeping settings index start elapsed heard { block with clock } := by
  cases Clock.of_cancel done
  refine { keeping with
    punctual := keeping.punctual.ofFollows (Clock.Serves.drop 0 block.clock deadline).follows
    now := keeping.now
    keeps := fun known held ahead => ?_ }
  exact Clock.mem_pending_drop.2 ⟨keeping.keeps known held ahead, fun same => other (same ▸ held)⟩

/-- What a host does with a block since a timer of it was started: the cycles that have gone by
since, and what was heard at which of them. Others may use the clock as well, but leave the timer's
deadline to it. -/
inductive Since (index : Fin timerCount) (start : Block μ) :
    Nat → List (Nat × Event) → Block μ → Prop where
  | start : Since index start 0 [] start
  | advance {elapsed : Nat} {heard : List (Nat × Event)} {block after : Block μ} {reached : Bool}
      (since : Since index start elapsed heard block) (cycles : UInt64)
      (done : (block.advance cycles).outcome = .ok (reached, after)) :
      Since index start (elapsed + cycles.toNat) (heard ++ block.advanceDated cycles elapsed) after
  | beside {elapsed : Nat} {heard : List (Nat × Event)} {block after : Block μ} {response : Response}
      (since : Since index start elapsed heard block) (command : Command)
      (beside : command.IsBeside index)
      (done : (block.perform command).outcome = .ok (response, after)) :
      Since index start elapsed (heard ++ (block.perform command).signals.map (elapsed, ·)) after
  | cancel {elapsed : Nat} {heard : List (Nat × Event)} {block : Block μ} {deadline : Deadline}
      {clock : Clock} (since : Since index start elapsed heard block)
      (other : deadline ∉ block.timers[index].held)
      (done : block.clock.cancel deadline = .ok clock) :
      Since index start elapsed heard { block with clock }

theorem Since.keeping (since : Since index start elapsed heard block)
    (keeping : Keeping settings index start 0 [] start) :
    Keeping settings index start elapsed heard block := by
  induction since with
  | start => exact keeping
  | advance _ cycles done keeping => exact (keeping.advance cycles _ done).1
  | beside _ command beside done keeping => exact keeping.beside beside _ done
  | cancel _ other done keeping => exact keeping.cancel other done

/-! ## Blocks that go on -/

omit [Bus μ] in
/-- Somebody else's use of the clock does not matter to whether a block is fit. -/
theorem IsFit.onClock (fit : IsFit settings block) (clock : Clock) :
    IsFit settings { block with clock } :=
  ⟨{ fit.sound with }, fit.timers⟩

theorem IsFit.perform (fit : IsFit settings block) (command : Command) {response : Response}
    (own : command.IsOwn) (respects : command.Respects fun _ => False)
    (done : (block.perform command).outcome = .ok (response, after)) : IsFit settings after :=
  (isFit_lasting settings).perform fit own respects _ done

theorem Since.isFit (since : Since index start elapsed heard block) (fit : IsFit settings start) :
    IsFit settings block := by
  induction since with
  | start => exact fit
  | advance _ cycles done fit =>
      exact hop_keeps (isFit_lasting settings).tick _ fit cycles false _ done
  | @beside _ _ block _ _ _ command beside done fit =>
      cases command with
      | placeDeadline cycles =>
          obtain ⟨⟨_, clock⟩, _, same⟩ := Run.outcome_bind_eq_ok.1 done
          cases same
          exact fit.onClock clock
      | restore saved => exact beside.elim
      | _ => exact fit.perform _ (by trivial) (by trivial) done
  | cancel _ _ _ fit => exact fit.onClock _

theorem IsFit.advance_succeeds (fit : IsFit settings block) {cycles : UInt64}
    (short : cycles < Clock.horizon) : (block.advance cycles).Succeeds fun _ => True :=
  hop_succeeds (fun fit short => fit.tick_succeeds short) _ fit short false

/-! ## Reading the count -/

/-- A bus read of a timer's count shows it and leaves the block as it is. -/
theorem read_count {width : Width} {address offset : UInt32}
    (lies : Lies address (.timer index) offset) {selection : Selection Timer.registers}
    (found : Selection.find? Timer.registers width offset = some selection)
    (counts : selection.index = Timer.countIndex) (block : Block μ) :
    (block.read width address).outcome = .ok
      (.ok (selection.lane.extract (block.timers[index].count block.clock).toUInt32), block) := by
  have shown : (block.timers[index].read block.clock width offset).value.1
      = selection.lane.extract (block.timers[index].count block.clock).toUInt32 := by
    unfold Timer.read
    rw [Traced.value_bind, Selection.value_noted, found]
    dsimp only
    rw [if_pos counts]
    rfl
  unfold Block.read
  rw [if_neg (UInt32.not_le.2 lies.1), lies.2, ← shown]
  exact Run.outcome_bind_eq_ok.2 ⟨_, block.readTimer_eq index width offset, rfl⟩

/-! ## However the clock is advanced -/

/-- How a timer stands so many cycles after it was started, with what was heard in them. -/
structure Stands (settings : Settings) (index : Fin timerCount) (start : Block μ) (elapsed : Nat)
    (heard : List (Nat × Event)) (block : Block μ) : Prop where
  /-- Its expiry was heard at the ends of its periods and at no other cycle. -/
  asked : expiriesHeard index heard = start.timers[index].expiries elapsed
  /-- While it goes on, it is enabled, and the clock waits for the end of the period. -/
  goes : start.timers[index].Goes elapsed →
    block.timers[index].isRunning = true ∧ block.timers[index].isEnabled = true ∧
      ∃ expiry ∈ block.clock.pending, block.timers[index].held = {expiry} ∧
        expiry.time = start.clock.now + UInt64.ofNat
          ((elapsed / start.timers[index].periodCycles + 1) * start.timers[index].periodCycles)
  /-- Otherwise it has stopped and is not enabled, and the clock does not wait for it. -/
  ended : ¬start.timers[index].Goes elapsed →
    block.timers[index].isRunning = false ∧ block.timers[index].isEnabled = false ∧
      block.timers[index].held = 0
  /-- A bus read shows its count. -/
  reads : ∀ (width : Width) (address offset : UInt32) (selection : Selection Timer.registers),
    Lies address (.timer index) offset →
      Selection.find? Timer.registers width offset = some selection →
        selection.index = Timer.countIndex → (block.read width address).outcome = .ok
          (.ok (selection.lane.extract (UInt32.ofNat (start.timers[index].countAt elapsed))), block)
  /-- An advance makes its interrupt pending if a period ends on the way. -/
  posts : ∀ (cycles : UInt64) (reached : Bool) (after : Block μ),
    (block.advance cycles).outcome = .ok (reached, after) →
      (after.controller.IsPending timerSources[index] ↔
        block.controller.IsPending timerSources[index] ∨
          ∃ cycle ∈ start.timers[index].expiries (elapsed + cycles.toNat), elapsed < cycle)
  /-- The clock can be advanced, if the other timers were sound at the start. -/
  goesOn : IsFit settings start → ∀ cycles < Clock.horizon,
    ∃ result, (block.advance cycles).outcome = .ok result

/-- However the clock is advanced since a timer was started, and whatever else is done with the
block meanwhile, the cycles gone by tell where the timer stands. -/
theorem stands_of_since (reached : Faithful settings before) (starts : Starts index before start)
    (since : Since index start elapsed heard block) :
    Stands settings index start elapsed heard block := by
  obtain ⟨begins, enabled⟩ := starts.keeping reached.punctual
  have keeping := since.keeping begins
  refine ⟨keeping.asked, fun goes => ?_, keeping.runs.of_ended, ?_, ?_, ?_⟩
  · obtain ⟨running, same, expiry, held, time⟩ := keeping.runs.of_goes goes
    have placed := keeping.pending expiry (held ▸ Multiset.mem_singleton_self expiry)
    exact ⟨running, same.trans enabled, expiry, placed, held, time⟩
  · intro width address offset selection lies found counts
    have shown : (block.timers[index].count block.clock).toUInt32
        = UInt32.ofNat (start.timers[index].countAt elapsed) := by
      rw [← keeping.runs.count_eq keeping.now]
      exact (UInt32.ofNat_toNat).symm
    rw [read_count lies found counts, shown]
  · exact fun cycles _ after done => (keeping.advance cycles _ done).2
  · intro fit cycles short
    obtain ⟨result, done, -⟩ := (since.isFit fit).advance_succeeds short
    exact ⟨result, done⟩

/-- A timer with periods of six cycles next to a serial interface that sends a byte, and the same
timer in a period that nothing follows. -/
theorem stands_of_since_busy : ∃ (before periodic once block stopped : Block Ram)
    (heard heardToo : List (Nat × Event)),
      Faithful {} before ∧ Starts 0 before periodic ∧ Since 0 periodic 20 heard block ∧
      expiriesHeard 0 heard = [6, 12, 18] ∧
      (block.read .halfWord 0x1404).outcome = .ok (.ok 1, block) ∧
      (∃ result, (block.advance 4).outcome = .ok result) ∧
      Starts 0 before once ∧ Since 0 once 20 heardToo stopped ∧
      expiriesHeard 0 heardToo = [6] ∧ stopped.timers[(0 : Fin 4)].held = 0 ∧
      (stopped.read .halfWord 0x1404).outcome = .ok (.ok 2, stopped) := by
  have created : Faithful {} (initial {} {} Ram.empty) := .create (.fresh 0 0) rfl
  have enabled := created.perform (.write .word 0x1800 0x100) trivial rfl
  have counting := enabled.perform (.write .halfWord 0x1404 2) trivial rfl
  have fit := ((isFit_initial {} {} Ram.empty).perform (.write .word 0x1800 0x100) trivial trivial
    rfl).perform (.write .halfWord 0x1404 2) trivial trivial rfl
  have sends (index : Fin timerCount) : (Command.write .word 0x180c 65).IsBeside index :=
    fun _ other => nomatch (rfl : route? 0x180c = some (.uart 0, 0xc)).symm.trans other
  obtain ⟨before, periodic, once, block, stopped, heard, heardToo, reached, starts, since, startsToo,
      sinceToo, expiries, count, fit, expiriesToo, countToo, ended⟩ :
      ∃ (before periodic once block stopped : Block Ram) (heard heardToo : List (Nat × Event)),
        Faithful {} before ∧ Starts 0 before periodic ∧ Since 0 periodic 20 heard block ∧
        Starts 0 before once ∧ Since 0 once 20 heardToo stopped ∧
        periodic.timers[(0 : Fin 4)].expiries 20 = [6, 12, 18] ∧
        periodic.timers[(0 : Fin 4)].countAt 20 = 1 ∧ IsFit {} periodic ∧
        once.timers[(0 : Fin 4)].expiries 20 = [6] ∧ once.timers[(0 : Fin 4)].countAt 20 = 2 ∧
        ¬once.timers[(0 : Fin 4)].Goes 20 := by
    refine ⟨_, _, _, _, _, _, _, counting, ⟨⟨.word, 0x1400, 0x103, _, rfl⟩, rfl, rfl⟩,
      ((Since.start.advance 7 rfl).beside (.write .word 0x180c 65) (sends 0) rfl).advance 13 rfl,
      ⟨⟨.word, 0x1400, 0x101, _, rfl⟩, rfl, rfl⟩,
      ((Since.start.advance 7 rfl).beside (.read .halfWord 0x1404) trivial rfl).advance 13 rfl,
      rfl, rfl, fit.perform (.write .word 0x1400 0x103) trivial trivial rfl, rfl, rfl, by decide⟩
  have stands := stands_of_since reached starts since
  have standsToo := stands_of_since reached startsToo sinceToo
  have lies : Lies 0x1404 (.timer 0) 4 := by decide
  refine ⟨before, periodic, once, block, stopped, heard, heardToo, reached, starts, since,
    stands.asked.trans expiries, ?_, stands.goesOn fit 4 (by decide), startsToo, sinceToo,
    standsToo.asked.trans expiriesToo, (standsToo.ended ended).2.2, ?_⟩
  · rw [stands.reads _ _ _ _ lies rfl rfl, count]
    rfl
  · rw [standsToo.reads _ _ _ _ lies rfl rfl, countToo]
    rfl

end Block

end SocPeripherals
