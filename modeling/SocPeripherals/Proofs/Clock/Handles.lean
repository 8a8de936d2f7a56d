import SocPeripherals.Desk
import SocPeripherals.Proofs.Clock.Time

/-!
# What is told of a deadline that is held

A deadline that is held is compared with the counter of its clock alone, never with the deadlines
that are pending there. What is told of it is therefore right for as long as its distance and the
horizon together are not used up: wherever the counter wraps around, whatever else is done with the
clocks meanwhile, and also after the clock has dropped the deadline.
-/

namespace SocPeripherals

namespace Agenda

variable {agenda after : Agenda} {deadline : Deadline} {time cycles : UInt64} {reached : Bool}

/-- Dropping the deadlines that are reached changes nothing else about the clock. -/
theorem removeReached_kept (agenda : Agenda) :
    agenda.removeReached.now = agenda.now ∧ agenda.removeReached.identity = agenda.identity := by
  fun_induction removeReached agenda with
  | case1 => exact ⟨rfl, rfl⟩
  | case2 _ _ _ _ _ ih => exact ih
  | case3 => exact ⟨rfl, rfl⟩

theorem kept_of_scheduleAt (done : agenda.scheduleAt time = .ok (deadline, after)) :
    deadline.time = time ∧ deadline.clock = agenda.identity ∧
      after.now = agenda.now ∧ after.identity = agenda.identity := by
  unfold scheduleAt at done
  split at done
  · cases done
    exact ⟨rfl, rfl, rfl, rfl⟩
  · contradiction

theorem kept_of_cancel (done : agenda.cancel deadline = .ok after) :
    after.now = agenda.now ∧ after.identity = agenda.identity := by
  unfold cancel at done
  split at done
  · cases done
    exact ⟨rfl, rfl⟩
  · contradiction

theorem kept_of_increment (done : agenda.increment cycles = .ok (reached, after)) :
    cycles < Clock.horizon ∧ after.now = agenda.now + cycles ∧
      after.identity = agenda.identity := by
  unfold increment at done
  split at done
  next short =>
    refine ⟨short, ?_⟩
    dsimp only at done
    split at done
    · split at done
      · cases done
        exact removeReached_kept _
      · cases done
        exact ⟨rfl, rfl⟩
    · cases done
      exact ⟨rfl, rfl⟩
  next => contradiction

theorem long_of_increment {fault : Fault} (done : agenda.increment cycles = .error fault) :
    ¬cycles < Clock.horizon := by
  intro short
  unfold increment at done
  rw [if_pos short] at done
  dsimp only at done
  split at done
  · split at done <;> contradiction
  · contradiction

end Agenda

namespace Desk

variable {desk : Desk} {command : Command} {commands : List Command} {clock slot other : Nat}

theorem clocks_withClock (desk : Desk) (number : Nat) (agenda : Agenda) :
    (desk.withClock number agenda).clocks other =
      if other = number then agenda else desk.clocks other := rfl

/-! ## What one command leaves of a clock and of a slot -/

/-- The cycles by which a command moves a clock on. A step that is too long does not move it. -/
def Command.cycles (clock : Nat) : Command → Nat
  | .increment other cycles =>
      if other = clock ∧ cycles < Clock.horizon then cycles.toNat else 0
  | _ => 0

/-- The slot with which a command does more than to ask for the cycles left. -/
def Command.used : Command → Option Nat
  | .scheduleAt _ slot _ | .scheduleIn _ slot _ | .claim _ slot | .cancel _ slot => some slot
  | .remaining .. | .increment .. => none

/-- The cycles by which commands move a clock on. -/
def elapsed (clock : Nat) : List Command → Nat
  | [] => 0
  | command :: rest => command.cycles clock + elapsed clock rest

/-- A clock has kept its identity, and its counter has been moved on. -/
structure Moves (cycles : Nat) (agenda after : Agenda) : Prop where
  now : after.now = agenda.now + UInt64.ofNat cycles
  identity : after.identity = agenda.identity

namespace Moves

theorem still {agenda after : Agenda} (now : after.now = agenda.now)
    (identity : after.identity = agenda.identity) : Moves 0 agenda after where
  now := by simp [now]
  identity := identity

theorem refl (agenda : Agenda) : Moves 0 agenda agenda := still rfl rfl

theorem trans {first second : Nat} {agenda middle after : Agenda}
    (moves : Moves first agenda middle) (further : Moves second middle after) :
    Moves (first + second) agenda after where
  now := by rw [further.now, moves.now, UInt64.ofNat_add, UInt64.add_assoc]
  identity := further.identity.trans moves.identity

/-- If one clock does not move, then none does. -/
theorem withClock {agenda : Agenda} (moves : Moves 0 (desk.clocks other) agenda) (clock : Nat) :
    Moves 0 (desk.clocks clock) ((desk.withClock other agenda).clocks clock) := by
  rw [clocks_withClock]
  split
  next same => exact same ▸ moves
  next => exact refl _

end Moves

/-- Placing a deadline moves no clock. -/
theorem moves_keep {placed : Except Fault (Deadline × Agenda)} (clock : Nat)
    (still : ∀ deadline after, placed = .ok (deadline, after) →
      Moves 0 (desk.clocks other) after) :
    Moves 0 (desk.clocks clock) ((desk.keep other slot placed).2.clocks clock) := by
  cases placed with
  | error => exact .refl _
  | ok result => exact (still _ _ rfl).withClock clock

theorem moves_perform (desk : Desk) (command : Command) (clock : Nat) :
    Moves (command.cycles clock) (desk.clocks clock)
      ((desk.perform command).2.clocks clock) := by
  cases command with
  | scheduleAt other slot time =>
      refine moves_keep clock fun deadline after done => ?_
      obtain ⟨-, -, now, identity⟩ := Agenda.kept_of_scheduleAt done
      exact .still now identity
  | scheduleIn other slot cycles =>
      refine moves_keep clock fun deadline after done => ?_
      obtain ⟨-, -, now, identity⟩ := Agenda.kept_of_scheduleAt done
      exact .still now identity
  | claim other slot => exact .refl _
  | remaining other slot => exact .refl _
  | cancel other slot =>
      rw [perform]
      cases desk.slots slot with
      | none => exact .refl _
      | some deadline =>
          dsimp only
          cases done : (desk.clocks other).cancel deadline with
          | error => exact .refl _
          | ok after =>
              obtain ⟨now, identity⟩ := Agenda.kept_of_cancel done
              exact (Moves.still now identity).withClock clock
  | increment other cycles =>
      rw [perform]
      cases done : (desk.clocks other).increment cycles with
      | error =>
          have long := Agenda.long_of_increment done
          rw [Command.cycles, if_neg fun both => long both.2]
          exact .refl _
      | ok result =>
          obtain ⟨short, now, identity⟩ := Agenda.kept_of_increment done
          rw [settle, clocks_withClock]
          by_cases same : other = clock
          · subst same
            rw [if_pos rfl, Command.cycles, if_pos ⟨rfl, short⟩]
            exact ⟨by rw [now, UInt64.ofNat_toNat], identity⟩
          · rw [if_neg (Ne.symm same), Command.cycles, if_neg fun both => same both.1]
            exact .refl _

theorem slots_keep {placed : Except Fault (Deadline × Agenda)} (unused : slot ≠ other) :
    (desk.keep clock other placed).2.slots slot = desk.slots slot := by
  cases placed with
  | error => rfl
  | ok => exact if_neg unused

theorem slots_settle {α : Type} (answer : α → Answer) (done : Except Fault (α × Agenda)) :
    (desk.settle clock answer done).2.slots = desk.slots := by
  cases done <;> rfl

theorem slots_perform (desk : Desk) (spares : command.used ≠ some slot) :
    (desk.perform command).2.slots slot = desk.slots slot := by
  have unused {other : Nat} (uses : command.used = some other) : slot ≠ other :=
    fun same => spares (same ▸ uses)
  cases command with
  | scheduleAt => exact slots_keep (unused rfl)
  | scheduleIn => exact slots_keep (unused rfl)
  | claim => exact if_neg (unused rfl)
  | remaining => rfl
  | cancel other used =>
      rw [perform]
      cases desk.slots used with
      | none => rfl
      | some deadline =>
          dsimp only
          rw [slots_settle]
          exact if_neg (unused rfl)
  | increment => exact congrFun (slots_settle _ _) slot

/-! ## What commands leave of a clock and of a slot -/

theorem moves_performAll (desk : Desk) (commands : List Command) (clock : Nat) :
    Moves (elapsed clock commands) (desk.clocks clock)
      ((desk.performAll commands).clocks clock) := by
  induction commands generalizing desk with
  | nil => exact .refl _
  | cons command rest ih =>
      have first := moves_perform desk command clock
      have second := ih (desk.perform command).2
      exact first.trans second

theorem slots_performAll (desk : Desk)
    (spare : ∀ command ∈ commands, command.used ≠ some slot) :
    (desk.performAll commands).slots slot = desk.slots slot := by
  induction commands generalizing desk with
  | nil => rfl
  | cons command rest ih =>
      have first := slots_perform desk (spare command List.mem_cons_self)
      have second := ih (desk.perform command).2
        fun other later => spare other (List.mem_cons_of_mem _ later)
      exact second.trans first

/-! ## What is told of a deadline -/

/-- A command that places a deadline some cycles ahead and holds it in a slot. -/
inductive Places (desk : Desk) (clock slot : Nat) : UInt64 → Command → Prop where
  | scheduleAt (time : UInt64) :
      Places desk clock slot ((desk.clocks clock).distance time) (.scheduleAt clock slot time)
  | scheduleIn (cycles : UInt64) : Places desk clock slot cycles (.scheduleIn clock slot cycles)

/-- What is told of the deadline in a slot that was placed some cycles ahead on a clock, after so
many cycles have gone by there. -/
structure Agrees (desk : Desk) (clock slot : Nat) (cycles gone : Nat) : Prop where
  /-- It is let go of exactly when it is told to be reached. -/
  claimed : desk.perform (.claim clock slot) =
    (.ok (.claimed (cycles ≤ gone)), if cycles ≤ gone then desk.withSlot slot none else desk)
  /-- The cycles left are told, none once they have gone by. -/
  left : ∃ left : UInt64, left.toNat = cycles - gone ∧
    desk.perform (.remaining clock slot) = (.ok (.remaining (some left)), desk)
  /-- Another clock refuses to cancel it, and all deadlines are left on their clocks. -/
  refused : ∀ other ≠ clock,
    (desk.perform (.cancel other slot)).1 = .error .foreignDeadline ∧
      (desk.perform (.cancel other slot)).2.clocks = desk.clocks

theorem keep_of_scheduleAt {time : UInt64}
    (near : (desk.clocks clock).distance time < Clock.horizon) :
    ∃ deadline after,
      desk.keep clock slot ((desk.clocks clock).scheduleAt time) = (.ok .placed, after) ∧
      after.slots slot = some deadline ∧ deadline.time = time ∧
      deadline.clock = (desk.clocks clock).identity := by
  rw [Agenda.scheduleAt, if_pos near]
  exact ⟨_, _, rfl, if_pos rfl, rfl, rfl⟩

/-- A command that places a deadline near enough is carried out. -/
theorem Places.perform {cycles : UInt64} (places : desk.Places clock slot cycles command)
    (near : cycles < Clock.horizon) :
    ∃ deadline after, desk.perform command = (.ok .placed, after) ∧
      after.slots slot = some deadline ∧
      deadline.time = (desk.clocks clock).now + cycles ∧
      deadline.clock = (desk.clocks clock).identity := by
  cases places with
  | scheduleAt time =>
      obtain ⟨deadline, after, done, held, shown, issuer⟩ := keep_of_scheduleAt near
      refine ⟨deadline, after, done, held, ?_, issuer⟩
      rw [shown, Clock.distance]
      grind
  | scheduleIn =>
      refine keep_of_scheduleAt ?_
      rw [Clock.distance_add]
      exact near

theorem Places.cycles_eq {cycles : UInt64} (places : desk.Places clock slot cycles command) :
    command.cycles clock = 0 := by
  cases places <;> rfl

/-- How a counter that was moved on stands to a time that was some cycles ahead: the cycles that
have gone by say it as long as they do not pass the time by the horizon. -/
theorem sub_lt_horizon_iff {start cycles : UInt64} {gone : Nat} (near : cycles < Clock.horizon)
    (inRange : gone < cycles.toNat + Clock.horizon.toNat) :
    start + UInt64.ofNat gone - (start + cycles) < Clock.horizon ↔ cycles.toNat ≤ gone := by
  have := start.toNat_lt
  have := cycles.toNat_lt
  rw [UInt64.lt_iff_toNat_lt] at near ⊢
  simp only [UInt64.toNat_sub, UInt64.toNat_add, UInt64.toNat_ofNat', Clock.horizon,
    UInt64.reduceToNat] at *
  omega

theorem toNat_sub_of_lt {start cycles : UInt64} {gone : Nat} (ahead : gone < cycles.toNat) :
    (start + cycles - (start + UInt64.ofNat gone)).toNat = cycles.toNat - gone := by
  have := start.toNat_lt
  have := cycles.toNat_lt
  simp only [UInt64.toNat_sub, UInt64.toNat_add, UInt64.toNat_ofNat']
  omega

theorem withSlot_slots (desk : Desk) (slot : Nat) :
    desk.withSlot slot (desk.slots slot) = desk := by
  have same : (fun other => if other = slot then desk.slots slot else desk.slots other)
      = desk.slots := by
    funext other
    split
    next here => rw [here]
    next => rfl
  rw [withSlot, same]

theorem agrees_of_held {deadline : Deadline} {start cycles : UInt64} {gone : Nat}
    (numbered : ∀ number, (desk.clocks number).identity = number)
    (held : desk.slots slot = some deadline) (issuer : deadline.clock = clock)
    (time : deadline.time = start + cycles)
    (now : (desk.clocks clock).now = start + UInt64.ofNat gone) (near : cycles < Clock.horizon)
    (inRange : gone < cycles.toNat + Clock.horizon.toNat) :
    desk.Agrees clock slot cycles.toNat gone := by
  have reached : (desk.clocks clock).hasReached deadline.time = decide (cycles.toNat ≤ gone) := by
    rw [Clock.hasReached, now, time]
    exact decide_eq_decide.2 (sub_lt_horizon_iff near inRange)
  refine ⟨?_, ?_, fun other foreign => ?_⟩
  · rw [perform, held]
    by_cases passed : cycles.toNat ≤ gone
    · rw [Clock.claim_of_reached (reached.trans (decide_eq_true passed)), if_pos passed,
        decide_eq_true passed]
    · rw [Clock.claim_of_ahead (reached.trans (decide_eq_false passed)), if_neg passed,
        decide_eq_false passed, ← held]
      exact congrArg (Prod.mk _) (withSlot_slots desk slot)
  · refine ⟨(desk.clocks clock).remaining deadline, ?_, ?_⟩
    · rw [Clock.remaining, reached]
      by_cases passed : cycles.toNat ≤ gone
      · rw [decide_eq_true passed, if_pos rfl, Nat.sub_eq_zero_of_le passed]
        rfl
      · rw [decide_eq_false passed, if_neg Bool.false_ne_true, Clock.distance, now, time]
        exact toNat_sub_of_lt (Nat.lt_of_not_le passed)
    · rw [perform, held]
      rfl
  · have refused : (desk.clocks other).cancel deadline = .error .foreignDeadline := by
      rw [Agenda.cancel, numbered other, issuer]
      exact if_neg (Ne.symm foreign)
    rw [perform, held]
    dsimp only
    rw [refused]
    exact ⟨rfl, rfl⟩

/-- What is told of a deadline agrees with the cycles that have gone by on its clock since it was
placed: whatever the counters show at first and whatever was done before, wherever the counter
wraps around, and whatever else is done meanwhile on any of the clocks. -/
theorem agrees_of_places {counters : Nat → UInt64} {earlier later : List Command}
    {cycles : UInt64}
    (places : ((starting counters).performAll earlier).Places clock slot cycles command)
    (near : cycles < Clock.horizon) (others : ∀ command ∈ later, command.used ≠ some slot)
    (inRange : elapsed clock later < cycles.toNat + Clock.horizon.toNat) :
    (((starting counters).performAll earlier).perform command).1 = .ok .placed ∧
      ((starting counters).performAll (earlier ++ command :: later)).Agrees clock slot
        cycles.toNat (elapsed clock later) := by
  have numbered (commands : List Command) (number : Nat) :
      (((starting counters).performAll commands).clocks number).identity = number :=
    (moves_performAll _ commands number).identity
  obtain ⟨deadline, after, done, held, time, issuer⟩ := places.perform near
  have run : (starting counters).performAll (earlier ++ command :: later)
      = after.performAll later := by
    rw [performAll, List.foldl_append, List.foldl_cons]
    exact congrArg (performAll · later) (congrArg Prod.snd done)
  have placing := moves_perform ((starting counters).performAll earlier) command clock
  rw [places.cycles_eq, done] at placing
  have moves := placing.trans (moves_performAll after later clock)
  rw [Nat.zero_add, ← run] at moves
  refine ⟨congrArg Prod.fst done, agrees_of_held (numbered _) ?_ ?_ time ?_ near inRange⟩
  · rw [run, slots_performAll after others, held]
  · exact issuer.trans (numbered earlier clock)
  · exact moves.now

/-- A deadline beyond the wrap of the counter, one cycle before it is reached and at it, with other
deadlines that are placed, reached and cancelled meanwhile. -/
theorem agrees_of_places_wrapping :
    let desk := starting fun number => if number = 0 then 0xfffffffffffffffd else 5
    let meanwhile := [Command.increment 0 4, .scheduleIn 1 2 9, .increment 0 2, .claim 0 1,
      .increment 1 9, .cancel 1 2]
    (desk.performAll ([.scheduleIn 0 1 5] ++ .scheduleIn 0 0 7 :: meanwhile)).Agrees 0 0 7 6 ∧
      (desk.performAll ([.scheduleIn 0 1 5] ++
        .scheduleIn 0 0 7 :: (meanwhile ++ [.increment 0 1]))).Agrees 0 0 7 7 :=
  ⟨(agrees_of_places (.scheduleIn 7) (by decide) (by decide) (by decide)).2,
    (agrees_of_places (.scheduleIn 7) (by decide) (by decide) (by decide)).2⟩

end Desk

end SocPeripherals
