import SocPeripherals.Proofs.Clock.Agenda
import SocPeripherals.Proofs.Run

/-!
# Live deadlines

A deadline is live from when it is placed until it is cancelled or a step reaches it. Wherever the
counter of an agenda begins, and however the agenda is used, it keeps exactly the live deadlines and
finds the first of them. It cannot be told from a clock that looks through its deadlines.
-/

namespace SocPeripherals

/-- The clock with other deadlines. -/
def Clock.holding (clock : Clock) (deadlines : List Deadline) : Clock :=
  { clock with pending := deadlines }

namespace Agenda

variable {agenda after : Agenda} {live : List Deadline} {deadline : Deadline}
  {time cycles : UInt64} {reached : Bool}

/-! ## What one operation does to the live deadlines -/

/-- The agenda is kept, and the deadlines in it are the live ones. -/
structure Holds (agenda : Agenda) (live : List Deadline) : Prop extends Kept agenda where
  perm : agenda.pending.Perm live

namespace Holds

theorem nodup (holds : agenda.Holds live) : live.Nodup := by
  refine holds.perm.nodup_iff.1 (holds.sorted.imp fun {first second} before same => ?_)
  subst same
  exact Deadline.Before.irrefl first before

theorem near (holds : agenda.Holds live) :
    ∀ deadline ∈ live, agenda.distance deadline.time < Clock.horizon :=
  fun deadline isLive => holds.within deadline (holds.perm.mem_iff.2 isLive)

theorem nextDeadline_eq_none_iff (holds : agenda.Holds live) :
    agenda.nextDeadline = none ↔ live = [] := by
  rw [nextDeadline, holds.remembered, Clock.nextDeadline_eq_none_iff,
    ← List.isEmpty_iff, holds.perm.isEmpty_eq, List.isEmpty_iff]

theorem nextDeadline_eq_some_iff (holds : agenda.Holds live) : agenda.nextDeadline = some time ↔
    (∃ deadline ∈ live, deadline.time = time) ∧
      ∀ deadline ∈ live, agenda.distance time ≤ agenda.distance deadline.time := by
  rw [nextDeadline, holds.remembered, Clock.nextDeadline_eq_some_iff]
  simp only [holds.perm.mem_iff]

/-- Serial numbers are not given out twice, so that a deadline that is placed is a new one. -/
theorem scheduleAt (holds : agenda.Holds live) (near : agenda.distance time < Clock.horizon) :
    ∃ deadline after, agenda.scheduleAt time = .ok (deadline, after) ∧
      deadline = ⟨agenda.identity, time, agenda.issued⟩ ∧ deadline ∉ live ∧
      after.toClock = { agenda.holding after.pending with issued := agenda.issued + 1 } ∧
      after.Holds (deadline :: live) := by
  have new : (⟨agenda.identity, time, agenda.issued⟩ : Deadline) ∉ agenda.pending :=
    fun placed => Nat.lt_irrefl _ (holds.older _ placed)
  have done := holds.scheduleAt_eq time
  rw [Clock.scheduleAt, if_pos near] at done
  refine ⟨_, _, done, rfl, fun isLive => new (holds.perm.mem_iff.2 isLive), rfl, ?_⟩
  exact
    { sorted := Deadline.sorted_sortInto holds.sorted
      within := by
        intro deadline placed
        rcases Deadline.mem_sortInto.1 placed with rfl | placed
        · exact near
        · exact holds.within deadline placed
      remembered := rfl
      older := by
        intro deadline placed
        rcases Deadline.mem_sortInto.1 placed with rfl | placed
        · exact Nat.lt_succ_self _
        · exact Nat.lt_succ_of_lt (holds.older deadline placed)
      perm := (Deadline.perm_sortInto new).trans (holds.perm.cons _) }

/-- A clock with some of the deadlines left makes an agenda with those that are live of them. -/
theorem filter (holds : agenda.Holds live) (keeps : Deadline → Bool) {clock : Clock}
    (pending : clock.pending = agenda.pending.filter keeps) (issued : clock.issued = agenda.issued)
    (within : clock.Within) : (ofClock clock).Holds (live.filter keeps) where
  sorted := by
    change clock.pending.Pairwise _
    rw [pending]
    exact holds.sorted.filter _
  within := within
  remembered := rfl
  older := by
    intro deadline placed
    change deadline ∈ clock.pending at placed
    change deadline.serial < clock.issued
    rw [pending] at placed
    rw [issued]
    exact holds.older deadline (List.mem_of_mem_filter placed)
  perm := by
    change clock.pending.Perm _
    rw [pending]
    exact holds.perm.filter _

theorem cancel (holds : agenda.Holds live) (own : deadline.clock = agenda.identity) :
    ∃ after, agenda.cancel deadline = .ok after ∧
      after.toClock = agenda.holding after.pending ∧
      after.Holds (live.filter (· ≠ deadline)) ∧ (deadline ∉ live → after = agenda) := by
  have done := holds.cancel_eq deadline
  rw [Clock.cancel, if_pos own] at done
  refine ⟨_, done, rfl, holds.filter _ rfl rfl ?_, fun absent => ?_⟩
  · exact fun other placed => holds.within other (List.mem_of_mem_filter placed)
  · have unchanged := holds.cancel_absent own fun placed => absent (holds.perm.mem_iff.1 placed)
    exact Except.ok.inj (done.symm.trans unchanged)

theorem increment (holds : agenda.Holds live) (short : cycles < Clock.horizon) :
    ∃ reached after, agenda.increment cycles = .ok (reached, after) ∧
      after.toClock = (agenda.moved cycles).holding after.pending ∧
      (reached = true ↔ ∃ deadline ∈ live, agenda.distance deadline.time ≤ cycles) ∧
      after.Holds (live.filter fun deadline => cycles < agenda.distance deadline.time) := by
  have done := holds.increment_eq cycles
  rw [holds.within.increment_eq short] at done
  refine ⟨_, _, done, rfl, by simp [holds.perm.mem_iff], holds.filter _ rfl rfl ?_⟩
  exact (Clock.upcoming_of_increment holds.within (holds.within.increment_eq short)).within

end Holds

/-! ## The agenda as a clock -/

/-- The clock holds the deadlines of the agenda, in whatever order. -/
def Mirrors (agenda : Agenda) (clock : Clock) : Prop :=
  ∃ live, clock = agenda.holding live ∧ agenda.Holds live

namespace Mirrors

variable {clock : Clock} {ε : Type}

theorem nextDeadline_eq (mirrors : agenda.Mirrors clock) :
    agenda.nextDeadline = clock.nextDeadline := by
  obtain ⟨live, rfl, holds⟩ := mirrors
  refine Option.ext fun time => ?_
  rw [holds.nextDeadline_eq_some_iff, Clock.nextDeadline_eq_some_iff]
  rfl

theorem increment (mirrors : agenda.Mirrors clock) (cycles : UInt64) :
    Run.Matches (ε := ε) (fun (reached, after) (reachedOther, later) =>
        reachedOther = reached ∧ after.Mirrors later)
      (liftM (agenda.increment cycles)) (liftM (clock.increment cycles)) := by
  obtain ⟨live, rfl, holds⟩ := mirrors
  by_cases short : cycles < Clock.horizon
  · obtain ⟨reached, after, done, kept, reachedIff, holdsAfter⟩ := holds.increment short
    have stepped : (agenda.holding live).increment cycles =
        .ok (live.any fun deadline => agenda.distance deadline.time ≤ cycles,
          (agenda.moved cycles).holding
            (live.filter fun deadline => cycles < agenda.distance deadline.time)) :=
      Clock.Within.increment_eq holds.near short
    rw [done, stepped]
    refine .value [] ⟨?_, _, ?_, holdsAfter⟩
    · rw [Bool.eq_iff_iff, reachedIff, List.any_eq_true]
      simp only [decide_eq_true_eq]
    · rw [kept]
      rfl
  · rw [Agenda.increment, if_neg short, Clock.increment, if_neg short]
    exact .fault _ []

theorem scheduleAt (mirrors : agenda.Mirrors clock) (time : UInt64) :
    Run.Matches (ε := ε) (fun (deadline, after) (other, later) =>
        other = deadline ∧ after.Mirrors later)
      (liftM (agenda.scheduleAt time)) (liftM (clock.scheduleAt time)) := by
  obtain ⟨live, rfl, holds⟩ := mirrors
  by_cases near : agenda.distance time < Clock.horizon
  · obtain ⟨deadline, after, done, rfl, -, kept, holdsAfter⟩ := holds.scheduleAt near
    have nearOther : (agenda.holding live).distance time < Clock.horizon := near
    rw [done, Clock.scheduleAt, if_pos nearOther]
    refine .value [] ⟨rfl, _, ?_, holdsAfter⟩
    rw [kept]
    rfl
  · have farOther : ¬(agenda.holding live).distance time < Clock.horizon := near
    rw [Agenda.scheduleAt, if_neg near, Clock.scheduleAt, if_neg farOther]
    exact .fault _ []

theorem cancel (mirrors : agenda.Mirrors clock) (deadline : Deadline) :
    Run.Matches (ε := ε) Mirrors (liftM (agenda.cancel deadline))
      (liftM (clock.cancel deadline)) := by
  obtain ⟨live, rfl, holds⟩ := mirrors
  by_cases own : deadline.clock = agenda.identity
  · obtain ⟨after, done, kept, holdsAfter, -⟩ := holds.cancel own
    have ownOther : deadline.clock = (agenda.holding live).identity := own
    rw [done, Clock.cancel, if_pos ownOther]
    refine .value [] ⟨_, ?_, holdsAfter⟩
    rw [kept]
    rfl
  · have foreignOther : ¬deadline.clock = (agenda.holding live).identity := own
    rw [Agenda.cancel, if_neg own, Clock.cancel, if_neg foreignOther]
    exact .fault _ []

end Mirrors

/-! ## However the agenda is used -/

/-- Which deadlines are live after an agenda was used, from a first cycle on that may be any. -/
inductive History : Agenda → List Deadline → Prop where
  | start (identity : Nat) (now : UInt64) : History { identity, now } []
  | scheduleAt {agenda after : Agenda} {live : List Deadline} {time : UInt64} {deadline : Deadline}
      (history : History agenda live) (done : agenda.scheduleAt time = .ok (deadline, after)) :
      History after (deadline :: live)
  | scheduleIn {agenda after : Agenda} {live : List Deadline} {cycles : UInt64}
      {deadline : Deadline} (history : History agenda live)
      (done : agenda.scheduleIn cycles = .ok (deadline, after)) :
      History after (deadline :: live)
  | cancel {agenda after : Agenda} {live : List Deadline} {deadline : Deadline}
      (history : History agenda live) (done : agenda.cancel deadline = .ok after) :
      History after (live.filter (· ≠ deadline))
  | increment {agenda after : Agenda} {live : List Deadline} {cycles : UInt64} {reached : Bool}
      (history : History agenda live) (done : agenda.increment cycles = .ok (reached, after)) :
      History after (live.filter fun deadline => cycles < agenda.distance deadline.time)

theorem Holds.of_scheduleAt (holds : agenda.Holds live)
    (done : agenda.scheduleAt time = .ok (deadline, after)) : after.Holds (deadline :: live) := by
  have near : agenda.distance time < Clock.horizon := by
    refine Decidable.byContradiction fun far => ?_
    simp [Agenda.scheduleAt, far] at done
  obtain ⟨_, _, placed, -, -, -, holdsAfter⟩ := holds.scheduleAt near
  cases placed.symm.trans done
  exact holdsAfter

theorem Holds.of_cancel (holds : agenda.Holds live) (done : agenda.cancel deadline = .ok after) :
    after.Holds (live.filter (· ≠ deadline)) := by
  have own : deadline.clock = agenda.identity := by
    refine Decidable.byContradiction fun foreign => ?_
    simp [Agenda.cancel, foreign] at done
  obtain ⟨_, cancelled, -, holdsAfter, -⟩ := holds.cancel own
  cases cancelled.symm.trans done
  exact holdsAfter

theorem Holds.of_increment (holds : agenda.Holds live)
    (done : agenda.increment cycles = .ok (reached, after)) :
    after.Holds (live.filter fun deadline => cycles < agenda.distance deadline.time) := by
  have short : cycles < Clock.horizon := by
    refine Decidable.byContradiction fun long => ?_
    simp [Agenda.increment, long] at done
  obtain ⟨_, _, stepped, -, -, holdsAfter⟩ := holds.increment short
  cases stepped.symm.trans done
  exact holdsAfter

theorem History.holds (history : History agenda live) : agenda.Holds live := by
  induction history with
  | start identity now =>
      exact
        { sorted := .nil
          within := by simp [Clock.Within]
          remembered := rfl
          older := by simp
          perm := .refl _ }
  | scheduleAt _ done ih => exact ih.of_scheduleAt done
  | scheduleIn _ done ih => exact ih.of_scheduleAt done
  | cancel _ done ih => exact ih.of_cancel done
  | increment _ done ih => exact ih.of_increment done

/-- However an agenda is used, it mirrors the clock that holds the live deadlines. -/
theorem History.mirrors (history : History agenda live) : agenda.Mirrors (agenda.holding live) :=
  ⟨live, rfl, history.holds⟩

/-- The agenda answers in terms of the live deadlines, wherever the counter wraps around. -/
structure Exact (agenda : Agenda) (live : List Deadline) : Prop where
  /-- The agenda keeps the live deadlines and no others. -/
  kept : agenda.pending.Perm live
  /-- No deadline is live twice, also when several have one time. -/
  nodup : live.Nodup
  /-- The live deadlines lie less than the horizon ahead. -/
  near : ∀ deadline ∈ live, agenda.distance deadline.time < Clock.horizon
  nextNone : agenda.nextDeadline = none ↔ live = []
  /-- The next deadline is the live one of least distance. -/
  nextSome : ∀ time, agenda.nextDeadline = some time ↔
    (∃ deadline ∈ live, deadline.time = time) ∧
      ∀ deadline ∈ live, agenda.distance time ≤ agenda.distance deadline.time
  /-- A new deadline is placed at any time that lies less than the horizon ahead. -/
  placed : ∀ time, agenda.distance time < Clock.horizon →
    ∃ deadline after, agenda.scheduleAt time = .ok (deadline, after) ∧ deadline.time = time ∧
      deadline ∉ live ∧ after.now = agenda.now ∧ after.pending.Perm (deadline :: live)
  placedIn : ∀ cycles < Clock.horizon,
    ∃ deadline after, agenda.scheduleIn cycles = .ok (deadline, after) ∧
      agenda.distance deadline.time = cycles ∧
      deadline ∉ live ∧ after.now = agenda.now ∧ after.pending.Perm (deadline :: live)
  /-- A step tells whether it reaches a live deadline, and drops those that it reaches. -/
  stepped : ∀ cycles < Clock.horizon,
    ∃ reached after, agenda.increment cycles = .ok (reached, after) ∧
      after.now = agenda.now + cycles ∧
      (reached = true ↔ ∃ deadline ∈ live, agenda.distance deadline.time ≤ cycles) ∧
      after.pending.Perm (live.filter fun deadline => ¬agenda.distance deadline.time ≤ cycles)
  /-- A deadline is cancelled alone; one that is not live leaves everything as it is. -/
  cancelled : ∀ deadline, deadline.clock = agenda.identity →
    ∃ after, agenda.cancel deadline = .ok after ∧ after.now = agenda.now ∧
      after.pending.Perm (live.filter (· ≠ deadline)) ∧ (deadline ∉ live → after = agenda)

/-- However an agenda is used, it answers in terms of the deadlines that are live. -/
theorem exact_of_history (history : History agenda live) : agenda.Exact live := by
  have holds := history.holds
  have placed : ∀ time, agenda.distance time < Clock.horizon →
      ∃ deadline after, agenda.scheduleAt time = .ok (deadline, after) ∧ deadline.time = time ∧
        deadline ∉ live ∧ after.now = agenda.now ∧ after.pending.Perm (deadline :: live) := by
    intro time near
    obtain ⟨deadline, after, done, rfl, new, same, holdsAfter⟩ := holds.scheduleAt near
    exact ⟨_, after, done, rfl, new, (congrArg Clock.now same).trans rfl, holdsAfter.perm⟩
  exact
    { kept := holds.perm
      nodup := holds.nodup
      near := holds.near
      nextNone := holds.nextDeadline_eq_none_iff
      nextSome := fun time => holds.nextDeadline_eq_some_iff
      placed
      placedIn := by
        intro cycles short
        have distance : agenda.distance (agenda.now + cycles) = cycles := Clock.distance_add _ _
        obtain ⟨deadline, after, done, time, rest⟩ := placed _ (distance.symm ▸ short)
        exact ⟨deadline, after, done, time ▸ distance, rest⟩
      stepped := by
        intro cycles short
        obtain ⟨reached, after, done, same, reachedIff, holdsAfter⟩ := holds.increment short
        refine ⟨reached, after, done, (congrArg Clock.now same).trans rfl, reachedIff, ?_⟩
        simp only [UInt64.not_le]
        exact holdsAfter.perm
      cancelled := by
        intro deadline own
        obtain ⟨after, done, same, holdsAfter, unchanged⟩ := holds.cancel own
        exact ⟨after, done, (congrArg Clock.now same).trans rfl, holdsAfter.perm, unchanged⟩ }

/-- Two deadlines at one time behind the wrap of the counter, of which one is cancelled, and a third
that comes before it. -/
theorem exact_of_history_wrapping : ∃ agenda,
    History agenda [⟨0, 0xfffffffffffffffe, 2⟩, ⟨0, 2, 1⟩] ∧
      agenda.nextDeadline = some 0xfffffffffffffffe ∧
      (∃ after, agenda.increment 4 = .ok (true, after) ∧ after.pending = [⟨0, 2, 1⟩]) ∧
      agenda.cancel ⟨0, 2, 0⟩ = .ok agenda := by
  have first : History ⟨⟨0, 0xfffffffffffffffd, [⟨0, 2, 0⟩], 1⟩, some 2⟩ [⟨0, 2, 0⟩] :=
    (History.start 0 0xfffffffffffffffd).scheduleIn (show Agenda.scheduleIn _ 5 = _ from rfl)
  have second : History ⟨⟨0, 0xfffffffffffffffd, [⟨0, 2, 0⟩, ⟨0, 2, 1⟩], 2⟩, some 2⟩
      [⟨0, 2, 1⟩, ⟨0, 2, 0⟩] :=
    first.scheduleAt (show Agenda.scheduleAt _ 2 = _ from rfl)
  have third : History
      ⟨⟨0, 0xfffffffffffffffd, [⟨0, 2, 0⟩, ⟨0, 2, 1⟩, ⟨0, 0xfffffffffffffffe, 2⟩], 3⟩,
        some 0xfffffffffffffffe⟩
      [⟨0, 0xfffffffffffffffe, 2⟩, ⟨0, 2, 1⟩, ⟨0, 2, 0⟩] :=
    second.scheduleIn (show Agenda.scheduleIn _ 1 = _ from rfl)
  have history : History
      ⟨⟨0, 0xfffffffffffffffd, [⟨0, 2, 1⟩, ⟨0, 0xfffffffffffffffe, 2⟩], 3⟩,
        some 0xfffffffffffffffe⟩
      [⟨0, 0xfffffffffffffffe, 2⟩, ⟨0, 2, 1⟩] :=
    third.cancel (show Agenda.cancel _ ⟨0, 2, 0⟩ = _ from rfl)
  have answers := exact_of_history history
  refine ⟨_, history, (answers.nextSome _).2 ⟨⟨_, .head _, rfl⟩, by decide⟩, ?_, ?_⟩
  · obtain ⟨reached, after, done, -, reachedIff, left⟩ := answers.stepped 4 (by decide)
    have reaches : reached = true := reachedIff.2 ⟨_, .head _, by decide⟩
    have one : after.pending.Perm [⟨0, 2, 1⟩] := left
    exact ⟨after, reaches ▸ done, List.perm_singleton.1 one⟩
  · obtain ⟨after, done, -, -, unchanged⟩ := answers.cancelled ⟨0, 2, 0⟩ rfl
    rw [done, unchanged (by decide)]

end Agenda

end SocPeripherals
