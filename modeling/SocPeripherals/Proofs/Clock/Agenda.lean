import SocPeripherals.Agenda
import SocPeripherals.Proofs.Clock.Time

/-!
# What the agenda remembers

The search for the first deadline finds the one that lies the fewest cycles behind the start of the
search, counted around the wrap of the counter. As long as the pending deadlines are sorted and
near, that is the one that lies the fewest cycles ahead, and an agenda that remembers it does what a
clock does that looks through its deadlines at every step.
-/

namespace SocPeripherals

/-! ## Sorting -/

namespace Deadline

variable {first second third deadline other : Deadline} {deadlines : List Deadline}

theorem Before.trans (before : first.Before second) (beforeNext : second.Before third) :
    first.Before third := by
  unfold Before at *
  grind

theorem Before.irrefl (deadline : Deadline) : ¬deadline.Before deadline := by
  unfold Before
  grind

theorem Before.time_le (before : first.Before second) : first.time ≤ second.time := by
  unfold Before at before
  grind

theorem eq_or_before (first second : Deadline) :
    first = second ∨ first.Before second ∨ second.Before first := by
  obtain ⟨clock, time, serial⟩ := first
  obtain ⟨clock', time', serial'⟩ := second
  simp only [Before, mk.injEq]
  grind

theorem mem_sortInto :
    other ∈ deadline.sortInto deadlines ↔ other = deadline ∨ other ∈ deadlines := by
  induction deadlines with
  | nil => simp [sortInto]
  | cons first rest ih =>
      unfold sortInto
      split
      next same => simp [same]
      next =>
        split
        next => simp
        next => simp [ih, or_left_comm]

theorem perm_sortInto (new : deadline ∉ deadlines) :
    (deadline.sortInto deadlines).Perm (deadline :: deadlines) := by
  induction deadlines with
  | nil => exact .refl _
  | cons first rest ih =>
      rw [List.mem_cons, not_or] at new
      rw [sortInto, if_neg new.1]
      split
      next => exact .refl _
      next => exact ((ih new.2).cons first).trans (.swap deadline first rest)

theorem sorted_sortInto (sorted : deadlines.Pairwise Before) :
    (deadline.sortInto deadlines).Pairwise Before := by
  induction deadlines with
  | nil => exact List.pairwise_singleton _ _
  | cons first rest ih =>
      obtain ⟨beforeRest, sortedRest⟩ := List.pairwise_cons.1 sorted
      unfold sortInto
      split
      next => exact sorted
      next different =>
        split
        next before =>
          refine List.pairwise_cons.2 ⟨fun other placed => ?_, sorted⟩
          rcases List.mem_cons.1 placed with rfl | placed
          · exact before
          · exact before.trans (beforeRest other placed)
        next notBefore =>
          refine List.pairwise_cons.2 ⟨fun other placed => ?_, ih sortedRest⟩
          rcases mem_sortInto.1 placed with rfl | placed
          · exact ((eq_or_before other first).resolve_left different).resolve_left notBefore
          · exact beforeRest other placed

end Deadline

/-! ## The search for the first deadline -/

namespace Agenda

variable {agenda after : Agenda} {first second deadline : Deadline} {time other cycles : UInt64}

/-- The cycles from the start of the search to a time. -/
def lead (agenda : Agenda) (time : UInt64) : UInt64 := time - agenda.searchStart

/-- The times from the start of the search on lead by less than those before it, and within either
part the earlier time leads by less. -/
theorem lead_le (order : time ≤ other ∧ (agenda.searchStart ≤ time ∨ other < agenda.searchStart) ∨
    agenda.searchStart ≤ time ∧ other < agenda.searchStart) :
    agenda.lead time ≤ agenda.lead other := by
  unfold lead
  generalize agenda.searchStart = start at order ⊢
  simp only [UInt64.le_iff_toNat_le, UInt64.lt_iff_toNat_lt, UInt64.toNat_sub] at order ⊢
  have := start.toNat_lt
  have := time.toNat_lt
  have := other.toNat_lt
  omega

theorem earliest_eq_none_iff : agenda.earliest = none ↔ agenda.pending = [] := by
  rw [earliest, Option.or_eq_none_iff, List.head?_eq_none_iff]
  exact ⟨And.right, fun empty => ⟨by simp [empty], empty⟩⟩

/-- The search finds the deadline that leads by the least. -/
theorem lead_le_of_earliest (sorted : agenda.pending.Pairwise Deadline.Before)
    (found : agenda.earliest = some first) :
    ∀ deadline ∈ agenda.pending, agenda.lead first.time ≤ agenda.lead deadline.time := by
  intro deadline placed
  rcases Option.or_eq_some_iff.1 found with found | ⟨notFound, found⟩
  · obtain ⟨fromStart, earlier, later, split, beforeStart⟩ := List.find?_eq_some_iff_append.1 found
    rw [decide_eq_true_eq] at fromStart
    rw [split] at placed sorted
    rcases List.mem_append.1 placed with passed | placed
    · have passed := beforeStart deadline passed
      simp only [Bool.not_eq_true', decide_eq_false_iff_not, UInt64.not_le] at passed
      exact lead_le (.inr ⟨fromStart, passed⟩)
    · rcases List.mem_cons.1 placed with rfl | placed
      · exact UInt64.le_refl _
      · have before := (List.pairwise_cons.1 (List.pairwise_append.1 sorted).2.1).1 deadline placed
        exact lead_le (.inl ⟨before.time_le, .inl fromStart⟩)
  · have beforeStart := List.find?_eq_none.1 notFound deadline placed
    simp only [decide_eq_true_eq, UInt64.not_le] at beforeStart
    obtain ⟨rest, split⟩ := List.head?_eq_some_iff.1 found
    rw [split] at placed sorted
    rcases List.mem_cons.1 placed with rfl | placed
    · exact UInt64.le_refl _
    · have before := (List.pairwise_cons.1 sorted).1 deadline placed
      exact lead_le (.inl ⟨before.time_le, .inr beforeStart⟩)

/-- The times that are reached lead by up to the horizon. -/
theorem hasReached_iff_lead :
    agenda.hasReached time = true ↔ 0 < agenda.lead time ∧ agenda.lead time ≤ Clock.horizon := by
  simp only [Clock.hasReached, lead, searchStart, Clock.horizon]
  grind

/-- The times that lie near lead by the horizon more than their distance. -/
theorem lead_le_iff (near : agenda.distance time < Clock.horizon)
    (nearOther : agenda.distance other < Clock.horizon) :
    agenda.lead time ≤ agenda.lead other ↔ agenda.distance time ≤ agenda.distance other := by
  simp only [Clock.distance, lead, searchStart, Clock.horizon] at *
  grind

/-- If the deadline that leads by the least is not reached, then none is. -/
theorem hasReached_eq_false_of_lead_le (ahead : 0 < agenda.lead time)
    (notReached : agenda.hasReached time = false) (le : agenda.lead time ≤ agenda.lead other) :
    agenda.hasReached other = false := by
  rw [← Bool.not_eq_true, hasReached_iff_lead] at notReached ⊢
  grind

/-- The loop drops all deadlines that are reached, and only those. -/
theorem removeReached_eq (sorted : agenda.pending.Pairwise Deadline.Before)
    (ahead : ∀ deadline ∈ agenda.pending, 0 < agenda.lead deadline.time) :
    agenda.removeReached = { agenda with
      pending := agenda.pending.filter fun deadline => !agenda.hasReached deadline.time } := by
  fun_induction removeReached agenda with
  | case1 agenda none =>
      rw [earliest_eq_none_iff] at none
      obtain ⟨⟨identity, now, pending, issued⟩, next⟩ := agenda
      cases none
      rfl
  | case2 agenda first found reached placed ih =>
      have sortedRest : (agenda.remove first).pending.Pairwise Deadline.Before :=
        sorted.filter _
      rw [ih sortedRest fun deadline left => ahead deadline (List.mem_of_mem_filter left)]
      have same : (agenda.remove first).pending.filter
            (fun deadline => !(agenda.remove first).hasReached deadline.time)
          = agenda.pending.filter fun deadline => !agenda.hasReached deadline.time := by
        unfold remove Clock.drop
        rw [List.filter_filter]
        refine List.filter_congr fun deadline _ => ?_
        by_cases same : deadline = first
        · simp [same, reached]
        · simp [same, Clock.hasReached]
      rw [same]
      rfl
  | case3 agenda first found notReached =>
      rw [Bool.not_eq_true] at notReached
      have all : (agenda.pending.filter fun deadline => !agenda.hasReached deadline.time)
          = agenda.pending := by
        rw [List.filter_eq_self]
        intro deadline placed
        rw [hasReached_eq_false_of_lead_le (ahead first (mem_of_earliest found)) notReached
          (lead_le_of_earliest sorted found deadline placed), Bool.not_false]
      rw [all]

end Agenda

/-! ## The first deadline of a clock -/

namespace Clock

variable {clock : Clock} {time cycles : UInt64}

theorem nextDeadline_eq_none_iff : clock.nextDeadline = none ↔ clock.pending = [] := by
  rw [nextDeadline, Option.map_eq_none_iff, nextDistance_eq_none_iff]

theorem nextDeadline_eq_some_iff : clock.nextDeadline = some time ↔
    (∃ deadline ∈ clock.pending, deadline.time = time) ∧
      ∀ deadline ∈ clock.pending, clock.distance time ≤ clock.distance deadline.time := by
  have shown (time : UInt64) : clock.now + clock.distance time = time := by
    unfold distance
    grind
  rw [nextDeadline, Option.map_eq_some_iff]
  constructor
  · rintro ⟨least, next, rfl⟩
    obtain ⟨⟨deadline, placed, rfl⟩, first⟩ := nextDistance_eq_some_iff.1 next
    rw [shown]
    exact ⟨⟨deadline, placed, rfl⟩, first⟩
  · rintro ⟨⟨deadline, placed, rfl⟩, first⟩
    exact ⟨_, nextDistance_eq_some_iff.2 ⟨⟨deadline, placed, rfl⟩, first⟩, shown _⟩

/-- The first deadline stays the same until it is reached. -/
theorem nextDeadline_moved
    (further : ∀ deadline ∈ clock.pending, cycles < clock.distance deadline.time) :
    (clock.moved cycles).nextDeadline = clock.nextDeadline := by
  cases next : clock.nextDeadline with
  | none =>
      have empty : clock.pending = [] := nextDeadline_eq_none_iff.1 next
      exact nextDeadline_eq_none_iff.2 empty
  | some time =>
      obtain ⟨⟨deadline, placed, rfl⟩, first⟩ := nextDeadline_eq_some_iff.1 next
      refine nextDeadline_eq_some_iff.2 ⟨⟨deadline, placed, rfl⟩, fun other placedOther => ?_⟩
      have le := first other placedOther
      have ahead := further deadline placed
      rw [distance_moved, distance_moved]
      grind

/-- A step reaches some deadline if and only if it reaches the first one. -/
theorem reaches_iff_next (within : clock.Within) (short : cycles < horizon) :
    (∃ deadline ∈ clock.pending, (clock.moved cycles).hasReached deadline.time = true) ↔
      ∃ time, clock.nextDeadline = some time ∧ (clock.moved cycles).hasReached time = true := by
  constructor
  · rintro ⟨deadline, placed, reached⟩
    cases next : clock.nextDeadline with
    | none =>
        rw [nextDeadline_eq_none_iff.1 next] at placed
        cases placed
    | some time =>
        obtain ⟨⟨first, placedFirst, rfl⟩, least⟩ := nextDeadline_eq_some_iff.1 next
        refine ⟨first.time, rfl, ?_⟩
        rw [hasReached_moved_iff (within _ ‹_›) short] at reached ⊢
        exact UInt64.le_trans (least deadline placed) reached
  · rintro ⟨time, next, reached⟩
    obtain ⟨⟨first, placed, rfl⟩, -⟩ := nextDeadline_eq_some_iff.1 next
    exact ⟨first, placed, reached⟩

end Clock

/-! ## Agendas that are kept -/

namespace Agenda

variable {agenda : Agenda} {time cycles : UInt64}

/-- The agenda of a clock, with the time of the first deadline. -/
def ofClock (clock : Clock) : Agenda := { toClock := clock, next := clock.nextDeadline }

/-- The deadlines are sorted and near, the agenda remembers the time of the first of them, and the
serial numbers to come are new. -/
structure Kept (agenda : Agenda) : Prop where
  sorted : agenda.pending.Pairwise Deadline.Before
  within : agenda.Within
  remembered : agenda.next = agenda.toClock.nextDeadline
  older : ∀ deadline ∈ agenda.pending, deadline.serial < agenda.issued

theorem refreshed_eq (sorted : agenda.pending.Pairwise Deadline.Before) (within : agenda.Within) :
    agenda.refreshed = ofClock agenda.toClock := by
  have next : agenda.earliest.map (·.time) = agenda.toClock.nextDeadline := by
    cases found : agenda.earliest with
    | none => exact (Clock.nextDeadline_eq_none_iff.2 (earliest_eq_none_iff.1 found)).symm
    | some first =>
        have placed := mem_of_earliest found
        refine (Clock.nextDeadline_eq_some_iff.2 ⟨⟨first, placed, rfl⟩, ?_⟩).symm
        intro deadline placedOther
        rw [← lead_le_iff (within first placed) (within deadline placedOther)]
        exact lead_le_of_earliest sorted found deadline placedOther
  rw [refreshed, next]
  rfl

/-- A near time is not left behind the start of the search when the counter is moved on. -/
theorem lead_moved_pos {clock : Clock} (near : clock.distance time < Clock.horizon)
    (short : cycles < Clock.horizon) (next : Option UInt64) :
    0 < (Agenda.mk (clock.moved cycles) next).lead time := by
  simp only [Clock.distance, Clock.moved, lead, searchStart, Clock.horizon] at *
  grind

theorem increment_of_ahead {clock : Clock} {next : Option UInt64} (short : cycles < Clock.horizon)
    (ahead : ∀ time, next = some time → (clock.moved cycles).hasReached time = false) :
    (Agenda.mk clock next).increment cycles = .ok (false, ⟨clock.moved cycles, next⟩) := by
  rw [increment, if_pos short]
  cases next with
  | none => rfl
  | some time => exact if_neg (Bool.eq_false_iff.1 (ahead time rfl))

theorem increment_of_reached {clock : Clock} (short : cycles < Clock.horizon)
    (reached : (clock.moved cycles).hasReached time = true) :
    (Agenda.mk clock (some time)).increment cycles =
      .ok (true, (Agenda.mk (clock.moved cycles) (some time)).removeReached.refreshed) := by
  rw [increment, if_pos short]
  exact if_pos reached

/-- A step does what a clock does that looks through its deadlines. -/
theorem Kept.increment_eq (kept : agenda.Kept) (cycles : UInt64) : agenda.increment cycles =
    (fun (reached, after) => (reached, ofClock after)) <$> agenda.toClock.increment cycles := by
  obtain ⟨clock, next⟩ := agenda
  obtain ⟨sorted, within, remembered, -⟩ := kept
  dsimp only at sorted within remembered ⊢
  subst remembered
  by_cases short : cycles < Clock.horizon
  · by_cases reaches : ∃ time, clock.nextDeadline = some time ∧
        (clock.moved cycles).hasReached time = true
    · have any : (clock.pending.any fun deadline =>
          (clock.moved cycles).hasReached deadline.time) = true :=
        List.any_eq_true.2 ((Clock.reaches_iff_next within short).2 reaches)
      obtain ⟨time, next, reached⟩ := reaches
      rw [next, increment_of_reached short reached, Clock.increment_of_lt short, any,
        removeReached_eq sorted fun deadline placed =>
          lead_moved_pos (within deadline placed) short _, refreshed_eq]
      · rfl
      · exact sorted.filter _
      · exact (Clock.upcoming_of_increment within (Clock.increment_of_lt short)).within
    · have quiet : ∀ deadline ∈ clock.pending,
          (clock.moved cycles).hasReached deadline.time = false := by
        intro deadline placed
        rw [← Bool.not_eq_true]
        exact fun reached =>
          reaches ((Clock.reaches_iff_next within short).1 ⟨deadline, placed, reached⟩)
      have further : ∀ deadline ∈ clock.pending, cycles < clock.distance deadline.time := by
        intro deadline placed
        rw [← UInt64.not_le, ← Clock.hasReached_moved_iff (within deadline placed) short,
          quiet deadline placed]
        exact Bool.false_ne_true
      rw [Clock.increment_of_quiet short quiet, increment_of_ahead short,
        ← Clock.nextDeadline_moved further]
      · rfl
      · exact fun time next => Bool.eq_false_iff.2 fun reached => reaches ⟨time, next, reached⟩
  · simp [increment, Clock.increment, short]

/-- A deadline is placed as on a clock, but where it belongs among the sorted ones. -/
theorem Kept.scheduleAt_eq (kept : agenda.Kept) (time : UInt64) : agenda.scheduleAt time =
    (fun (deadline, after) =>
        (deadline, ofClock { after with pending := deadline.sortInto agenda.pending })) <$>
      agenda.toClock.scheduleAt time := by
  unfold scheduleAt Clock.scheduleAt
  split
  next near =>
    dsimp only
    rw [refreshed_eq]
    · rfl
    · exact Deadline.sorted_sortInto kept.sorted
    · intro deadline placed
      rcases Deadline.mem_sortInto.1 placed with rfl | placed
      · exact near
      · exact kept.within deadline placed
  next => rfl

/-- A deadline is cancelled as on a clock. -/
theorem Kept.cancel_eq (kept : agenda.Kept) (deadline : Deadline) :
    agenda.cancel deadline = ofClock <$> agenda.toClock.cancel deadline := by
  unfold cancel Clock.cancel
  split
  next =>
    rw [refreshed_eq]
    · rfl
    · exact kept.sorted.filter _
    · exact fun other placed => kept.within other (List.mem_of_mem_filter placed)
  next => rfl

theorem Kept.eq_ofClock (kept : agenda.Kept) : agenda = ofClock agenda.toClock := by
  rw [ofClock, ← kept.remembered]

/-- A cancelled deadline that is not pending leaves everything as it is. -/
theorem Kept.cancel_absent {deadline : Deadline} (kept : agenda.Kept)
    (own : deadline.clock = agenda.identity) (absent : deadline ∉ agenda.pending) :
    agenda.cancel deadline = .ok agenda := by
  have same : agenda.toClock.drop deadline = agenda.toClock := by
    have all : agenda.pending.filter (· ≠ deadline) = agenda.pending := by
      rw [List.filter_eq_self]
      intro other placed
      have different : other ≠ deadline := fun same => absent (same ▸ placed)
      exact decide_eq_true different
    rw [Clock.drop, all]
  rw [kept.cancel_eq, Clock.cancel, if_pos own, same]
  exact congrArg Except.ok kept.eq_ofClock.symm

end Agenda

end SocPeripherals
