import SocPeripherals.Proofs.Clock.Time
import Mathlib.Algebra.Order.Group.Multiset
import Mathlib.Data.Multiset.UnionInter

/-!
# Serving the deadlines of a device

What a device does on its clock is seen from the deadlines that it holds. `Follows` says what
the rest of the clock's users may rely on: the counter stands still and the pending deadlines
are old ones or fresh ones. `Serves` adds the device's own account: it holds what it held or what
it has placed, and it takes nothing from the others.
-/

namespace SocPeripherals

namespace Deadline

/-- The deadlines that a holder of at most one has. -/
def single : Option Deadline → Multiset Deadline
  | none => 0
  | some deadline => {deadline}

@[simp]
theorem single_none : single none = 0 := rfl

@[simp]
theorem single_some (deadline : Deadline) : single (some deadline) = {deadline} := rfl

theorem mem_single {deadline : Deadline} {holder : Option Deadline} :
    deadline ∈ single holder ↔ deadline ∈ holder := by
  cases holder with
  | none => simp
  | some other => simp [eq_comm]

end Deadline

namespace Clock

variable {clock middle after : Clock} {deadline : Deadline} {time : UInt64}
  {least : UInt64} {held between kept : Multiset Deadline}

/-- The deadline was issued between two states of a clock, at least `least` cycles ahead and
less than the horizon. -/
structure Fresh (least : UInt64) (clock after : Clock) (deadline : Deadline) : Prop where
  from_issued : clock.issued ≤ deadline.serial
  below_issued : deadline.serial < after.issued
  least_le : least ≤ clock.distance deadline.time
  near : clock.distance deadline.time < horizon

/-- The clock was used at one cycle: deadlines were dropped, and placed at least `least` cycles
ahead. -/
structure Follows (least : UInt64) (clock after : Clock) : Prop where
  now : after.now = clock.now
  issued : clock.issued ≤ after.issued
  placed : ∀ deadline ∈ after.pending,
    deadline ∈ clock.pending ∨ Fresh least clock after deadline

/-- The clock waits for the deadline. -/
structure Awaits (clock : Clock) (deadline : Deadline) : Prop where
  pending : deadline ∈ clock.pending
  ahead : clock.hasReached deadline.time = false

instance (clock : Clock) (deadline : Deadline) : Decidable (clock.Awaits deadline) :=
  decidable_of_iff (deadline ∈ clock.pending ∧ clock.hasReached deadline.time = false)
    ⟨fun ⟨pending, ahead⟩ => ⟨pending, ahead⟩, fun ⟨pending, ahead⟩ => ⟨pending, ahead⟩⟩

/-- The held deadlines are different ones that the clock has issued. -/
structure Distinct (clock : Clock) (held : Multiset Deadline) : Prop where
  nodup : held.Nodup
  issued : ∀ deadline ∈ held, deadline.serial < clock.issued

/-- The held deadlines that have not been reached are pending. -/
def Keeps (clock : Clock) (held : Multiset Deadline) : Prop :=
  ∀ deadline ∈ held, clock.hasReached deadline.time = false → deadline ∈ clock.pending

/-- The pending deadlines that have not been reached are held. -/
def Owes (clock : Clock) (held : Multiset Deadline) : Prop :=
  ∀ deadline ∈ clock.pending, clock.hasReached deadline.time = false → deadline ∈ held

/-- Somebody who held some deadlines used the clock and holds others now. Whatever `rest` the
others hold, the clock treats all of them as it did. -/
structure Serves (least : UInt64) (held kept : Multiset Deadline) (clock after : Clock) :
    Prop where
  follows : Follows least clock after
  holds : ∀ deadline ∈ kept, deadline ∈ held ∨ Fresh least clock after deadline
  distinct : ∀ rest, clock.Distinct (held + rest) → after.Distinct (kept + rest)
  keeps : ∀ rest, clock.Distinct (held + rest) → clock.Keeps (held + rest) →
    after.Keeps (kept + rest)
  owes : ∀ rest, clock.Owes (held + rest) → after.Owes (kept + rest)
  spares : ∀ deadline ∈ clock.pending, deadline.serial < clock.issued → deadline ∉ held →
    deadline ∈ after.pending

theorem hasReached_congr (same : after.now = clock.now) (time : UInt64) :
    after.hasReached time = clock.hasReached time := by
  simp [hasReached, same]

theorem distance_congr (same : after.now = clock.now) (time : UInt64) :
    after.distance time = clock.distance time := by
  simp [distance, same]

theorem Fresh.later (follows : Follows least clock middle)
    (fresh : Fresh least middle after deadline) : Fresh least clock after deadline where
  from_issued := follows.issued.trans fresh.from_issued
  below_issued := fresh.below_issued
  least_le := by rw [← distance_congr follows.now]; exact fresh.least_le
  near := by rw [← distance_congr follows.now]; exact fresh.near

theorem Fresh.earlier (follows : Follows least middle after)
    (fresh : Fresh least clock middle deadline) : Fresh least clock after deadline :=
  { fresh with below_issued := fresh.below_issued.trans_le follows.issued }

theorem Fresh.weaken {less : UInt64} (le : less ≤ least)
    (fresh : Fresh least clock after deadline) : Fresh less clock after deadline :=
  { fresh with least_le := UInt64.le_trans le fresh.least_le }

theorem Fresh.hasReached (positive : 0 < least) (fresh : Fresh least clock after deadline) :
    clock.hasReached deadline.time = false :=
  (hasReached_eq_false_iff fresh.near).2 (UInt64.lt_of_lt_of_le positive fresh.least_le)

theorem Follows.refl (least : UInt64) (clock : Clock) : Follows least clock clock :=
  ⟨rfl, le_rfl, fun _ placed => .inl placed⟩

theorem Follows.trans (first : Follows least clock middle) (second : Follows least middle after) :
    Follows least clock after where
  now := second.now.trans first.now
  issued := first.issued.trans second.issued
  placed deadline placed := by
    rcases second.placed deadline placed with placedBefore | fresh
    · rcases first.placed deadline placedBefore with old | fresh
      · exact .inl old
      · exact .inr (fresh.earlier second)
    · exact .inr (fresh.later first)

theorem Follows.weaken {less : UInt64} (le : less ≤ least) (follows : Follows least clock after) :
    Follows less clock after :=
  { follows with
    placed := fun deadline placed => (follows.placed deadline placed).imp_right (.weaken le) }

theorem Follows.within (follows : Follows least clock after) (within : clock.Within) :
    after.Within := by
  intro deadline placed
  rw [distance_congr follows.now]
  rcases follows.placed deadline placed with old | fresh
  · exact within deadline old
  · exact fresh.near

theorem Follows.upcoming (positive : 0 < least) (follows : Follows least clock after)
    (upcoming : clock.Upcoming) : after.Upcoming := by
  intro deadline placed
  rw [distance_congr follows.now]
  rcases follows.placed deadline placed with old | fresh
  · exact upcoming deadline old
  · exact ⟨UInt64.lt_of_lt_of_le positive fresh.least_le, fresh.near⟩

/-- A deadline from before is not placed anew. -/
theorem Follows.mem_pending (follows : Follows least clock after)
    (old : deadline.serial < clock.issued) (placed : deadline ∈ after.pending) :
    deadline ∈ clock.pending := by
  rcases follows.placed deadline placed with placedBefore | fresh
  · exact placedBefore
  · exact absurd old (Nat.not_lt.2 fresh.from_issued)

/-- A deadline from before that is awaited was awaited before. -/
theorem Follows.awaits (follows : Follows least clock after)
    (old : deadline.serial < clock.issued) (awaits : after.Awaits deadline) :
    clock.Awaits deadline :=
  ⟨follows.mem_pending old awaits.pending, hasReached_congr follows.now _ ▸ awaits.ahead⟩

/-- What one of several holds are different deadlines as well. -/
theorem Distinct.ofLe {mine : Multiset Deadline} (distinct : clock.Distinct held)
    (le : mine ≤ held) : clock.Distinct mine :=
  ⟨Multiset.nodup_of_le le distinct.nodup, fun deadline known =>
    distinct.issued deadline (Multiset.mem_of_le le known)⟩

namespace Serves

theorem refl (least : UInt64) (held : Multiset Deadline) (clock : Clock) :
    Serves least held held clock clock where
  follows := .refl least clock
  holds _ known := .inl known
  distinct _ distinct := distinct
  keeps _ _ keeps := keeps
  owes _ owes := owes
  spares _ placed _ _ := placed

theorem trans (first : Serves least held between clock middle)
    (second : Serves least between kept middle after) : Serves least held kept clock after where
  follows := first.follows.trans second.follows
  holds deadline known := by
    rcases second.holds deadline known with known | fresh
    · exact (first.holds deadline known).imp_right (.earlier second.follows)
    · exact .inr (fresh.later first.follows)
  distinct rest distinct := second.distinct rest (first.distinct rest distinct)
  keeps rest distinct keeps :=
    second.keeps rest (first.distinct rest distinct) (first.keeps rest distinct keeps)
  owes rest owes := second.owes rest (first.owes rest owes)
  spares deadline placed old unheld := by
    have later := old.trans_le first.follows.issued
    refine second.spares deadline (first.spares deadline placed old unheld) later fun known => ?_
    rcases first.holds deadline known with known | fresh
    · exact unheld known
    · exact absurd old (Nat.not_lt.2 fresh.from_issued)

theorem weaken {less : UInt64} (le : less ≤ least) (serves : Serves least held kept clock after) :
    Serves less held kept clock after :=
  { serves with
    follows := serves.follows.weaken le
    holds := fun deadline known => (serves.holds deadline known).imp_right (.weaken le) }

/-- What somebody else holds stays in his hands. -/
theorem frame (serves : Serves least held kept clock after) (rest : Multiset Deadline) :
    Serves least (held + rest) (kept + rest) clock after where
  follows := serves.follows
  holds deadline known := by
    rcases Multiset.mem_add.1 known with known | known
    · exact (serves.holds deadline known).imp_left fun old => Multiset.mem_add.2 (.inl old)
    · exact .inl (Multiset.mem_add.2 (.inr known))
  distinct others := by
    rw [add_assoc, add_assoc]
    exact serves.distinct (rest + others)
  keeps others := by
    rw [add_assoc, add_assoc]
    exact serves.keeps (rest + others)
  owes others := by
    rw [add_assoc, add_assoc]
    exact serves.owes (rest + others)
  spares deadline placed old unheld :=
    serves.spares deadline placed old fun known => unheld (Multiset.mem_add.2 (.inl known))

theorem frame_left (serves : Serves least held kept clock after) (rest : Multiset Deadline) :
    Serves least (rest + held) (rest + kept) clock after := by
  rw [add_comm rest held, add_comm rest kept]
  exact serves.frame rest

theorem drop (least : UInt64) (clock : Clock) (deadline : Deadline) :
    Serves least {deadline} 0 clock (clock.drop deadline) where
  follows := ⟨rfl, le_rfl, fun other placed => .inl (mem_pending_drop.1 placed).1⟩
  holds other known := absurd known (Multiset.notMem_zero other)
  distinct rest distinct := by
    rw [zero_add]
    refine ⟨(Multiset.nodup_add.1 distinct.nodup).2.1, ?_⟩
    intro other known
    exact distinct.issued other (Multiset.mem_add.2 (.inr known))
  keeps rest distinct keeps := by
    have apart : deadline ∉ rest := by
      have nodup := distinct.nodup
      rw [Multiset.singleton_add, Multiset.nodup_cons] at nodup
      exact nodup.1
    rw [zero_add]
    intro other known ahead
    have placed := keeps other (Multiset.mem_add.2 (.inr known)) ahead
    exact mem_pending_drop.2 ⟨placed, fun same => apart (same ▸ known)⟩
  owes rest owes := by
    rw [zero_add]
    intro other placed ahead
    obtain ⟨placedBefore, different⟩ := mem_pending_drop.1 placed
    rcases Multiset.mem_add.1 (owes other placedBefore ahead) with known | known
    · exact absurd (Multiset.mem_singleton.1 known) different
    · exact known
  spares other placed _ unheld :=
    mem_pending_drop.2 ⟨placed, fun same => unheld (Multiset.mem_singleton.2 same)⟩

theorem dropAny (least : UInt64) (clock : Clock) (deadline : Option Deadline) :
    Serves least (Deadline.single deadline) 0 clock (clock.dropAny deadline) := by
  cases deadline with
  | none => exact refl least 0 clock
  | some deadline => exact drop least clock deadline

theorem scheduleAt (done : clock.scheduleAt time = .ok (deadline, after))
    (far : least ≤ clock.distance time) : Serves least 0 {deadline} clock after := by
  unfold Clock.scheduleAt at done
  split at done
  next near =>
    cases done
    have fresh : Fresh least clock
        { clock with
          pending := ⟨clock.identity, time, clock.issued⟩ :: clock.pending
          issued := clock.issued + 1 }
        ⟨clock.identity, time, clock.issued⟩ :=
      ⟨le_rfl, Nat.lt_succ_self _, far, near⟩
    refine ⟨⟨rfl, Nat.le_succ _, ?_⟩, ?_, ?_, ?_, ?_, fun _ placed _ _ =>
      List.mem_cons_of_mem _ placed⟩
    · intro other placed
      rcases List.mem_cons.1 placed with rfl | placed
      · exact .inr fresh
      · exact .inl placed
    · intro other known
      rw [Multiset.mem_singleton.1 known]
      exact .inr fresh
    · intro rest distinct
      rw [zero_add] at distinct
      constructor
      · rw [Multiset.singleton_add, Multiset.nodup_cons]
        exact ⟨fun known => Nat.lt_irrefl _ (distinct.issued _ known), distinct.nodup⟩
      · intro other known
        rcases Multiset.mem_add.1 known with known | known
        · rw [Multiset.mem_singleton.1 known]
          exact Nat.lt_succ_self _
        · exact (distinct.issued other known).trans (Nat.lt_succ_self _)
    · intro rest _ keeps other known ahead
      rw [zero_add] at keeps
      rcases Multiset.mem_add.1 known with known | known
      · rw [Multiset.mem_singleton.1 known]
        exact List.mem_cons_self
      · exact List.mem_cons_of_mem _ (keeps other known ahead)
    · intro rest owes other placed ahead
      rw [zero_add] at owes
      rcases List.mem_cons.1 placed with rfl | placed
      · exact Multiset.mem_add.2 (.inl (Multiset.mem_singleton_self _))
      · exact Multiset.mem_add.2 (.inr (owes other placed ahead))
  next => contradiction

theorem scheduleIn {cycles : UInt64} (done : clock.scheduleIn cycles = .ok (deadline, after))
    (far : least ≤ cycles) : Serves least 0 {deadline} clock after := by
  refine scheduleAt done ?_
  rw [distance_add]
  exact far

/-- A deadline that has been reached may be let go. -/
theorem release (least : UInt64) (reached : clock.hasReached deadline.time = true) :
    Serves least {deadline} 0 clock clock where
  follows := .refl least clock
  holds other known := absurd known (Multiset.notMem_zero other)
  distinct rest distinct := by
    rw [zero_add]
    refine ⟨(Multiset.nodup_add.1 distinct.nodup).2.1, ?_⟩
    intro other known
    exact distinct.issued other (Multiset.mem_add.2 (.inr known))
  keeps rest _ keeps := by
    rw [zero_add]
    intro other known
    exact keeps other (Multiset.mem_add.2 (.inr known))
  owes rest owes := by
    rw [zero_add]
    intro other placed ahead
    rcases Multiset.mem_add.1 (owes other placed ahead) with known | known
    · rw [Multiset.mem_singleton.1 known, reached] at ahead
      exact absurd ahead (by decide)
    · exact known
  spares _ placed _ _ := placed

theorem issued (serves : Serves least held kept clock after)
    (old : ∀ deadline ∈ held, deadline.serial < clock.issued) :
    ∀ deadline ∈ kept, deadline.serial < after.issued := by
  intro deadline known
  rcases serves.holds deadline known with known | fresh
  · exact (old deadline known).trans_le serves.follows.issued
  · exact fresh.below_issued

/-- If nothing that was held has been reached, nothing that is held has. -/
theorem hasReached (positive : 0 < least) (serves : Serves least held kept clock after)
    (ahead : ∀ deadline ∈ held, clock.hasReached deadline.time = false) :
    ∀ deadline ∈ kept, after.hasReached deadline.time = false := by
  intro deadline known
  rw [hasReached_congr serves.follows.now]
  rcases serves.holds deadline known with old | fresh
  · exact ahead deadline old
  · exact fresh.hasReached positive

/-- Somebody else's use of the clock leaves to it what is kept there. -/
theorem keepsOthers {mine : Multiset Deadline} (serves : Serves least held kept clock after)
    (distinct : clock.Distinct (mine + held)) (keeps : clock.Keeps mine) : after.Keeps mine := by
  intro deadline known ahead
  rw [hasReached_congr serves.follows.now] at ahead
  have apart := Multiset.disjoint_left.1 (Multiset.nodup_add.1 distinct.nodup).2.2 known
  have old := distinct.issued deadline (Multiset.mem_add.2 (.inl known))
  exact serves.spares deadline (keeps deadline known ahead) old apart

/-- What holds whatever the others hold, held alone. -/
theorem alone (serves : Serves least held kept clock after) (distinct : clock.Distinct held)
    (keeps : clock.Keeps held) : after.Distinct kept ∧ after.Keeps kept := by
  have distinctAlone := serves.distinct 0
  have keepsAlone := serves.keeps 0
  rw [add_zero, add_zero] at distinctAlone keepsAlone
  exact ⟨distinctAlone distinct, keepsAlone distinct keeps⟩

end Serves

/-- Somebody used the clock who may have left to it, in passing, some of the deadlines that he
held. -/
def Uses (least : UInt64) (held kept : Multiset Deadline) (clock after : Clock) : Prop :=
  ∃ mine ≤ held, Serves least mine kept clock after

theorem Serves.uses (serves : Serves least held kept clock after) :
    Uses least held kept clock after :=
  ⟨held, le_rfl, serves⟩

namespace Uses

theorem follows (uses : Uses least held kept clock after) : Follows least clock after := by
  obtain ⟨_, _, serves⟩ := uses
  exact serves.follows

theorem weaken {less : UInt64} (le : less ≤ least) (uses : Uses least held kept clock after) :
    Uses less held kept clock after := by
  obtain ⟨mine, part, serves⟩ := uses
  exact ⟨mine, part, serves.weaken le⟩

/-- What somebody else holds stays in his hands. -/
theorem frame (uses : Uses least held kept clock after) (rest : Multiset Deadline) :
    Uses least (held + rest) (kept + rest) clock after := by
  obtain ⟨mine, part, serves⟩ := uses
  exact ⟨mine + rest, Multiset.add_le_add_right part, serves.frame rest⟩

theorem frame_left (uses : Uses least held kept clock after) (rest : Multiset Deadline) :
    Uses least (rest + held) (rest + kept) clock after := by
  rw [add_comm rest held, add_comm rest kept]
  exact uses.frame rest

/-- What is held then are different deadlines again. -/
theorem distinct (uses : Uses least held kept clock after) (distinct : clock.Distinct held) :
    after.Distinct kept := by
  obtain ⟨mine, part, serves⟩ := uses
  have alone := serves.distinct 0
  rw [add_zero, add_zero] at alone
  exact alone (distinct.ofLe part)

/-- Somebody else's use of the clock leaves to it what is kept there. -/
theorem keepsOthers {mine : Multiset Deadline} (uses : Uses least held kept clock after)
    (distinct : clock.Distinct (mine + held)) (keeps : clock.Keeps mine) : after.Keeps mine := by
  obtain ⟨used, part, serves⟩ := uses
  exact serves.keepsOthers (distinct.ofLe (Multiset.add_le_add_left part)) keeps

end Uses

/-- Others used the clock at one cycle, and left the deadlines that somebody holds to it. -/
structure Leaves (held : Multiset Deadline) (clock after : Clock) : Prop where
  now : after.now = clock.now
  issued : clock.issued ≤ after.issued
  pending : ∀ deadline ∈ held, deadline ∈ clock.pending → deadline ∈ after.pending

theorem Leaves.distinct (leaves : Leaves held clock after) (distinct : clock.Distinct held) :
    after.Distinct held :=
  ⟨distinct.nodup, fun deadline known => (distinct.issued deadline known).trans_le leaves.issued⟩

theorem Leaves.keeps (leaves : Leaves held clock after) (keeps : clock.Keeps held) :
    after.Keeps held := by
  intro deadline known ahead
  rw [hasReached_congr leaves.now] at ahead
  exact leaves.pending deadline known (keeps deadline known ahead)

end Clock

end SocPeripherals
