import SocPeripherals.Proofs.Lockstep.Displaced
import SocPeripherals.Proofs.Lockstep.Twins

/-!
# Clocks that have given out other numbers

Two users of a clock who take their turns at one cycle leave it waiting for the same moments,
whoever comes first. Only the serial numbers of what they have placed depend on the order. Clocks
that differ in their numbers alone march in lockstep. To compare the orders, the turn of the one
user is first seen on two clocks, with and without the turn of the other before it.
-/

namespace SocPeripherals

/-- The deadline under the number that it has on another clock. -/
def Deadline.renumbered (deadline : Deadline) (number : Nat → Nat) : Deadline :=
  { deadline with serial := number deadline.serial }

theorem Deadline.renumbered_inj {deadline other : Deadline} {number : Nat → Nat}
    (injective : number.Injective) :
    deadline.renumbered number = other.renumbered number ↔ deadline = other := by
  cases deadline
  cases other
  simp [renumbered, injective.eq_iff]

theorem Deadline.renumbered_congr {deadline : Deadline} {number other : Nat → Nat}
    (same : number deadline.serial = other deadline.serial) :
    deadline.renumbered number = deadline.renumbered other :=
  congrArg (Deadline.mk deadline.clock deadline.time) same

theorem Deadline.renumbered_eq_self {deadline : Deadline} {number : Nat → Nat}
    (same : number deadline.serial = deadline.serial) : deadline.renumbered number = deadline :=
  congrArg (Deadline.mk deadline.clock deadline.time) same

theorem Deadline.renumbered_renumbered (deadline : Deadline) (number other : Nat → Nat) :
    (deadline.renumbered number).renumbered other
      = deadline.renumbered fun serial => other (number serial) := rfl

namespace Clock

/-- How what waits on a clock is numbered on another one, where some of it is missing and
something else waits besides. -/
structure Renumbering where
  number : Nat → Nat
  /-- Both clocks have given out the numbers below this one. -/
  bound : Nat
  /-- How many more numbers the other clock has given out. -/
  ahead : Nat
  /-- What is missing on the other clock. -/
  lost : Deadline → Prop := fun _ => False
  /-- What waits on the other clock alone. -/
  gained : Deadline → Prop := fun _ => False
  injective : number.Injective
  later {serial : Nat} : bound ≤ serial → number serial = serial + ahead
  lost_lt {deadline : Deadline} : lost deadline → deadline.serial < bound
  gained_ne {deadline : Deadline} : gained deadline → ∀ serial, number serial ≠ deadline.serial

namespace Renumbering

variable {renumbering : Renumbering} {clock other : Clock} {deadline : Deadline}

/-- The clocks show the same cycle, and what waits on the one waits on the other as the renumbering
says. -/
structure Relates (renumbering : Renumbering) (clock other : Clock) : Prop where
  identity_eq : other.identity = clock.identity
  now_eq : other.now = clock.now
  bound_le : renumbering.bound ≤ clock.issued
  issued_eq : other.issued = clock.issued + renumbering.ahead
  pending {deadline : Deadline} : deadline ∈ other.pending ↔ renumbering.gained deadline ∨
    ∃ origin ∈ clock.pending, ¬renumbering.lost origin ∧
      origin.renumbered renumbering.number = deadline

/-- As much is taken off both clocks. -/
theorem Relates.filter (relates : renumbering.Relates clock other)
    {left leftOther : Deadline → Bool}
    (same : ∀ deadline, leftOther (deadline.renumbered renumbering.number) = left deadline)
    (spares : ∀ deadline, renumbering.gained deadline → leftOther deadline = true) :
    renumbering.Relates { clock with pending := clock.pending.filter left }
      { other with pending := other.pending.filter leftOther } :=
  { relates with
    pending := by
      intro deadline
      rw [List.mem_filter, relates.pending]
      constructor
      · rintro ⟨gained | ⟨origin, placed, kept, rfl⟩, leaves⟩
        · exact .inl gained
        · rw [same] at leaves
          exact .inr ⟨origin, List.mem_filter.2 ⟨placed, leaves⟩, kept, rfl⟩
      · rintro (gained | ⟨origin, placed, kept, rfl⟩)
        · exact ⟨.inl gained, spares _ gained⟩
        · obtain ⟨placed, leaves⟩ := List.mem_filter.1 placed
          exact ⟨.inr ⟨origin, placed, kept, rfl⟩, (same origin).trans leaves⟩ }

theorem Relates.drop (relates : renumbering.Relates clock other) (deadline : Deadline) :
    renumbering.Relates (clock.drop deadline)
      (other.drop (deadline.renumbered renumbering.number)) := by
  refine relates.filter (fun origin => ?_) fun gained new => ?_
  · simp [Deadline.renumbered_inj renumbering.injective]
  · have apart := renumbering.gained_ne new deadline.serial
    exact decide_eq_true fun same => apart (congrArg Deadline.serial same).symm

/-- The next number goes to the same deadline on both clocks. -/
theorem Relates.next_eq (relates : renumbering.Relates clock other) (time : UInt64) :
    (⟨other.identity, time, other.issued⟩ : Deadline)
      = Deadline.renumbered ⟨clock.identity, time, clock.issued⟩ renumbering.number := by
  rw [relates.identity_eq, relates.issued_eq, ← renumbering.later relates.bound_le]
  rfl

theorem Relates.place (relates : renumbering.Relates clock other) (time : UInt64) :
    renumbering.Relates
      { clock with
        pending := ⟨clock.identity, time, clock.issued⟩ :: clock.pending
        issued := clock.issued + 1 }
      { other with
        pending := ⟨other.identity, time, other.issued⟩ :: other.pending
        issued := other.issued + 1 } where
  identity_eq := relates.identity_eq
  now_eq := relates.now_eq
  bound_le := relates.bound_le.trans (Nat.le_succ _)
  issued_eq := by
    dsimp only
    rw [relates.issued_eq]
    omega
  pending := by
    intro deadline
    rw [List.mem_cons, relates.pending, relates.next_eq]
    constructor
    · rintro (rfl | gained | ⟨origin, placed, kept, rfl⟩)
      · refine .inr ⟨_, List.mem_cons_self, fun lost => ?_, rfl⟩
        exact absurd (renumbering.lost_lt lost) (Nat.not_lt.2 relates.bound_le)
      · exact .inl gained
      · exact .inr ⟨origin, List.mem_cons_of_mem _ placed, kept, rfl⟩
    · rintro (gained | ⟨origin, placed, kept, rfl⟩)
      · exact .inr (.inl gained)
      · rcases List.mem_cons.1 placed with rfl | placed
        · exact .inl rfl
        · exact .inr (.inr ⟨origin, placed, kept, rfl⟩)

end Renumbering

/-- Every deadline is paired with the same one under its other number. -/
def Lockstep.renumbered (renumbering : Renumbering) : Lockstep where
  shift := 0
  clocks := renumbering.Relates
  deadlines deadline paired := paired = deadline.renumbered renumbering.number
  now_eq relates := by rw [relates.now_eq, UInt64.add_zero]
  time_eq := by
    rintro deadline _ rfl
    rw [UInt64.add_zero]
    rfl
  drop := by
    rintro clock other deadline _ relates rfl
    exact relates.drop deadline
  place := by
    intro clock other after later deadline paired time relates placed placedOther
    rw [UInt64.add_zero] at placedOther
    unfold Clock.scheduleAt at placed placedOther
    split at placed
    next =>
      split at placedOther
      next =>
        cases placed
        cases placedOther
        exact ⟨relates.next_eq time, relates.place time⟩
      next => contradiction
    next => contradiction

/-- Clocks that differ in their numbers alone march in lockstep. -/
theorem Lockstep.renumbered_marches {renumbering : Renumbering}
    (keeps : ∀ deadline, ¬renumbering.lost deadline)
    (adds : ∀ deadline, ¬renumbering.gained deadline) :
    (Lockstep.renumbered renumbering).Marches := by
  have waits {clock other : Clock} (relates : renumbering.Relates clock other) :
      Waits (.renumbered renumbering) clock other := by
    refine ⟨relates, fun deadline placed => ?_, fun paired placed => ?_⟩
    · exact ⟨_, relates.pending.2 (.inr ⟨deadline, placed, keeps deadline, rfl⟩), rfl⟩
    · rcases relates.pending.1 placed with gained | ⟨deadline, placed, _, same⟩
      · exact absurd gained (adds paired)
      · exact ⟨deadline, placed, same.symm⟩
  refine ⟨fun {clock other} relates cycles => ?_, fun relates => (waits relates).nextDistance_eq⟩
  by_cases short : cycles < horizon
  · have moved : renumbering.Relates (clock.moved cycles) (other.moved cycles) :=
      { relates with now_eq := congrArg (· + cycles) relates.now_eq }
    rw [increment_of_lt short, increment_of_lt short]
    refine .value [] ⟨((waits relates).any_hasReached_eq moved).symm, ?_⟩
    refine moved.filter (fun deadline => ?_) fun deadline gained => absurd gained (adds deadline)
    rw [hasReached_congr moved.now_eq]
    rfl
  · rw [increment, if_neg short, increment, if_neg short]
    exact .fault _ []

/-- The same lockstep, seen from the other clock. -/
def Lockstep.flip (lockstep : Lockstep) : Lockstep where
  shift := -lockstep.shift
  clocks clock other := lockstep.clocks other clock
  deadlines deadline paired := lockstep.deadlines paired deadline
  now_eq clocks := by
    rw [lockstep.now_eq clocks]
    grind
  time_eq deadlines := by
    rw [lockstep.time_eq deadlines]
    grind
  drop clocks deadlines := lockstep.drop clocks deadlines
  place {clock other after later deadline paired time} clocks placed placedOther := by
    have time : time = time + -lockstep.shift + lockstep.shift := by grind
    rw [time] at placed
    exact lockstep.place clocks placedOther placed

/-! ## Two users in either order -/

namespace Renumbering

variable {clock first second forth back : Clock} {deadline : Deadline}

/-- From a clock to the same clock after somebody has taken his turn on it. What he has dropped is
missing there, and what he has placed comes before all that is placed from now on. -/
def aside (clock after : Clock) : Renumbering where
  number serial :=
    if serial < clock.issued then serial else serial + (after.issued - clock.issued)
  bound := clock.issued
  ahead := after.issued - clock.issued
  lost deadline := deadline.serial < clock.issued ∧ deadline ∉ after.pending
  gained deadline := clock.issued ≤ deadline.serial ∧ deadline.serial < after.issued ∧
    deadline ∈ after.pending
  injective := by grind [Function.Injective]
  later := by grind
  lost_lt lost := lost.1
  gained_ne := by grind

/-- From a clock on which two have taken their turns to the same clock after the same turns in the
other order, told from what the clocks were before and after each turn alone. -/
def crossed (clock first second : Clock) : Renumbering where
  number serial :=
    if serial < clock.issued then serial
    else if serial < first.issued then serial + (second.issued - clock.issued)
    else if serial < first.issued + (second.issued - clock.issued) then
      serial - (first.issued - clock.issued)
    else serial
  bound := first.issued + (second.issued - clock.issued)
  ahead := 0
  injective := by grind [Function.Injective]
  later := by grind
  lost_lt := False.elim
  gained_ne := False.elim

theorem aside_number_of_lt (old : deadline.serial < clock.issued) (after : Clock) :
    (aside clock after).number deadline.serial = deadline.serial :=
  if_pos old

/-- A turn is seen from the clock as it was before it. -/
theorem aside_relates {least : UInt64} {after : Clock} (own : clock.IsOwn)
    (follows : Follows least clock after) (identity_eq : after.identity = clock.identity) :
    (aside clock after).Relates clock after where
  identity_eq := identity_eq
  now_eq := follows.now
  bound_le := le_rfl
  issued_eq := by
    have later := follows.issued
    change after.issued = clock.issued + (after.issued - clock.issued)
    omega
  pending := by
    intro deadline
    constructor
    · intro placed
      rcases follows.placed deadline placed with old | fresh
      · have before := own.distinct.issued deadline old
        refine .inr ⟨deadline, old, fun lost => lost.2 placed, ?_⟩
        exact Deadline.renumbered_eq_self (aside_number_of_lt before after)
      · exact .inl ⟨fresh.from_issued, fresh.below_issued, placed⟩
    · rintro (gained | ⟨origin, old, kept, rfl⟩)
      · exact gained.2.2
      · have before := own.distinct.issued origin old
        rw [Deadline.renumbered_eq_self (aside_number_of_lt before after)]
        exact Decidable.byContradiction fun missing => kept ⟨before, missing⟩

/-- What the first has kept or placed is numbered as if he had come second. -/
theorem crossed_number_of_lt {serial : Nat} (below : serial < first.issued) :
    (crossed clock first second).number serial = (aside clock second).number serial := by
  simp only [crossed, aside]
  grind

/-- What the second has kept or placed is numbered as if he had come first. -/
theorem crossed_aside {serial : Nat} (later : clock.issued ≤ first.issued)
    (below : serial < second.issued) :
    (crossed clock first second).number ((aside clock first).number serial) = serial := by
  simp only [crossed, aside]
  grind

theorem crossed_crossed (firstLater : clock.issued ≤ first.issued)
    (secondLater : clock.issued ≤ second.issued) (serial : Nat) :
    (crossed clock first second).number ((crossed clock second first).number serial) = serial := by
  simp only [crossed]
  grind

/-- What waits after the turns in the one order waits after them in the other. -/
theorem mem_of_crossed (clocks : (aside clock second).Relates first back)
    (clocksOther : (aside clock first).Relates second forth)
    (issued : ∀ deadline ∈ second.pending, deadline.serial < second.issued)
    (later : clock.issued ≤ first.issued) (placed : deadline ∈ forth.pending) :
    deadline.renumbered (crossed clock first second).number ∈ back.pending := by
  rcases clocksOther.pending.1 placed with ⟨recent, below, mine⟩ | ⟨origin, there, kept, rfl⟩
  · have number : (crossed clock first second).number deadline.serial
        = (aside clock second).number deadline.serial := crossed_number_of_lt below
    refine clocks.pending.2 (.inr ⟨deadline, mine, fun lost => ?_, ?_⟩)
    · exact Nat.not_lt.2 recent lost.1
    · exact Deadline.renumbered_congr number.symm
  · have number := crossed_aside later (issued origin there)
    rw [Deadline.renumbered_renumbered, Deadline.renumbered_eq_self number]
    by_cases old : origin.serial < clock.issued
    · have mine : origin ∈ first.pending :=
        Decidable.byContradiction fun missing => kept ⟨old, missing⟩
      refine clocks.pending.2 (.inr ⟨origin, mine, fun lost => lost.2 there, ?_⟩)
      exact Deadline.renumbered_eq_self (aside_number_of_lt old second)
    · exact clocks.pending.2 (.inl ⟨Nat.le_of_not_lt old, issued origin there, there⟩)

/-- Whoever takes his turn first, the clock waits for the same moments in the end. -/
theorem crossed_relates (clocks : (aside clock second).Relates first back)
    (clocksOther : (aside clock first).Relates second forth)
    (issued : ∀ deadline ∈ first.pending, deadline.serial < first.issued)
    (issuedOther : ∀ deadline ∈ second.pending, deadline.serial < second.issued)
    (same : first.identity = second.identity ∧ first.now = second.now) :
    (crossed clock first second).Relates forth back := by
  have later : clock.issued ≤ first.issued := clocks.bound_le
  have laterOther : clock.issued ≤ second.issued := clocksOther.bound_le
  have given : back.issued = first.issued + (second.issued - clock.issued) := clocks.issued_eq
  have givenOther : forth.issued = second.issued + (first.issued - clock.issued) :=
    clocksOther.issued_eq
  refine ⟨?_, ?_, ?_, ?_, fun {deadline} => ⟨fun placed => .inr ?_, ?_⟩⟩
  · rw [clocks.identity_eq, clocksOther.identity_eq, same.1]
  · rw [clocks.now_eq, clocksOther.now_eq, same.2]
  · change first.issued + (second.issued - clock.issued) ≤ forth.issued
    omega
  · change back.issued = forth.issued
    omega
  · have there := mem_of_crossed clocksOther clocks issued laterOther placed
    refine ⟨_, there, id, ?_⟩
    rw [Deadline.renumbered_renumbered]
    exact Deadline.renumbered_eq_self (crossed_crossed later laterOther _)
  · rintro (none | ⟨origin, placed, _, rfl⟩)
    · exact none.elim
    · exact mem_of_crossed clocks clocksOther issuedOther later placed

end Renumbering

/-! ## Devices in another lockstep -/

/-- What is held on the two sides is paired in another lockstep of equal shift as well. -/
structure Lockstep.Recasts (lockstep other : Lockstep) (held kept : Multiset Deadline) : Prop where
  shift : other.shift = lockstep.shift
  deadlines {deadline paired : Deadline} : deadline ∈ held → paired ∈ kept →
    lockstep.deadlines deadline paired → other.deadlines deadline paired

/-- A part of what is held on either side. -/
theorem Lockstep.Recasts.ofLe {lockstep other : Lockstep} {held kept part share : Multiset Deadline}
    (recasts : Recasts lockstep other held kept) (le : part ≤ held) (leOther : share ≤ kept) :
    Recasts lockstep other part share where
  shift := recasts.shift
  deadlines known knownOther :=
    recasts.deadlines (Multiset.mem_of_le le known) (Multiset.mem_of_le leOther knownOther)

/-- What is displaced by nothing is paired with itself. -/
theorem Lockstep.Recasts.ofDisplaced {lockstep : Lockstep} (shift : lockstep.shift = 0)
    {held : Multiset Deadline} (same : ∀ deadline ∈ held, lockstep.deadlines deadline deadline)
    (identity : Nat) : Recasts (.displaced identity identity 0) lockstep held held where
  shift := shift
  deadlines known _ := by
    rintro ⟨rfl, rfl⟩
    have unmoved (deadline : Deadline) : deadline.displaced deadline.clock 0 = deadline := by
      simp [Deadline.displaced]
    rw [unmoved]
    exact same _ known

theorem Lockstep.Recasts.single {lockstep other : Lockstep} {holder kept : Option Deadline}
    (recasts : Recasts lockstep other (Deadline.single holder) (Deadline.single kept))
    (holders : Option.Rel lockstep.deadlines holder kept) :
    Option.Rel other.deadlines holder kept := by
  cases holders with
  | none => exact .none
  | some deadlines =>
      exact .some (recasts.deadlines (Multiset.mem_singleton_self _)
        (Multiset.mem_singleton_self _) deadlines)

end Clock

variable {lockstep other : Clock.Lockstep}

theorem Timer.Alike.recast {idle : Latch → Latch → Prop} {timer twin : Timer}
    (alike : Alike lockstep idle timer twin)
    (recasts : lockstep.Recasts other timer.held twin.held) : Alike other idle timer twin := by
  cases alike with
  | stopped index source bank unused => exact .stopped index source bank unused
  | running index source bank latch start deadlines =>
      have paired := recasts.deadlines (Multiset.mem_singleton_self _)
        (Multiset.mem_singleton_self _) deadlines
      rw [← recasts.shift]
      exact .running index source bank latch start paired

theorem Uart.Alike.recast {uart twin : Uart} (alike : Alike lockstep uart twin)
    (recasts : lockstep.Recasts other uart.held twin.held) : Alike other uart twin := by
  obtain ⟨index, source, capacity, bank, received, lineLow, sending, breaking⟩ := alike
  have shifting := recasts.ofLe (Multiset.le_add_right _ _) (Multiset.le_add_right _ _)
  refine .mk index source capacity bank received lineLow ?_ ?_
  · cases sending with
    | none => exact .none
    | some paired =>
        exact .some ⟨paired.1, shifting.deadlines (Multiset.mem_singleton_self _)
          (Multiset.mem_singleton_self _) paired.2⟩
  · exact (recasts.ofLe (Multiset.le_add_left _ _) (Multiset.le_add_left _ _)).single breaking

theorem Dma.Channel.Alike.recast {channel twin : Channel} (alike : Alike lockstep channel twin)
    (recasts : lockstep.Recasts other channel.held twin.held) : Alike other channel twin := by
  obtain ⟨index, source, cyclesPerUnit, bank, transfers⟩ := alike
  refine .mk index source cyclesPerUnit bank ?_
  cases transfers with
  | none => exact .none
  | some transfers =>
      obtain ⟨unit, sourceStep, targetStep, total, moved, startedAt, timed⟩ := transfers
      rw [← recasts.shift]
      exact .some (.mk unit sourceStep targetStep total moved startedAt (recasts.single timed))

end SocPeripherals
