import SocPeripherals.Proofs.Clock.Service
import SocPeripherals.Proofs.Lockstep.Perform

/-!
# Displaced clocks

A clock can be put so many cycles ahead, with all that waits on it. Whoever uses the displaced clock
as the first one is used finds it displaced by as many cycles afterwards, so that the two march in
lockstep.
-/

namespace SocPeripherals

/-- The deadline as another clock has issued it that is so many cycles ahead. -/
def Deadline.displaced (deadline : Deadline) (identity : Nat) (shift : UInt64) : Deadline :=
  ⟨identity, deadline.time + shift, deadline.serial⟩

theorem Deadline.displaced_inj {deadline other : Deadline} {identity : Nat} {shift : UInt64}
    (issuer : deadline.clock = other.clock) :
    deadline.displaced identity shift = other.displaced identity shift ↔ deadline = other := by
  cases deadline
  cases other
  cases issuer
  simp [displaced]

namespace Clock

/-- The pending deadlines are different ones that the clock itself has issued. -/
structure IsOwn (clock : Clock) : Prop where
  own : ∀ deadline ∈ clock.pending, deadline.clock = clock.identity
  distinct : clock.Distinct clock.pending

/-- Another clock that is so many cycles ahead, with the same deadlines ahead of it. -/
def displaced (clock : Clock) (identity : Nat) (shift : UInt64) : Clock :=
  { identity
    now := clock.now + shift
    pending := clock.pending.map (·.displaced identity shift)
    issued := clock.issued }

variable {clock : Clock} {deadline : Deadline} {identity : Nat} {shift cycles : UInt64}

/-- A part of the pending deadlines is left. -/
theorem IsOwn.filter (own : clock.IsOwn) (left : Deadline → Bool) (now : UInt64) :
    IsOwn { clock with now, pending := clock.pending.filter left } where
  own _ placed := own.own _ (List.mem_of_mem_filter placed)
  distinct :=
    { nodup := Multiset.coe_nodup.2 ((Multiset.coe_nodup.1 own.distinct.nodup).filter left)
      issued := fun _ placed => own.distinct.issued _ (List.mem_of_mem_filter placed) }

/-- Serial numbers are not given out twice. -/
theorem IsOwn.place (own : clock.IsOwn) (time : UInt64) :
    IsOwn { clock with
      pending := ⟨clock.identity, time, clock.issued⟩ :: clock.pending
      issued := clock.issued + 1 } where
  own := by
    intro deadline placed
    rcases List.mem_cons.1 placed with rfl | placed
    · rfl
    · exact own.own deadline placed
  distinct := by
    constructor
    · refine Multiset.coe_nodup.2 (List.nodup_cons.2 ⟨fun placed => ?_, ?_⟩)
      · exact Nat.lt_irrefl _ (own.distinct.issued _ placed)
      · exact Multiset.coe_nodup.1 own.distinct.nodup
    · intro deadline placed
      rcases List.mem_cons.1 placed with rfl | placed
      · exact Nat.lt_succ_self _
      · exact Nat.lt_succ_of_lt (own.distinct.issued deadline placed)

theorem drop_displaced (own : clock.IsOwn) (issuer : deadline.clock = clock.identity) :
    (clock.displaced identity shift).drop (deadline.displaced identity shift)
      = (clock.drop deadline).displaced identity shift := by
  unfold drop displaced
  rw [List.filter_map]
  congr 2
  refine List.filter_congr fun other placed => ?_
  have issuers : other.clock = deadline.clock := (own.own other placed).trans issuer.symm
  simp [Deadline.displaced_inj issuers]

theorem hasReached_displaced (clock : Clock) (identity : Nat) (time shift : UInt64) :
    (clock.displaced identity shift).hasReached (time + shift) = clock.hasReached time := by
  have apart : clock.now + shift - (time + shift) = clock.now - time := by grind
  simp [hasReached, displaced, apart]

theorem distance_displaced (clock : Clock) (identity : Nat) (time shift : UInt64) :
    (clock.displaced identity shift).distance (time + shift) = clock.distance time := by
  simp only [distance, displaced]
  grind

theorem nextDistance_displaced (clock : Clock) (identity : Nat) (shift : UInt64) :
    (clock.displaced identity shift).nextDistance = clock.nextDistance := by
  have distances : (clock.displaced identity shift).pending.map
      (fun deadline => (clock.displaced identity shift).distance deadline.time)
        = clock.pending.map fun deadline => clock.distance deadline.time := by
    change (clock.pending.map _).map _ = _
    rw [List.map_map]
    exact List.map_congr_left fun deadline _ => distance_displaced clock identity _ shift
  rw [nextDistance, nextDistance, distances]

theorem moved_displaced (clock : Clock) (identity : Nat) (shift cycles : UInt64) :
    (clock.displaced identity shift).moved cycles
      = (clock.moved cycles).displaced identity shift := by
  have now : clock.now + shift + cycles = clock.now + cycles + shift := by grind
  simp [moved, displaced, now]

theorem increment_displaced (clock : Clock) (identity : Nat) (shift : UInt64)
    (short : cycles < horizon) : ∃ reached after, clock.increment cycles = .ok (reached, after) ∧
      (clock.displaced identity shift).increment cycles
        = .ok (reached, after.displaced identity shift) := by
  have reached : (fun deadline : Deadline =>
      ((clock.moved cycles).displaced identity shift).hasReached
        (deadline.displaced identity shift).time)
        = fun deadline => (clock.moved cycles).hasReached deadline.time :=
    funext fun deadline => hasReached_displaced _ identity _ shift
  have pending : (clock.displaced identity shift).pending
      = clock.pending.map (·.displaced identity shift) := rfl
  refine ⟨_, _, increment_of_lt short, ?_⟩
  rw [increment_of_lt short, moved_displaced, pending, List.any_map, List.filter_map]
  simp only [Function.comp_def, congrFun reached]
  rfl

/-! ## In lockstep -/

/-- A clock whose pending deadlines are its own, and the same clock so many cycles further on. -/
structure IsDisplaced (first second : Nat) (shift : UInt64) (clock other : Clock) : Prop where
  identity_eq : clock.identity = first
  own : clock.IsOwn
  other_eq : other = clock.displaced second shift

/-- Every deadline of the first clock is paired with the same one so many cycles further on. -/
def Lockstep.displaced (first second : Nat) (shift : UInt64) : Lockstep where
  shift
  clocks := IsDisplaced first second shift
  deadlines deadline paired := deadline.clock = first ∧ paired = deadline.displaced second shift
  now_eq displaced := by
    rw [displaced.other_eq]
    rfl
  time_eq deadlines := by
    rw [deadlines.2]
    rfl
  drop displaced deadlines := by
    obtain ⟨rfl, own, rfl⟩ := displaced
    obtain ⟨issuer, rfl⟩ := deadlines
    exact ⟨rfl, own.filter _ _, drop_displaced own issuer⟩
  place displaced placed placedOther := by
    obtain ⟨rfl, own, rfl⟩ := displaced
    unfold Clock.scheduleAt at placed placedOther
    split at placed
    next =>
      split at placedOther
      next =>
        cases placed
        cases placedOther
        exact ⟨⟨rfl, rfl⟩, rfl, own.place _, rfl⟩
      next => contradiction
    next => contradiction

theorem Lockstep.displaced_marches (first second : Nat) (shift : UInt64) :
    (Lockstep.displaced first second shift).Marches where
  increment := by
    rintro clock other ⟨identity_eq, own, rfl⟩ cycles
    by_cases short : cycles < horizon
    · have moved : clock.increment cycles = _ := increment_of_lt short
      obtain ⟨reached, after, done, doneOther⟩ := increment_displaced clock second shift short
      rw [done, doneOther]
      cases moved.symm.trans done
      exact .value [] ⟨rfl, identity_eq, own.filter _ _, rfl⟩
    · rw [Clock.increment, if_neg short, Clock.increment, if_neg short]
      exact .fault _ []
  nextDistance_eq := by
    rintro clock other ⟨_, _, rfl⟩
    exact nextDistance_displaced clock second shift

end Clock

end SocPeripherals
