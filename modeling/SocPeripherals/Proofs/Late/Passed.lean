import SocPeripherals.Proofs.Clock.Service
import SocPeripherals.Proofs.Late.Heard

/-!
# Moments on the way

A host that goes a number of cycles at once could have stopped on the way. What lay ahead of it and
is reached where it could have stopped is reached at the end as well.
-/

namespace SocPeripherals

namespace Clock

variable {clock first second : Clock} {deadline other : Deadline} {before after : UInt64}

theorem claim_congr (now : second.now = first.now) (holder : Option Deadline) :
    second.claim holder = first.claim holder := by
  unfold claim
  simp only [hasReached_congr now]

theorem remaining_congr (now : second.now = first.now) (time : other.time = deadline.time) :
    second.remaining other = first.remaining deadline := by
  unfold remaining hasReached distance
  rw [now, time]

/-- Two moments after a first one, all within less than the horizon. -/
structure Passed (clock first second : Clock) (before after : UInt64) : Prop where
  now : first.now = clock.now + before
  later : second.now = first.now + after
  short : before.toNat + after.toNat < horizon.toNat

/-- What has been reached at the first moment has been at the second, and is later by then. -/
theorem Passed.reached (passed : Passed clock first second before after)
    (near : clock.distance deadline.time < horizon)
    (reached : first.hasReached deadline.time = true) :
    second.hasReached deadline.time = true ∧
      (second.now - deadline.time).toNat = (first.now - deadline.time).toNat + after.toNat := by
  obtain ⟨now, later, short⟩ := passed
  have limit : horizon.toNat = 0x7fffffffffffffff := rfl
  have brief : before < horizon := UInt64.lt_iff_toNat_lt.2 (by omega)
  have moved : first.hasReached deadline.time = (clock.moved before).hasReached deadline.time :=
    hasReached_congr now _
  rw [moved, hasReached_moved_iff near brief] at reached
  have lateness : first.now - deadline.time = before - clock.distance deadline.time := by
    rw [now, distance]
    grind
  have latenessLater : second.now - deadline.time
      = before - clock.distance deadline.time + after := by
    rw [later, now, distance]
    grind
  generalize clock.distance deadline.time = distance at *
  have exact : (before - distance).toNat = before.toNat - distance.toNat :=
    UInt64.toNat_sub_of_le _ _ reached
  have exactLater : (before - distance + after).toNat
      = before.toNat - distance.toNat + after.toNat := by
    rw [UInt64.toNat_add, exact, Nat.mod_eq_of_lt (by omega)]
  refine ⟨?_, by rw [lateness, latenessLater, exact, exactLater]⟩
  rw [hasReached, latenessLater, decide_eq_true_iff, UInt64.lt_iff_toNat_lt, exactLater]
  omega

end Clock

end SocPeripherals
