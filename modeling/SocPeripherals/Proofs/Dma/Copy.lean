import SocPeripherals.Proofs.Bus.Ram
import SocPeripherals.Proofs.Dma.Plan

/-!
# Transfers within a memory of bytes

A memory of bytes takes a unit exactly if both its places lie inside the memory and are aligned, and
then copies its bytes. A transfer that happens at once copies its units in order up to the first
that does not fit. Each unit is copied from what those before it have left, so that a target ahead
of the source repeats the first units, while a target apart from the source becomes a copy of it.
-/

namespace SocPeripherals

namespace Dma

theorem unitOf_ne_invalid (control : UInt32) : unitOf control ≠ .invalid := by
  unfold unitOf
  split_ifs <;> decide

namespace Plan

variable {plan : Plan} {ram after : Ram} {stop number count : Nat} {address other : UInt32}

/-- The bytes of a unit. -/
def width (plan : Plan) : Nat := plan.unit.bytes.toNat

/-- A unit at the address lies in the memory and is aligned. -/
def FitsAt (plan : Plan) (ram : Ram) (address : UInt32) : Prop :=
  address.toNat + plan.width ≤ ram.size ∧ plan.width ∣ address.toNat

/-- Both places of a unit lie in the memory and are aligned. -/
def Fits (plan : Plan) (ram : Ram) (number : Nat) : Prop :=
  plan.FitsAt ram (plan.sourceAt number) ∧ plan.FitsAt ram (plan.targetAt number)

/-- The memory after the bytes of the first units have been copied, one unit after the other. -/
def copied (plan : Plan) (ram : Ram) : Nat → Ram
  | 0 => ram
  | number + 1 =>
      (plan.copied ram number).copy (plan.sourceAt number).toNat (plan.targetAt number).toNat
        plan.width

/-- The bytes of the unit at an address. -/
def unitAt (plan : Plan) (ram : Ram) (address : UInt32) : List UInt8 :=
  (List.range plan.width).map fun offset => ram.byteAt (address.toNat + offset)

theorem width_le_four (plan : Plan) : plan.width ≤ 4 := by
  unfold width
  cases plan.unit <;> decide

theorem width_pos (valid : plan.unit ≠ .invalid) : 0 < plan.width := by
  unfold width
  cases unit : plan.unit with
  | invalid => exact absurd unit valid
  | byte | halfWord | word => decide

instance (plan : Plan) (ram : Ram) (address : UInt32) : Decidable (plan.FitsAt ram address) :=
  inferInstanceAs (Decidable (_ ∧ _))

instance (plan : Plan) (ram : Ram) (number : Nat) : Decidable (plan.Fits ram number) :=
  inferInstanceAs (Decidable (_ ∧ _))

@[simp]
theorem size_copied (plan : Plan) (ram : Ram) (number : Nat) :
    (plan.copied ram number).size = ram.size := by
  induction number with
  | zero => rfl
  | succ number ih => rw [copied, Ram.size_copy, ih]

/-! ## What a memory takes -/

theorem fitsAt_iff (valid : plan.unit ≠ .invalid) :
    plan.FitsAt ram address ↔ ram.Covers plan.unit address ∧ Ram.Aligned plan.unit address := by
  rw [FitsAt, Ram.Covers, Ram.Aligned, Nat.dvd_iff_mod_eq_zero, and_iff_right valid]
  rfl

theorem read_of_fits (valid : plan.unit ≠ .invalid) (fits : plan.FitsAt ram address) :
    Bus.read ram plan.unit address = (.ok (ram.load address.toNat plan.width), ram) := by
  obtain ⟨covers, aligned⟩ := (fitsAt_iff valid).1 fits
  change (ram.read plan.unit address, ram) = _
  rw [Ram.read, if_pos covers, if_pos aligned]
  rfl

theorem read_of_not_fits (valid : plan.unit ≠ .invalid) (outside : ¬ plan.FitsAt ram address) :
    ∃ refusal, Bus.read ram plan.unit address = (.error refusal, ram) := by
  rw [fitsAt_iff valid] at outside
  by_cases covers : ram.Covers plan.unit address
  · have odd : ¬ Ram.Aligned plan.unit address := fun aligned => outside ⟨covers, aligned⟩
    exact ⟨_, congrArg (·, ram) ((if_pos covers).trans (if_neg odd))⟩
  · exact ⟨_, congrArg (·, ram) (if_neg covers)⟩

theorem write_of_fits (valid : plan.unit ≠ .invalid) (fits : plan.FitsAt ram address)
    (value : UInt32) :
    Bus.write ram plan.unit address value
      = (.ok (), ram.store address.toNat value plan.width) := by
  obtain ⟨covers, aligned⟩ := (fitsAt_iff valid).1 fits
  exact (if_pos covers).trans (if_pos aligned)

theorem write_of_not_fits (valid : plan.unit ≠ .invalid) (outside : ¬ plan.FitsAt ram address)
    (value : UInt32) :
    ∃ refusal, Bus.write ram plan.unit address value = (.error refusal, ram) := by
  rw [fitsAt_iff valid] at outside
  by_cases covers : ram.Covers plan.unit address
  · have odd : ¬ Ram.Aligned plan.unit address := fun aligned => outside ⟨covers, aligned⟩
    exact ⟨_, (if_pos covers).trans (if_neg odd)⟩
  · exact ⟨_, if_neg covers⟩

/-- A memory copies a unit that fits. -/
theorem copyUnit_of_fits (valid : plan.unit ≠ .invalid) (fits : plan.Fits ram number) :
    plan.copyUnit ram number =
      (true, ram.copy (plan.sourceAt number).toNat (plan.targetAt number).toNat plan.width) := by
  unfold copyUnit
  rw [read_of_fits valid fits.1]
  dsimp only
  rw [write_of_fits valid fits.2, Ram.store_load _ _ plan.width_le_four fits.2.1]

/-- A unit that does not fit leaves the memory as it is. -/
theorem copyUnit_of_not_fits (valid : plan.unit ≠ .invalid) (outside : ¬ plan.Fits ram number) :
    plan.copyUnit ram number = (false, ram) := by
  unfold copyUnit
  by_cases source : plan.FitsAt ram (plan.sourceAt number)
  · obtain ⟨refusal, refused⟩ := write_of_not_fits valid
      (fun target => outside ⟨source, target⟩) (ram.load (plan.sourceAt number).toNat plan.width)
    rw [read_of_fits valid source]
    dsimp only
    rw [refused]
  · obtain ⟨refusal, refused⟩ := read_of_not_fits valid source
    rw [refused]

theorem fits_congr (same : ram.size = after.size) :
    plan.Fits ram number ↔ plan.Fits after number := by
  rw [Fits, Fits, FitsAt, FitsAt, FitsAt, FitsAt, same]

/-- A memory takes a unit exactly if it fits. -/
theorem copyUnit_eq (valid : plan.unit ≠ .invalid) (ram : Ram) (number : Nat) :
    ((plan.copyUnit ram number).1 = true ↔ plan.Fits ram number) ∧
      (plan.copyUnit ram number).2.size = ram.size := by
  by_cases fits : plan.Fits ram number
  · rw [copyUnit_of_fits valid fits]
    exact ⟨iff_of_true rfl fits, Ram.size_copy ..⟩
  · rw [copyUnit_of_not_fits valid fits]
    exact ⟨iff_of_false Bool.false_ne_true fits, rfl⟩

theorem size_memoryAfter (valid : plan.unit ≠ .invalid) (ram : Ram) (number : Nat) :
    (plan.memoryAfter ram number).size = ram.size := by
  induction number with
  | zero => rfl
  | succ number ih => exact (copyUnit_eq valid _ _).2.trans ih

theorem takes_iff (valid : plan.unit ≠ .invalid) :
    plan.Takes ram number ↔ plan.Fits ram number :=
  (copyUnit_eq valid _ _).1.trans (fits_congr (size_memoryAfter valid ram number))

/-- Carrying a plan out copies its units as long as they fit. -/
theorem memoryAfter_eq_copied (valid : plan.unit ≠ .invalid)
    (fit : ∀ number < count, plan.Fits ram number) :
    plan.memoryAfter ram count = plan.copied ram count := by
  induction count with
  | zero => rfl
  | succ count ih =>
      obtain ⟨before, fits⟩ := Nat.forall_lt_succ_right.1 fit
      have here : plan.Fits (plan.copied ram count) count :=
        (fits_congr (plan.size_copied ram count)).2 fits
      rw [memoryAfter, ih before, copyUnit_of_fits valid here]
      rfl

/-- A unit that does not fit adds nothing. -/
theorem memoryAfter_succ_eq_copied (valid : plan.unit ≠ .invalid)
    (fit : ∀ number < stop, plan.Fits ram number) (misfit : ¬ plan.Fits ram stop) :
    plan.memoryAfter ram (stop + 1) = plan.copied ram stop := by
  have outside : ¬ plan.Fits (plan.memoryAfter ram stop) stop := by
    rwa [fits_congr (size_memoryAfter valid ram stop)]
  rw [memoryAfter, copyUnit_of_not_fits valid outside, memoryAfter_eq_copied valid fit]

/-! ## What the copies come to -/

variable {index : Nat}

/-- The byte after one more unit has been copied. -/
theorem byteAt_copied_succ (fits : plan.Fits ram number) (index : Nat) :
    (plan.copied ram (number + 1)).byteAt index =
      if (plan.targetAt number).toNat ≤ index ∧
          index < (plan.targetAt number).toNat + plan.width then
        (plan.copied ram number).byteAt
          ((plan.sourceAt number).toNat + (index - (plan.targetAt number).toNat))
      else (plan.copied ram number).byteAt index :=
  Ram.byteAt_copy _ _ (fits.2.1.trans (plan.size_copied ram number).ge) index

/-- No byte outside the targets changes. -/
theorem byteAt_copied_of_outside (fit : ∀ number < count, plan.Fits ram number)
    (outside : ∀ number < count, index < (plan.targetAt number).toNat ∨
      (plan.targetAt number).toNat + plan.width ≤ index) :
    (plan.copied ram count).byteAt index = ram.byteAt index := by
  induction count with
  | zero => rfl
  | succ count ih =>
      obtain ⟨before, fits⟩ := Nat.forall_lt_succ_right.1 fit
      obtain ⟨beforeOutside, here⟩ := Nat.forall_lt_succ_right.1 outside
      rw [byteAt_copied_succ fits, if_neg (by omega), ih before beforeOutside]

/-- Two aligned units are the same or apart. -/
theorem apart_of_ne (first : plan.width ∣ address.toNat) (second : plan.width ∣ other.toNat)
    (distinct : address ≠ other) :
    address.toNat + plan.width ≤ other.toNat ∨ other.toNat + plan.width ≤ address.toNat := by
  obtain ⟨place, here⟩ := first
  obtain ⟨otherPlace, there⟩ := second
  rw [ne_eq, ← UInt32.toNat_inj, here, there] at distinct
  rw [here, there, ← Nat.mul_succ, ← Nat.mul_succ]
  rcases Nat.lt_trichotomy place otherPlace with before | rfl | after
  · exact .inl (Nat.mul_le_mul_left _ before)
  · exact absurd rfl distinct
  · exact .inr (Nat.mul_le_mul_left _ after)

/-- A unit that has just been copied. -/
theorem unitAt_copied_target (fits : plan.Fits ram number) :
    plan.unitAt (plan.copied ram (number + 1)) (plan.targetAt number)
      = plan.unitAt (plan.copied ram number) (plan.sourceAt number) := by
  refine List.map_congr_left fun offset inside => ?_
  have below := List.mem_range.1 inside
  rw [byteAt_copied_succ fits, if_pos (by omega), Nat.add_sub_cancel_left]

/-- A unit other than the one that has just been copied. -/
theorem unitAt_copied_of_ne (fits : plan.Fits ram number) (aligned : plan.width ∣ address.toNat)
    (distinct : address ≠ plan.targetAt number) :
    plan.unitAt (plan.copied ram (number + 1)) address
      = plan.unitAt (plan.copied ram number) address := by
  have apart := apart_of_ne aligned fits.2.2 distinct
  refine List.map_congr_left fun offset inside => ?_
  have below := List.mem_range.1 inside
  rw [byteAt_copied_succ fits, if_neg (by omega)]

/-- A unit that is no target stays as it was. -/
theorem unitAt_copied_of_untouched (fit : ∀ number < count, plan.Fits ram number)
    (aligned : plan.width ∣ address.toNat)
    (untouched : ∀ number < count, address ≠ plan.targetAt number) :
    plan.unitAt (plan.copied ram count) address = plan.unitAt ram address := by
  induction count with
  | zero => rfl
  | succ count ih =>
      obtain ⟨before, fits⟩ := Nat.forall_lt_succ_right.1 fit
      obtain ⟨beforeUntouched, here⟩ := Nat.forall_lt_succ_right.1 untouched
      rw [unitAt_copied_of_ne fits aligned here, ih before beforeUntouched]

/-- Where two units have one target they have one source, if both addresses move on alike. -/
theorem sourceAt_eq_of_targetAt_eq (alike : plan.sourceStep = plan.targetStep) {first second : Nat}
    (same : plan.targetAt first = plan.targetAt second) :
    plan.sourceAt first = plan.sourceAt second := by
  unfold sourceAt targetAt at *
  rw [alike]
  grind

/-- A target that no unit is read from becomes a copy of the source. -/
theorem copied_apart (fit : ∀ number < count, plan.Fits ram number)
    (alike : plan.sourceStep = plan.targetStep)
    (apart : ∀ first < count, ∀ second < count, plan.sourceAt first ≠ plan.targetAt second) :
    ∀ number < count, plan.unitAt (plan.copied ram count) (plan.targetAt number)
      = plan.unitAt ram (plan.sourceAt number) := by
  induction count with
  | zero => exact fun _ below => absurd below (Nat.not_lt_zero _)
  | succ count ih =>
      obtain ⟨before, fits⟩ := Nat.forall_lt_succ_right.1 fit
      have unread := unitAt_copied_of_untouched before fits.1.2 fun number below =>
        apart count count.lt_succ_self number (below.trans count.lt_succ_self)
      intro number below
      by_cases here : plan.targetAt number = plan.targetAt count
      · rw [here, unitAt_copied_target fits, unread, sourceAt_eq_of_targetAt_eq alike here]
      · have earlier : number < count :=
          lt_of_le_of_ne (Nat.le_of_lt_succ below) fun last => here (by rw [last])
        rw [unitAt_copied_of_ne fits (before number earlier).2.2 here]
        exact ih before (fun first firstBelow second secondBelow =>
          apart first (firstBelow.trans count.lt_succ_self) second
            (secondBelow.trans count.lt_succ_self)) number earlier

/-- A target some units ahead of the source repeats these units, as long as the addresses do not
come round to where they have been. -/
theorem copied_ahead {ahead : Nat} (some : 0 < ahead)
    (fit : ∀ number < count, plan.Fits ram number)
    (shifted : ∀ number, plan.targetAt number = plan.sourceAt (number + ahead))
    (distinct : ∀ first < count + ahead, ∀ second < count + ahead,
      plan.sourceAt first = plan.sourceAt second → first = second) :
    ∀ number < count, plan.unitAt (plan.copied ram count) (plan.targetAt number)
      = plan.unitAt ram (plan.sourceAt (number % ahead)) := by
  -- A unit is read when it has been copied itself, unless it is among the first.
  have repeats : ∀ number < count + ahead, plan.width ∣ (plan.sourceAt number).toNat →
      plan.unitAt (plan.copied ram count) (plan.sourceAt number)
        = plan.unitAt ram (plan.sourceAt (number % ahead)) := by
    induction count with
    | zero =>
        intro number below _
        rw [Nat.zero_add] at below
        rw [Nat.mod_eq_of_lt below]
        rfl
    | succ count ih =>
        obtain ⟨before, fits⟩ := Nat.forall_lt_succ_right.1 fit
        have earlier := ih before fun first firstBelow second secondBelow =>
          distinct first (by omega) second (by omega)
        intro number below aligned
        by_cases last : number = count + ahead
        · rw [last, ← shifted, unitAt_copied_target fits, earlier count (by omega) fits.1.2,
            Nat.add_mod_right]
        · have other : plan.sourceAt number ≠ plan.targetAt count := by
            rw [shifted]
            exact fun same => last (distinct number below _ (by omega) same)
          rw [unitAt_copied_of_ne fits aligned other]
          exact earlier number (by omega) aligned
  intro number below
  have target := shifted number
  rw [target, repeats (number + ahead) (by omega) (target ▸ (fit number below).2.2),
    Nat.add_mod_right]

/-- Addresses that move on by a unit come round only beyond the address space. -/
theorem sourceAt_injective (valid : plan.unit ≠ .invalid)
    (moves : plan.sourceStep = plan.unit.bytes) (room : count * plan.width ≤ UInt32.size) :
    ∀ first < count, ∀ second < count,
      plan.sourceAt first = plan.sourceAt second → first = second := by
  have positive := width_pos valid
  have place : ∀ number < count,
      (UInt32.ofNat number * plan.sourceStep).toNat = number * plan.width := by
    intro number below
    have inside : number * plan.width < UInt32.size :=
      (Nat.mul_lt_mul_of_pos_right below positive).trans_le room
    have few : number < UInt32.size :=
      (Nat.le_mul_of_pos_right number positive).trans_lt inside
    rw [moves, UInt32.toNat_mul, UInt32.toNat_ofNat_of_lt' few]
    exact Nat.mod_eq_of_lt inside
  intro first firstBelow second secondBelow same
  have products : UInt32.ofNat first * plan.sourceStep = UInt32.ofNat second * plan.sourceStep := by
    unfold sourceAt at same
    grind
  have numbers := congrArg UInt32.toNat products
  rw [place first firstBelow, place second secondBelow] at numbers
  exact Nat.eq_of_mul_eq_mul_right positive numbers

/-- What becomes of a memory of which the first units have been copied in order. -/
structure Transcribes (plan : Plan) (ram after : Ram) (stop : Nat) : Prop where
  /-- No other byte changes. -/
  outside : ∀ index, (∀ number < stop, index < (plan.targetAt number).toNat ∨
    (plan.targetAt number).toNat + plan.width ≤ index) → after.byteAt index = ram.byteAt index
  /-- A target apart from the source becomes a copy of it, if both addresses move on alike. -/
  apart : plan.sourceStep = plan.targetStep →
    (∀ first < stop, ∀ second < stop, plan.sourceAt first ≠ plan.targetAt second) →
    ∀ number < stop, plan.unitAt after (plan.targetAt number)
      = plan.unitAt ram (plan.sourceAt number)
  /-- A target some units ahead of the source repeats these, if both addresses move on. -/
  ahead : plan.sourceStep = plan.unit.bytes → plan.targetStep = plan.unit.bytes →
    ∀ units, 0 < units → plan.target = plan.source + UInt32.ofNat units * plan.unit.bytes →
    (stop + units) * plan.width ≤ UInt32.size →
    ∀ number < stop, plan.unitAt after (plan.targetAt number)
      = plan.unitAt ram (plan.sourceAt (number % units))

theorem transcribes_copied (valid : plan.unit ≠ .invalid)
    (fit : ∀ number < stop, plan.Fits ram number) :
    plan.Transcribes ram (plan.copied ram stop) stop where
  outside _ outside := byteAt_copied_of_outside fit outside
  apart alike apart := copied_apart fit alike apart
  ahead moves movesToo units some shifted room := by
    refine copied_ahead some fit (fun number => ?_) (sourceAt_injective valid moves room)
    unfold sourceAt targetAt
    rw [shifted, moves, movesToo, UInt32.ofNat_add]
    grind

/-- The start bit and the error bit say nothing of the units. -/
theorem host_control_and {bits : UInt32} (apart : startBit &&& bits = 0)
    (untouched : ~~~errorBit &&& bits = bits) (control : UInt32) :
    (control ||| startBit) &&& ~~~errorBit &&& bits = control &&& bits := by
  rw [UInt32.and_assoc, untouched, or_and_distrib, apart, UInt32.or_zero]

/-- What the host asks for. -/
theorem ofBank_host (before : Bank registers) (source target count control : UInt32) :
    ∃ bank, (Launch.host source target count control).bank? before = some bank ∧
      ofBank bank = ⟨unitOf control, source, target, stepOf control holdSourceBit,
        stepOf control holdTargetBit, count⟩ := by
  refine ⟨_, rfl, ?_⟩
  have unit : unitOf ((control ||| startBit) &&& ~~~errorBit) = unitOf control := by
    unfold unitOf
    rw [host_control_and (by decide) (by decide)]
  have step {bits : UInt32} (apart : startBit &&& bits = 0)
      (untouched : ~~~errorBit &&& bits = bits) :
      stepOf ((control ||| startBit) &&& ~~~errorBit) bits = stepOf control bits := by
    unfold stepOf
    rw [host_control_and apart untouched, unit]
  unfold ofBank
  rw [Channel.control_set, unit, step (by decide) (by decide), step (by decide) (by decide)]
  simp only [Registers.set_eq_put, Bank.get_put]
  rfl

end Plan

namespace Channel

variable {channel : Channel} {bank : Bank registers} {request : Launch}

/-- A transfer that takes no time has been asked for all its units when it has begun. -/
theorem launch_at_once_stage {μ : Type} [Bus μ] (idle : channel.transfer = none)
    (instant : channel.cyclesPerUnit = 0) (begins : request.bank? channel.bank = some bank)
    (clock : Clock) (memory : μ) :
    (channel.launch clock memory request).Gives fun (after, _, there) signals =>
      Stage { channel with bank } (Channel.described { channel with bank } (bank.get countIndex)
        clock.now none) memory (bank.get countIndex).toNat after there signals := by
  have atOnce : ¬ (channel.cyclesPerUnit ≠ 0 ∧ bank.get countIndex ≠ 0) :=
    fun takes => takes.1 instant
  refine .imp (launch_gives idle begins (begin_at_once_stage (by exact atOnce) clock memory) ?_) ?_
  · rintro value signals remarks ⟨now, stage⟩
    exact ⟨now, stage.preceded remarks⟩
  · rintro _ _ ⟨_, stage⟩
    exact stage

/-- A transfer within a memory that takes no time copies its units in order, up to the first that
does not lie in the memory or is not aligned. The registers stand at that unit, the error bit tells
whether there was one, and the interrupt is asked for. -/
theorem launch_copies (idle : channel.transfer = none) (instant : channel.cyclesPerUnit = 0)
    (begins : request.bank? channel.bank = some bank) (clock : Clock) (ram : Ram) :
    let plan := Plan.ofBank bank
    let launched := channel.launch clock ram request
    ∃ (after : Channel) (later : Clock) (stop : Nat),
      launched.outcome = .ok (after, later, plan.copied ram stop) ∧
      (stop ≤ plan.count.toNat ∧ (∀ number < stop, plan.Fits ram number) ∧
        (stop < plan.count.toNat → ¬ plan.Fits ram stop)) ∧
      plan.Transcribes ram (plan.copied ram stop) stop ∧
      after.StandsAt plan stop ∧ after.isActive = false ∧ ¬ after.Shows startBit ∧
      (after.Shows errorBit ↔ stop < plan.count.toNat) ∧
      launched.signals.filterMap Signal.interrupt? = [channel.source] := by
  intro plan launched
  obtain ⟨⟨after, later, there⟩, done, stage⟩ :=
    launch_at_once_stage idle instant begins clock ram
  have valid : plan.unit ≠ .invalid := unitOf_ne_invalid _
  obtain ⟨stop, stops⟩ := plan.exists_stopsAt ram
  have fit : ∀ number < stop, plan.Fits ram number :=
    fun number below => (Plan.takes_iff valid).1 (stops.taken number below)
  have misfit : stop < plan.count.toNat → ¬ plan.Fits ram stop :=
    fun below => mt (Plan.takes_iff valid).2 (stops.refused below)
  obtain ⟨start, flawless⟩ := Launch.bits begins
  have interrupts := (stage.finished (.inr (Nat.zero_add _))).2
  suffices known : there = plan.copied ram stop ∧ after.StandsAt plan stop ∧
      after.isActive = false ∧ ¬ after.Shows startBit ∧
      (after.Shows errorBit ↔ stop < plan.count.toNat) by
    obtain ⟨rfl, stands, ended, start, error⟩ := known
    exact ⟨after, later, stop, done, ⟨stops.within, fit, misfit⟩,
      Plan.transcribes_copied valid fit, stands, ended, start, error, interrupts⟩
  by_cases below : stop < plan.count.toNat
  · obtain ⟨contents, failed⟩ := stage.hasFailedAt stops below
    have same := Plan.memoryAfter_succ_eq_copied valid fit (misfit below)
    exact ⟨contents.trans same, failed.stands, failed.idle, failed.start,
      iff_of_true failed.error below⟩
  · have all : stop = plan.count.toNat := Nat.le_antisymm stops.within (Nat.le_of_not_lt below)
    obtain ⟨contents, moved⟩ := stage.hasMoved start flawless fun number inside =>
      stops.taken number (inside.trans_eq all.symm)
    have copied := Plan.memoryAfter_eq_copied valid fit
    rw [all] at below copied ⊢
    have ended : ¬ after.isActive = true := mt moved.active.1 below
    exact ⟨contents.trans copied, moved.stands, Bool.eq_false_of_not_eq_true ended,
      mt moved.start.1 below, iff_of_false moved.flawless below⟩

/-- Seven bytes copied to two bytes ahead in a memory that has no room for the last of them. -/
theorem launch_copies_overlapping :
    let channel : Channel := { index := 0, source := 7, cyclesPerUnit := 0 }
    let launched := channel.launch {} (Ram.ofList [1, 2, 3, 4, 5, 6, 7, 8]) (.host 0 2 7 0)
    ∃ after later,
      launched.outcome = .ok (after, later, Ram.ofList [1, 2, 1, 2, 1, 2, 1, 2]) ∧
      after.StandsAt ⟨.byte, 0, 2, 1, 1, 7⟩ 6 ∧ after.Shows errorBit ∧
      launched.signals.filterMap Signal.interrupt? = [7] := by
  have fit : ∀ number < 6, Plan.Fits ⟨.byte, 0, 2, 1, 1, 7⟩ (Ram.ofList [1, 2, 3, 4, 5, 6, 7, 8])
      number := by decide
  have misfit : ¬ Plan.Fits ⟨.byte, 0, 2, 1, 1, 7⟩ (Ram.ofList [1, 2, 3, 4, 5, 6, 7, 8]) 6 := by
    decide
  obtain ⟨after, later, stop, done, ⟨-, before, last⟩, -, stands, -, -, error, interrupts⟩ :=
    @launch_copies { index := 0, source := 7, cyclesPerUnit := 0 } _ (.host 0 2 7 0) rfl rfl rfl {}
      (Ram.ofList [1, 2, 3, 4, 5, 6, 7, 8])
  have upper : stop ≤ 6 := Nat.le_of_not_lt fun beyond => misfit (before 6 beyond)
  have lower : 6 ≤ stop := by
    by_contra few
    exact last (lt_trans (Nat.lt_of_not_le few) (by decide)) (fit stop (Nat.lt_of_not_le few))
  obtain rfl := Nat.le_antisymm upper lower
  exact ⟨after, later, done, stands, error.2 (by decide), interrupts⟩

end Channel

end Dma

end SocPeripherals
