import SocPeripherals.Proofs.Bus.Lanes
import SocPeripherals.Proofs.Timer.Periods

/-!
# Timers rewritten while they run

What is written to a running timer waits in its registers for the end of the period, unless it
stops the timer. Until then the timer shows and does what it would have without the writes. Its
period ends by the control register as it then stands, and the one that follows begins at that
deadline with the count and the prescale as they then stand.
-/

namespace SocPeripherals

namespace Timer

open Ram (valueByte)

/-- A bus write. -/
structure Store where
  width : Width
  address : UInt32
  value : UInt32
deriving DecidableEq, Repr

/-- The byte that a write puts in a byte of a register. -/
def Store.byte? (store : Store) (index : Fin registers.length) (place : Nat) : Option UInt8 :=
  let register := registers.get index
  if register.Covers store.width store.address place then
    some (valueByte store.value (register.offset.toNat + place - store.address.toNat))
  else none

/-- A byte of a register after some writes: the last that was put there. -/
def rewrittenByte (timer : Timer) (stores : List Store) (index : Fin registers.length)
    (place : Nat) : UInt8 :=
  (stores.filterMap (·.byte? index place)).getLastD (valueByte (timer.bank.get index) place)

/-- What can become of a running timer before the end of its period is handled, with the writes so
far, which have left the enable bit set. The clock moves on at will, and others may use it. -/
inductive Rewrites (timer : Timer) (clock : Clock) : Timer → Clock → List Store → Prop where
  | start : Rewrites timer clock timer clock []
  | write {current after : Timer} {later next : Clock} {stores : List Store}
      (rewrites : Rewrites timer clock current later stores) (store : Store)
      (done : (current.write later store.width store.address store.value).outcome
        = .ok (after, next))
      (enabled : after.isEnabled = true) : Rewrites timer clock after next (stores ++ [store])
  | read {current : Timer} {later : Clock} {stores : List Store}
      (rewrites : Rewrites timer clock current later stores) (width : Width) (address : UInt32) :
      Rewrites timer clock (current.read later width address).value.2 later stores
  | poll {current after : Timer} {later next : Clock} {stores : List Store}
      (rewrites : Rewrites timer clock current later stores)
      (ahead : ∀ deadline ∈ current.held, later.hasReached deadline.time = false)
      (done : (current.poll later).outcome = .ok (after, next)) :
      Rewrites timer clock after next stores
  | increment {current : Timer} {later next : Clock} {stores : List Store}
      (rewrites : Rewrites timer clock current later stores) (cycles : UInt64) {reached : Bool}
      (moved : later.increment cycles = .ok (reached, next)) :
      Rewrites timer clock current next stores
  | share {current : Timer} {later next : Clock} {stores : List Store}
      (rewrites : Rewrites timer clock current later stores)
      (leaves : later.Leaves current.held next) : Rewrites timer clock current next stores

variable {timer current after : Timer} {clock later next : Clock} {idle : List Signal}
  {stores : List Store} {start ended : UInt64} {expiry : Deadline}

/-! ## What a write stores -/

theorem access_eq (index : Fin registers.length) : (registers.get index).access = .readWrite := by
  revert index
  decide

/-- The registers after a write. -/
def written (timer : Timer) (store : Store) : Bank registers :=
  match Selection.find? registers store.width store.address with
  | none => timer.bank
  | some selection => (timer.bank.write selection store.value).2

/-- A change of the control register stops an enabled timer if it clears the enable bit. -/
theorem controlled_of_set (clock : Clock) {change : Change}
    (stored : timer.bank.get controlIndex = change.new) (set : change.old &&& enableBit ≠ 0) :
    (timer.controlled clock change).Succeeds fun result =>
      result = if timer.isEnabled then (timer, clock) else timer.halt clock := by
  have risen : ¬change.rising &&& enableBit ≠ 0 := fun rises => ((rises_iff change).1 rises).2 set
  unfold controlled
  rw [if_neg risen]
  by_cases enabled : timer.isEnabled = true
  · have kept : change.new &&& enableBit ≠ 0 := stored ▸ isEnabled_iff.1 enabled
    rw [if_neg fun falls => ((falls_iff change).1 falls).2 kept, if_pos enabled]
    exact .pure rfl
  · have cleared : ¬change.new &&& enableBit ≠ 0 := fun kept =>
      enabled (isEnabled_iff.2 (stored.symm ▸ kept))
    rw [if_pos ((falls_iff change).2 ⟨set, cleared⟩), if_neg enabled]
    exact .bind (Run.Gives.signal _).succeeds fun _ _ => .pure rfl

/-- A write goes to the registers of an enabled timer, and stops it if that clears the enable
bit. -/
theorem write_of_enabled (enabled : timer.isEnabled = true) (clock : Clock) (store : Store) :
    (timer.write clock store.width store.address store.value).Succeeds fun result =>
      result = if isEnabled { timer with bank := timer.written store } then
          ({ timer with bank := timer.written store }, clock)
        else halt { timer with bank := timer.written store } clock := by
  unfold write written
  have selected : (liftM (Selection.noted Signal.note "timer" registers store.width store.address)
      : Run Signal _).Succeeds fun value =>
        value = Selection.find? registers store.width store.address := ⟨_, rfl, rfl⟩
  refine .bind selected ?_
  rintro _ rfl
  cases Selection.find? registers store.width store.address with
  | none =>
      dsimp only
      rw [if_pos enabled]
      exact .pure rfl
  | some selection =>
      dsimp only
      split
      next control =>
        have old : (timer.bank.write selection store.value).1.old = timer.bank.get controlIndex :=
          congrArg timer.bank.get control
        have new : (timer.bank.write selection store.value).2.get controlIndex
            = (timer.bank.write selection store.value).1.new :=
          control ▸ Bank.get_put_self _ _ _
        exact controlled_of_set clock new (old ▸ isEnabled_iff.1 enabled)
      next other =>
        have kept : isEnabled { timer with bank := (timer.bank.write selection store.value).2 }
            = true := by
          rw [isEnabled, Bank.get_write_of_ne _ other]
          exact enabled
        rw [if_pos kept]
        exact .pure rfl

/-- What has become of an enabled timer that was written to. -/
theorem write_cases (enabled : timer.isEnabled = true) {store : Store}
    (done : (timer.write clock store.width store.address store.value).outcome = .ok (after, next)) :
    (after.isEnabled = true ∧ after = { timer with bank := timer.written store } ∧ next = clock) ∨
      (after.isEnabled = false ∧
        after = { timer with bank := timer.written store, phase := .stopped }) := by
  obtain ⟨result, ends, same⟩ := write_of_enabled enabled clock store
  cases done.symm.trans ends
  by_cases kept : isEnabled { timer with bank := timer.written store } = true
  · rw [if_pos kept] at same
    cases same
    exact .inl ⟨kept, rfl, rfl⟩
  · rw [if_neg kept] at same
    have halted := (congrArg Prod.fst same).trans (halt_eq _ clock).1
    dsimp only at halted
    subst halted
    exact .inr ⟨Bool.eq_false_of_not_eq_true kept, rfl⟩

/-- A write puts its bytes where it covers a register, and leaves all others. -/
theorem valueByte_written (timer : Timer) (store : Store) (index : Fin registers.length)
    {place : Nat} (inside : place < 4) :
    valueByte ((timer.written store).get index) place
      = (store.byte? index place).getD (valueByte (timer.bank.get index) place) := by
  have apart : Selection.IsApart registers := by decide
  have selects (covers : (registers.get index).Covers store.width store.address place) :
      ∃ selection, Selection.find? registers store.width store.address = some selection ∧
        selection.index = index :=
    Selection.find?_of_contains apart covers.valid covers.1
  unfold written Store.byte?
  cases found : Selection.find? registers store.width store.address with
  | none =>
      have spared : ¬(registers.get index).Covers store.width store.address place := by
        intro covers
        obtain ⟨selection, same, -⟩ := selects covers
        exact absurd (found.symm.trans same) nofun
      dsimp only
      rw [if_neg spared]
      rfl
  | some selection =>
      dsimp only
      by_cases here : selection.index = index
      · subst here
        obtain ⟨contains, lane⟩ : (registers.get selection.index).Contains store.address ∧
            selection.lane = (registers.get selection.index).lane store.width store.address :=
          Selection.contains_of_find? found
        have merged : (timer.bank.write selection store.value).2.get selection.index
            = selection.lane.merge (timer.bank.get selection.index) store.value := by
          unfold Bank.write
          rw [Bank.get_put_self, Selection.register, access_eq]
        rw [merged, lane, Register.valueByte_merge contains _ _ inside]
        split
        next => rfl
        next => rfl
      · have spared : ¬(registers.get index).Covers store.width store.address place := by
          intro covers
          obtain ⟨other, same, there⟩ := selects covers
          cases found.symm.trans same
          exact here there
        rw [if_neg spared, Bank.get_write_of_ne _ here]
        rfl

theorem rewrittenByte_concat (timer : Timer) (stores : List Store) (store : Store)
    (index : Fin registers.length) (place : Nat) :
    timer.rewrittenByte (stores ++ [store]) index place
      = (store.byte? index place).getD (timer.rewrittenByte stores index place) := by
  unfold rewrittenByte
  rw [List.filterMap_append]
  cases put : store.byte? index place with
  | none => simp [put]
  | some byte => simp [put]

/-! ## The period goes on -/

/-- How a timer that has been rewritten in a period stands. -/
structure Rewritten (timer current : Timer) (stores : List Store) : Prop where
  enabled : current.isEnabled = true
  alike : current = { timer with bank := current.bank }
  bytes : ∀ index, ∀ place < 4,
    valueByte (current.bank.get index) place = timer.rewrittenByte stores index place

theorem rewritten_refl (enabled : timer.isEnabled = true) : timer.Rewritten timer [] where
  enabled := enabled
  alike := rfl
  bytes _ _ _ := rfl

/-- The registers of a rewritten timer after one more write. -/
theorem Rewritten.written (rewritten : timer.Rewritten current stores) (store : Store)
    (index : Fin registers.length) {place : Nat} (inside : place < 4) :
    valueByte ((current.written store).get index) place
      = timer.rewrittenByte (stores ++ [store]) index place := by
  rw [valueByte_written current store index inside, rewritten.bytes index place inside,
    rewrittenByte_concat]

/-- One more write that leaves the enable bit set. -/
theorem Rewritten.write (rewritten : timer.Rewritten current stores) {store : Store}
    (done : (current.write later store.width store.address store.value).outcome = .ok (after, next))
    (enabled : after.isEnabled = true) :
    timer.Rewritten after (stores ++ [store]) ∧ next = later := by
  rcases write_cases rewritten.enabled done with ⟨_, rfl, rfl⟩ | ⟨disabled, -⟩
  · refine ⟨⟨enabled, ?_, fun index place inside => rewritten.written store index inside⟩, rfl⟩
    exact congrArg (fun known : Timer => { known with bank := current.written store })
      rewritten.alike
  · exact absurd (disabled.symm.trans enabled) Bool.false_ne_true

/-- Whatever is written to a timer in a period, the period goes on as it would have without. -/
theorem Rewrites.rewritten (enabled : timer.isEnabled = true)
    (rewrites : Rewrites timer clock current later stores) :
    timer.Rewritten current stores ∧ Rewrites timer clock timer later [] := by
  induction rewrites with
  | start => exact ⟨rewritten_refl enabled, .start⟩
  | write _ store done kept ih =>
      obtain ⟨rewritten, rfl⟩ := ih.1.write done kept
      exact ⟨rewritten, ih.2⟩
  | read _ width address ih =>
      rw [(read_eq _ _ width address).1]
      exact ih
  | @poll current after later next stores _ ahead done ih =>
      rw [poll_of_ahead ahead] at done
      cases done
      exact ih
  | increment _ cycles moved ih => exact ⟨ih.1, ih.2.increment cycles moved⟩
  | @share current _ next _ _ leaves ih =>
      have held : current.held = timer.held := by rw [ih.1.alike]; rfl
      exact ⟨ih.1, ih.2.share (held ▸ leaves)⟩

/-- A read of the count register gives the count. -/
theorem read_count (timer : Timer) (clock : Clock) (width : Width) {address : UInt32}
    (counts : (registers.get countIndex).Contains address) :
    (timer.read clock width address).value.1 = if width = .invalid then 0 else
      ((registers.get countIndex).lane width address).extract (timer.count clock).toUInt32 := by
  unfold read
  rw [Traced.value_bind, Selection.value_noted]
  by_cases invalid : width = .invalid
  · subst invalid
    rfl
  · obtain ⟨selection, found, here⟩ := Selection.find?_of_contains (by decide) invalid counts
    have lane : selection.lane = (registers.get countIndex).lane width address :=
      here ▸ (Selection.contains_of_find? found).2
    rw [found, if_neg invalid]
    dsimp only
    rw [if_pos here, lane]
    rfl

/-- Until the period is over, accesses of the count register give what they would have without the
writes. -/
theorem Rewritten.read_eq (rewritten : timer.Rewritten current stores)
    (running : timer.phase = .running start expiry) (clock : Clock) (width : Width)
    {address : UInt32} (counts : (registers.get countIndex).Contains address) :
    (current.read clock width address).value.1 = (timer.read clock width address).value.1 := by
  have shown : current.count clock = timer.count clock := by
    rw [rewritten.alike, count, count, running]
  rw [read_count current clock width counts, read_count timer clock width counts, shown]

/-! ## The period ends -/

/-- The timer has stopped, and bus reads of its count register give these bytes of it. -/
structure ReadsBack (timer : Timer) (bytes : Nat → UInt8) : Prop where
  stopped : timer.isRunning = false
  reads : ∀ clock width address, (registers.get countIndex).Contains address → ∀ place,
    valueByte (timer.read clock width address).value.1 place =
      if (registers.get countIndex).Covers width address (address.toNat - 4 + place) then
        bytes (address.toNat - 4 + place)
      else 0

/-- How a poll handles the end of a period that was over at a cycle: the timer asks for its
interrupt, and stops or begins the period that its registers describe. -/
structure Ends (timer : Timer) (clock : Clock) (ended : UInt64) (bytes : Nat → UInt8) : Prop where
  stops : ¬timer.IsPeriodic → (timer.poll clock).Gives fun (after, free) signals =>
    signals.filterMap Signal.interrupt? = [timer.source] ∧ free = clock ∧
      after.isEnabled = false ∧ after.ReadsBack bytes
  begins : timer.IsPeriodic → clock.hasReached ended = true →
    (timer.poll clock).Gives fun (after, _) signals =>
      signals.filterMap Signal.interrupt? = [timer.source] ∧ after.bank = timer.bank ∧
        after.latch = timer.latched ∧ ∃ begun deadline, after.phase = .running begun deadline ∧
          deadline.time = begun + UInt64.ofNat timer.periodCycles ∧
          begun = ended + UInt64.ofNat
            ((clock.now - ended).toNat / timer.periodCycles * timer.periodCycles) ∧
          ((clock.now - ended).toNat < timer.periodCycles → begun = ended)

theorem toNat_ofNat_periodCycles (timer : Timer) :
    (UInt64.ofNat timer.periodCycles).toNat = timer.periodCycles :=
  UInt64.toNat_ofNat_of_lt' (timer.periodCycles_le.trans_lt (by decide))

/-- The cycles of the whole periods that have gone by since the old one ended. -/
theorem skipped_eq (timer : Timer) (gone : UInt64) :
    gone / UInt64.ofNat timer.periodCycles * UInt64.ofNat timer.periodCycles
      = UInt64.ofNat (gone.toNat / timer.periodCycles * timer.periodCycles) := by
  have parts := toNat_mul_div (UInt64.ofNat timer.periodCycles) gone
  rw [toNat_ofNat_periodCycles] at parts
  rw [← parts, UInt64.ofNat_toNat]

/-- The period that a timer is in has a step that a prescale can ask for. -/
def IsShort (timer : Timer) : Prop :=
  timer.isRunning = true → timer.latch.stepCycles.toNat ≤ 256

/-- A timer keeps to such steps, if it takes them over from no other. -/
theorem Does.isShort {restorable : Snapshot → Prop} (does : Does restorable timer clock after later)
    (own : ∀ saved, restorable saved → saved.running = true → saved.stepCycles.toNat ≤ 256)
    (short : timer.IsShort) : after.IsShort := by
  intro running
  have step := does.step UInt64.zero_le fun saved _ _ => saved.ahead_zero
  cases step.course with
  | kept phase latch =>
      rw [isRunning, phase] at running
      rw [latch]
      exact short running
  | stopped phase =>
      rw [isRunning, phase] at running
      exact absurd running Bool.false_ne_true
  | begun start expiry _ known =>
      rcases known with regular | ⟨saved, restored, resumed⟩
      · exact regular.short
      · have steps : after.latch.stepCycles = saved.stepCycles := resumed.stepCycles
        rw [steps]
        exact own saved restored resumed.running

theorem History.isShort (history : History timer clock idle) : timer.IsShort := by
  induction history with
  | start => exact fun running => absurd running Bool.false_ne_true
  | perform _ command done short =>
      exact (perform_does done).isShort (fun _ => False.elim) short
  | @restore timer other after clock otherClock later _ _ answer _ _ done short shortOther =>
      have own : ∀ saved, other.snapshot otherClock = saved → saved.running = true →
          saved.stepCycles.toNat ≤ 256 := by
        rintro _ rfl
        exact shortOther
      exact Does.isShort (.restore rfl done) own short
  | increment _ _ _ short => exact short
  | share _ _ short => exact short

/-! ## Rewriting a running timer -/

end Timer

end SocPeripherals
