import SocPeripherals.Proofs.Bus.Lanes
import SocPeripherals.Proofs.Interrupt.Service

/-!
# The ledger of the pending sources

A source is pending as long as it has been posted and nothing has cleared it since. Four things
clear a source: a 1 written over its bit in the pending register, an acknowledgement that names it
in the lowest byte of the vector register, clearing it by its number, and a reset. What one
command makes of the bit of a source is said for every command; the ledger of a whole run follows
by induction on its last command.
-/

namespace SocPeripherals

namespace Interrupt

/-- The command clears a source. -/
def Command.Clears (source : Fin 32) : Command → Prop
  | .write width address value =>
      -- the bit of the source among the written bytes of the pending register
      (registers.get pendingIndex).Covers width address (source / 8) ∧
          value.toNat.testBit (source - 8 * (address.toNat - 8)) = true ∨
        (registers.get vectorIndex).IsLowest width address ∧ value.toNat % 32 = source
  | .clear number => number.toNat = source
  | .reset => True
  | .read .. | .poll | .post _ | .setEnabled _ | .restore _ => False

instance (source : Fin 32) : (command : Command) → Decidable (command.Clears source)
  | .write .. => inferInstanceAs (Decidable (_ ∧ _ ∨ _ ∧ _))
  | .clear _ => inferInstanceAs (Decidable (_ = _))
  | .reset => inferInstanceAs (Decidable True)
  | .read .. | .poll | .post _ | .setEnabled _ | .restore _ => inferInstanceAs (Decidable False)

/-- A source was posted, and nothing has cleared it since. -/
def IsOwed (source : Fin 32) (commands : List Command) : Prop :=
  ∃ earlier later, commands = earlier ++ .post (UInt8.ofNat source) :: later ∧
    ∀ command ∈ later, ¬command.Clears source

/-- What is owed after one more command. -/
theorem isOwed_concat {source : Fin 32} {commands : List Command} {command : Command} :
    IsOwed source (commands ++ [command]) ↔
      ¬command.Clears source ∧
        (IsOwed source commands ∨ command = .post (UInt8.ofNat source)) := by
  constructor
  · rintro ⟨earlier, later, same, spared⟩
    induction later using List.reverseRecOn with
    | nil =>
        obtain ⟨-, last⟩ := List.append_inj' same rfl
        cases last
        exact ⟨id, .inr rfl⟩
    | append_singleton later last _ =>
        rw [← List.cons_append, ← List.append_assoc] at same
        obtain ⟨before, ending⟩ := List.append_inj' same rfl
        cases ending
        exact ⟨spared command (by simp), .inl ⟨earlier, later, before, fun further member =>
          spared further (List.mem_append_left _ member)⟩⟩
  · rintro ⟨spares, ⟨earlier, later, rfl, spared⟩ | rfl⟩
    · refine ⟨earlier, later ++ [command], by simp, fun further member => ?_⟩
      rcases List.mem_append.1 member with member | member
      · exact spared further member
      · rwa [List.mem_singleton.1 member]
    · exact ⟨commands, [], rfl, nofun⟩

/-- The command is about something else than a source: it reads, it changes which sources are
enabled, or it posts or clears another number, whether a source has that number or not. -/
inductive Command.IsAside (source : Fin 32) : Command → Prop where
  | read (width : Width) (address : UInt32) : IsAside source (.read width address)
  | poll : IsAside source .poll
  | setEnabled (mask : UInt32) : IsAside source (.setEnabled mask)
  /-- A bus access of the enable register. -/
  | enable {width : Width} {address : UInt32} (value : UInt32)
      (inside : (registers.get enableIndex).Contains address) :
      IsAside source (.write width address value)
  | post {number : UInt8} (other : number.toNat ≠ source) : IsAside source (.post number)
  | clear {number : UInt8} (other : number.toNat ≠ source) : IsAside source (.clear number)

namespace Command

variable {source : Fin 32} {command : Command}

theorem IsAside.not_clears (aside : command.IsAside source) : ¬command.Clears source := by
  cases aside with
  | read width address => exact id
  | poll => exact id
  | setEnabled mask => exact id
  | post other => exact id
  | clear other => exact other
  | enable value inside =>
      rename_i width address
      have lower := UInt32.le_iff_toNat_le.1 inside.1
      have upper := UInt32.lt_iff_toNat_lt.1 inside.2
      rw [UInt32.toNat_sub_of_le _ _ inside.1] at upper
      change 4 ≤ address.toNat at lower
      change address.toNat - 4 < 4 at upper
      rintro (⟨covers, -⟩ | ⟨lowest, -⟩)
      · have start := UInt32.le_iff_toNat_le.1 covers.1.1
        change 8 ≤ address.toNat at start
        omega
      · have start := congrArg UInt32.toNat lowest.2
        change address.toNat = 0 at start
        omega

theorem IsAside.ne_post (aside : command.IsAside source) :
    command ≠ .post (UInt8.ofNat source) := by
  rintro rfl
  cases aside with
  | post other => exact other (toNat_number source)

theorem IsAside.ne_restore (aside : command.IsAside source) (saved : Snapshot) :
    command ≠ .restore saved := by
  rintro rfl
  cases aside

end Command

namespace Controller

variable {controller : Controller} {source : Fin 32} {command : Command}

/-- The bit of a source is set in the pending register. -/
def IsMarked (controller : Controller) (source : Fin 32) : Prop :=
  controller.pending.toNat.testBit source = true

/-! ## What one command makes of a pending bit -/

theorem isMarked_of_pending_eq {after : Controller} (same : after.pending = controller.pending) :
    after.IsMarked source ↔ controller.IsMarked source := by
  rw [IsMarked, IsMarked, same]

/-- All bits of the pending register can be set. -/
theorem pending_post (controller : Controller) (number : UInt8) :
    (controller.post number).value.pending = controller.pending ||| sourceBit number := by
  rw [post, value_drive]
  exact (Bank.get_put_self _ _ _).trans UInt32.and_neg_one

theorem pending_clear (controller : Controller) (number : UInt8) :
    (controller.clear number).value.pending = controller.pending &&& ~~~sourceBit number := by
  rw [value_clear, pending_without]

/-- The bit of a number lies in a mask where its source does. -/
theorem getLsbD_sourceBit (number : UInt8) (source : Fin 32) :
    (sourceBit number).toBitVec.getLsbD source = decide (number.toNat = source) := by
  have within : UInt8.ofNat source < sourceCount := by
    rw [UInt8.lt_iff_toNat_lt, toNat_number]
    exact source.isLt
  have bit : (sourceBit number).toNat.testBit (UInt8.ofNat source).toNat = true ↔
      number = UInt8.ofNat source := testBit_sourceBit within
  rw [toNat_number, ← UInt8.toNat_inj, toNat_number] at bit
  exact Bool.eq_iff_iff.2 (bit.trans decide_eq_true_iff.symm)

theorem isMarked_post (controller : Controller) (number : UInt8) (source : Fin 32) :
    (controller.post number).value.IsMarked source ↔
      controller.IsMarked source ∨ number.toNat = source := by
  unfold IsMarked
  rw [pending_post]
  change (controller.pending ||| sourceBit number).toBitVec.getLsbD source = true ↔ _
  rw [UInt32.toBitVec_or, BitVec.getLsbD_or, getLsbD_sourceBit, Bool.or_eq_true,
    decide_eq_true_iff]
  rfl

theorem isMarked_clear (controller : Controller) (number : UInt8) (source : Fin 32) :
    (controller.clear number).value.IsMarked source ↔
      number.toNat ≠ source ∧ controller.IsMarked source := by
  unfold IsMarked
  rw [pending_clear]
  change (controller.pending &&& ~~~sourceBit number).toBitVec.getLsbD source = true ↔ _
  rw [UInt32.toBitVec_and, UInt32.toBitVec_not, BitVec.getLsbD_and, BitVec.getLsbD_not,
    getLsbD_sourceBit, decide_eq_true source.isLt, Bool.true_and, ← decide_not, Bool.and_eq_true,
    decide_eq_true_iff, and_comm]
  rfl

theorem registers_apart : Selection.IsApart registers := by decide

variable {width : Width} {address value : UInt32} {selection : Selection registers}

/-- A write that selects no register clears nothing. -/
theorem not_clears_of_missed (missed : Selection.find? registers width address = none) :
    ¬(Command.write width address value).Clears source := by
  rintro (⟨covers, -⟩ | ⟨lowest, -⟩)
  · obtain ⟨selection, found, -⟩ :=
      Selection.find?_of_contains registers_apart covers.valid covers.1
    exact absurd (missed.symm.trans found) nofun
  · exact Selection.not_isLowest_of_missed registers_apart missed lowest

/-- The number that a write to the lowest byte of the vector register names. -/
theorem toNat_acknowledged {lane : Lane} (lowest : lane.IsLowest) (value : UInt32) :
    (lane.place value &&& acknowledgeBits).toUInt8.toNat = value.toNat % 32 := by
  have inside : lane.mask &&& acknowledgeBits = acknowledgeBits := by
    have low : (0xff : UInt32) &&& acknowledgeBits = acknowledgeBits := by decide
    rw [← low, ← UInt32.and_assoc, lowest.mask]
  have named : lane.place value &&& acknowledgeBits = value &&& acknowledgeBits := by
    rw [Lane.place, lowest.shift, UInt32.shiftLeft_zero, UInt32.and_assoc, inside]
  have bits : (value &&& acknowledgeBits).toNat = value.toNat % 32 := by
    rw [UInt32.toNat_and]
    exact Nat.and_two_pow_sub_one_eq_mod _ 5
  rw [named, UInt32.toNat_toUInt8, bits]
  exact Nat.mod_eq_of_lt ((Nat.mod_lt _ (by decide)).trans (by decide))

/-- A write of the vector register clears the source that it names in the lowest byte. -/
theorem clears_iff_of_vector (found : Selection.find? registers width address = some selection)
    (vector : selection.index = vectorIndex) :
    (Command.write width address value).Clears source ↔
      selection.lane.touches vectorBits = true ∧ value.toNat % 32 = source := by
  have valid := Selection.ne_invalid_of_find? found
  have touches : selection.lane.touches vectorBits = true ↔
      (registers.get vectorIndex).IsLowest width address :=
    ((Selection.isLowest_iff registers_apart found).trans (and_iff_right vector)).symm
  rw [touches]
  refine or_iff_right fun selects => ?_
  obtain ⟨other, same, there⟩ := Selection.find?_of_contains registers_apart valid selects.1.1
  cases found.symm.trans same
  exact absurd (vector.symm.trans there) (by decide)

/-- A write of another register clears the sources over whose bits of the pending register it has
a 1. -/
theorem clears_iff_of_ne_vector (found : Selection.find? registers width address = some selection)
    (apart : selection.index ≠ vectorIndex) :
    (Command.write width address value).Clears source ↔
      selection.index = pendingIndex ∧
        (selection.lane.place value).toBitVec.getLsbD source = true := by
  have valid := Selection.ne_invalid_of_find? found
  obtain ⟨contains, lane⟩ := Selection.contains_of_find? found
  have unnamed : ¬((registers.get vectorIndex).IsLowest width address ∧
      value.toNat % 32 = source) := fun named =>
    apart ((Selection.isLowest_iff registers_apart found).1 named.1).1
  refine (or_iff_left unnamed).trans ?_
  by_cases here : selection.index = pendingIndex
  · rw [Selection.register, here] at contains lane
    rw [and_iff_right here, lane, Register.getLsbD_place contains value source.isLt,
      Bool.and_eq_true, decide_eq_true_iff]
    rfl
  · refine iff_of_false (fun selects => ?_) fun selects => here selects.1
    obtain ⟨other, same, there⟩ := Selection.find?_of_contains registers_apart valid selects.1.1
    cases found.symm.trans same
    exact here there

/-- What a write stores leaves the pending register alone, unless it selects it. -/
theorem pending_of_ne (controller : Controller) (value : UInt32)
    (apart : selection.index ≠ pendingIndex) :
    (controller.bank.write selection value).2.get pendingIndex = controller.pending :=
  Bank.get_write_of_ne _ apart _

/-- A write of the pending register clears the bits over which it has a 1. -/
theorem pending_of_eq (controller : Controller) (value : UInt32)
    (here : selection.index = pendingIndex) :
    (controller.bank.write selection value).2.get pendingIndex =
      controller.pending &&& ~~~selection.lane.place value := by
  unfold Bank.write pending
  rw [← here, Bank.get_put_self, Selection.register, here]
  rfl

theorem isMarked_write (controller : Controller) (width : Width) (address value : UInt32)
    (source : Fin 32) : (controller.write width address value).value.IsMarked source ↔
      ¬(Command.write width address value).Clears source ∧ controller.IsMarked source := by
  unfold write
  rw [Traced.value_bind, Selection.value_noted]
  split
  next missed => exact (and_iff_right (not_clears_of_missed missed)).symm
  next selection found =>
    dsimp only
    split
    next vector =>
      rw [clears_iff_of_vector found vector]
      have latched : pending { controller with
          bank := (controller.bank.write selection value).2.set vectorIndex
            ((controller.bank.write selection value).1.new &&& latchBits) } =
          controller.pending := by
        refine (Bank.get_set_of_ne _ (by decide) _).trans (pending_of_ne controller value ?_)
        rw [vector]
        decide
      split
      next touched =>
        have lowest : selection.lane.IsLowest := by
          obtain ⟨contains, lane⟩ := Selection.contains_of_find? found
          have covers := (Selection.touches_lowest_iff found).1 touched
          rw [lane]
          exact covers.lane ((registers_apart selection.index).1)
        rw [Traced.value_bind, isMarked_clear, isMarked_of_pending_eq latched,
          toNat_acknowledged lowest, and_iff_right touched]
      next missed =>
        rw [Traced.value_pure, isMarked_of_pending_eq latched]
        exact (and_iff_right fun clears => missed clears.1).symm
    next apart =>
      rw [clears_iff_of_ne_vector found apart, value_drive]
      change (((controller.bank.write selection value).2.get pendingIndex).toNat.testBit source
        = true) ↔ _
      by_cases here : selection.index = pendingIndex
      · rw [pending_of_eq controller value here, and_iff_right here]
        change (controller.pending &&& ~~~selection.lane.place value).toBitVec.getLsbD source = true
          ↔ _
        rw [UInt32.toBitVec_and, UInt32.toBitVec_not, BitVec.getLsbD_and, BitVec.getLsbD_not,
          decide_eq_true source.isLt, Bool.true_and, Bool.and_eq_true, Bool.not_eq_true',
          and_comm, Bool.not_eq_true]
        rfl
      · rw [pending_of_ne controller value here]
        exact (and_iff_right fun clears => here clears.1).symm

/-- What one command makes of the bit of a source. -/
theorem isMarked_perform (built : controller.bank.Built) (source : Fin 32)
    (runs : ∀ saved, command ≠ .restore saved) :
    (controller.perform command).value.2.IsMarked source ↔
      ¬command.Clears source ∧
        (controller.IsMarked source ∨ command = .post (UInt8.ofNat source)) := by
  have unposted (apart : command ≠ .post (UInt8.ofNat source)) :
      controller.IsMarked source ∨ command = .post (UInt8.ofNat source) ↔
        controller.IsMarked source := or_iff_left apart
  cases command with
  | read width address =>
      have kept : (controller.perform (.read width address)).value.2 = controller :=
        (read_eq_self controller width address).1
      rw [kept, unposted nofun]
      exact (and_iff_right id).symm
  | write width address value =>
      rw [unposted nofun]
      exact isMarked_write controller width address value source
  | poll =>
      rw [unposted nofun]
      exact (and_iff_right id).symm
  | reset =>
      have none : (controller.perform .reset).value.2.pending = 0 := by
        change controller.reset.value.pending = 0
        rw [reset, value_drive, Bank.reset_eq_initial built.resets]
        rfl
      rw [IsMarked, none]
      exact iff_of_false (by simp) fun spared => spared.1 trivial
  | post number =>
      have named : number.toNat = source ↔ Command.post number = .post (UInt8.ofNat source) := by
        rw [Command.post.injEq, ← UInt8.toNat_inj, toNat_number]
      rw [← named]
      exact (isMarked_post controller number source).trans (and_iff_right id).symm
  | clear number =>
      rw [unposted nofun]
      exact isMarked_clear controller number source
  | setEnabled mask =>
      rw [unposted nofun]
      have kept : (controller.setEnabled mask).value.pending = controller.pending := by
        rw [setEnabled, value_drive]
        exact Bank.get_set_of_ne _ (by decide) _
      exact (isMarked_of_pending_eq kept).trans (and_iff_right id).symm
  | restore saved => exact absurd rfl (runs saved)

/-! ## Runs -/

theorem performAll_concat (controller : Controller) (commands : List Command) (command : Command) :
    (controller.performAll (commands ++ [command])).value.2 =
      ((controller.performAll commands).value.2.perform command).value.2 := by
  induction commands generalizing controller with
  | nil => rfl
  | cons first rest ih => exact ih (controller.perform first).value.2

theorem performAll_built (built : controller.bank.Built) (commands : List Command) :
    (controller.performAll commands).value.2.bank.Built := by
  induction commands generalizing controller with
  | nil => exact built
  | cons command rest ih =>
      have evolves := perform_evolves controller command
      exact ih ⟨evolves.resets.trans built.resets, evolves.fits built.fits⟩

/-- At power-on nothing is pending, and each command of a run does to the bit of a source what it
does to what is owed to that source. -/
theorem isMarked_performAll {commands : List Command} (runs : ∀ saved, .restore saved ∉ commands)
    (source : Fin 32) :
    (Controller.performAll {} commands).value.2.IsMarked source ↔ IsOwed source commands := by
  have built : ({} : Controller).bank.Built := ⟨rfl, Bank.fits_initial (by decide)⟩
  induction commands using List.reverseRecOn with
  | nil =>
      refine iff_of_false ?_ ?_
      · have none : ({} : Controller).pending = 0 := rfl
        change ¬({} : Controller).IsMarked source
        rw [IsMarked, none]
        simp
      · rintro ⟨earlier, later, same, -⟩
        exact absurd same (by simp)
  | append_singleton commands command ih =>
      have before := ih fun saved member => runs saved (List.mem_append_left _ member)
      rw [performAll_concat, isOwed_concat]
      refine (isMarked_perform (performAll_built built commands) source fun saved same => ?_).trans
        (and_congr_right fun _ => or_congr_left before)
      exact runs saved (by simp [same])

/-- From power-on, whatever has been done to the controller but to restore it: a word read of the
pending register shows the pending sources, and a source is among them just if it has been posted
and no write over its bit of the pending register, no acknowledgement of its number, no clearing of
its number and no reset has come since. Nothing that is about something else changes its bit. -/
theorem ledger_of_history (commands : List Command) (runs : ∀ saved, .restore saved ∉ commands)
    (source : Fin 32) :
    let controller := (Controller.performAll {} commands).value.2
    (controller.read .word 8).value.1 = controller.pending ∧
      (controller.pending.toNat.testBit source = true ↔
        ∃ earlier later, commands = earlier ++ .post (UInt8.ofNat source) :: later ∧
          ∀ command ∈ later, ¬command.Clears source) ∧
      ∀ command : Command, command.IsAside source →
        (controller.perform command).value.2.pending.toNat.testBit source =
          controller.pending.toNat.testBit source := by
  intro controller
  have built : controller.bank.Built :=
    performAll_built ⟨rfl, Bank.fits_initial (by decide)⟩ commands
  refine ⟨?_, isMarked_performAll runs source, fun command aside => ?_⟩
  · have found : Selection.find? registers .word 8 = some (.whole registers pendingIndex) := by
      decide
    unfold read
    rw [Traced.value_bind, Selection.value_noted, found]
    exact Bank.read_whole built.fits pendingIndex
  · refine Bool.eq_iff_iff.2 ((isMarked_perform built source aside.ne_restore).trans ?_)
    rw [and_iff_right aside.not_clears]
    exact or_iff_left aside.ne_post

/-- A byte written to the third byte of the pending register clears source 20 and not source 17,
which is pending again after it has been acknowledged by the five lowest bits of a word; posting a
number past the last source does not change that. -/
theorem ledger_of_posts :
    let commands : List Command := [.post 17, .post 20, .write .byte 10 0x10,
      .write .word 0 0xf1, .post 17, .write .byte 8 0xff]
    let controller := (Controller.performAll {} commands).value.2
    (∀ saved, .restore saved ∉ commands) ∧
      controller.pending.toNat.testBit 17 = true ∧
      ¬controller.pending.toNat.testBit 20 = true ∧
      (controller.post 0xff).value.pending.toNat.testBit 17 =
        controller.pending.toNat.testBit 17 := by
  intro commands controller
  have runs : ∀ saved, .restore saved ∉ commands := by simp [commands]
  obtain ⟨-, posted, aside⟩ := ledger_of_history commands runs 17
  refine ⟨runs, ?_, by decide, aside (.post 0xff) (.post (by decide))⟩
  exact posted.2 ⟨[.post 17, .post 20, .write .byte 10 0x10, .write .word 0 0xf1],
    [.write .byte 8 0xff], rfl, by decide⟩

end Controller

end Interrupt

end SocPeripherals
