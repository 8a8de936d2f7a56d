import SocPeripherals.Device
import SocPeripherals.Proofs.Register
import SocPeripherals.Proofs.Run

/-!
# What the interrupt controller does

Every operation leaves the line at the level that the masks call for, if it found it there.
-/

namespace SocPeripherals

namespace Interrupt

/-- A source has a bit of its own. -/
theorem testBit_sourceBit {source other : UInt8} (within : source < sourceCount) :
    (sourceBit other).toNat.testBit source.toNat = true ↔ other = source := by
  rw [UInt8.lt_iff_toNat_lt] at within
  change source.toNat < 32 at within
  unfold sourceBit
  split
  next small =>
    rw [UInt8.lt_iff_toNat_lt] at small
    change other.toNat < 32 at small
    rw [UInt32.toNat_shiftLeft, UInt8.toNat_toUInt32, Nat.mod_eq_of_lt small, UInt32.toNat_one,
      Nat.one_shiftLeft, Nat.testBit_mod_two_pow, Nat.testBit_two_pow, ← UInt8.toNat_inj]
    simp [within]
  next large =>
    refine iff_of_false (by simp) ?_
    rintro rfl
    exact large (UInt8.lt_iff_toNat_lt.2 within)

namespace Controller

variable {controller between after : Controller}

/-- The line is at the level that the masks call for. -/
def IsDriven (controller : Controller) : Prop := controller.line = controller.demands

/-- What becomes of the controller. -/
structure Evolves (controller after : Controller) : Prop where
  resets : after.bank.resets = controller.bank.resets
  fits : controller.bank.Fits → after.bank.Fits
  driven : controller.IsDriven → after.IsDriven

theorem Evolves.refl (controller : Controller) : Evolves controller controller := ⟨rfl, id, id⟩

theorem Evolves.trans (first : Evolves controller between) (second : Evolves between after) :
    Evolves controller after where
  resets := second.resets.trans first.resets
  fits fits := second.fits (first.fits fits)
  driven driven := second.driven (first.driven driven)

/-- Storing into the registers and driving the line. -/
theorem drive_evolves {bank : Bank registers} (resets : bank.resets = controller.bank.resets)
    (fits : controller.bank.Fits → bank.Fits) :
    Evolves controller (drive { controller with bank }).value := by
  rw [value_drive]
  exact ⟨resets, fits, fun _ => rfl⟩

theorem post_evolves (controller : Controller) (source : UInt8) :
    Evolves controller (controller.post source).value :=
  drive_evolves rfl fun fits => fits.setBits pendingIndex _

theorem clear_evolves (controller : Controller) (source : UInt8) :
    Evolves controller (controller.clear source).value :=
  drive_evolves rfl fun fits => fits.clearBits pendingIndex _

theorem hear_evolves (controller : Controller) (signal : Signal) :
    Evolves controller (controller.hear signal).value := by
  cases signal with
  | note remark => exact .refl controller
  | interrupt source => exact post_evolves controller source
  | transmit uart byte => exact .refl controller
  | host call => exact .refl controller

theorem hearAll_evolves (controller : Controller) (signals : List Signal) :
    Evolves controller (controller.hearAll signals).value := by
  induction signals generalizing controller with
  | nil => exact .refl controller
  | cons signal rest ih =>
      exact (hear_evolves controller signal).trans (ih (controller.hear signal).value)

theorem read_eq (bank : Bank registers) (selection : Selection registers) :
    (bank.read selection).2 = bank := by
  have access : ∀ index : Fin registers.length, (registers.get index).access = .readWrite ∨
      (registers.get index).access = .writeOneToClear := by
    decide
  unfold Bank.read Selection.register
  rcases access selection.index with rule | rule <;> rw [rule]

theorem read_evolves (controller : Controller) (width : Width) (address : UInt32) :
    Evolves controller (controller.read width address).value.2 := by
  unfold read
  rw [Traced.value_bind, Selection.value_noted]
  split
  next => exact .refl controller
  next selection _ =>
    split
    next => exact .refl controller
    next =>
      change Evolves controller { controller with bank := (controller.bank.read selection).2 }
      rw [read_eq]
      exact .refl controller

/-- Only the vector register is changed, which takes no part in driving the line. -/
theorem latch_evolves {bank : Bank registers} (resets : bank.resets = controller.bank.resets)
    (fits : controller.bank.Fits → bank.Fits)
    (pending : bank.get pendingIndex = controller.bank.get pendingIndex)
    (enabled : bank.get enableIndex = controller.bank.get enableIndex) :
    Evolves controller { controller with bank } where
  resets := resets
  fits := fits
  driven driven := by
    unfold IsDriven demands active Controller.pending Controller.enabled at *
    rw [pending, enabled]
    exact driven

/-- A write to the vector register, before a source is acknowledged. -/
theorem latched_evolves (controller : Controller) {selection : Selection registers}
    (proper : selection.Proper) (vector : selection.index = vectorIndex) (value : UInt32) :
    Evolves controller { controller with
      bank := (controller.bank.write selection value).2.set vectorIndex
        ((controller.bank.write selection value).1.new &&& latchBits) } := by
  refine latch_evolves rfl (fun fits => (fits.write proper value).set vectorIndex _) ?_ ?_
  · unfold Bank.set Bank.write
    rw [Bank.get_put_of_ne _ (by decide), vector, Bank.get_put_of_ne _ (by decide)]
  · unfold Bank.set Bank.write
    rw [Bank.get_put_of_ne _ (by decide), vector, Bank.get_put_of_ne _ (by decide)]

theorem write_evolves (controller : Controller) (width : Width) (address value : UInt32) :
    Evolves controller (controller.write width address value).value := by
  unfold write
  rw [Traced.value_bind, Selection.value_noted]
  split
  next => exact .refl controller
  next selection found =>
    have proper := Selection.proper_of_find? found
    dsimp only
    split
    next vector =>
      have latched := latched_evolves controller proper vector value
      split
      next => exact latched.trans (clear_evolves _ _)
      next => exact latched
    next => exact drive_evolves rfl fun fits => fits.write proper value

theorem reset_evolves (controller : Controller) : Evolves controller controller.reset.value :=
  drive_evolves rfl Bank.Fits.reset

theorem restore_evolves (controller : Controller) (saved : Snapshot) :
    Evolves controller (controller.restore saved).value.2 := by
  unfold restore
  split
  next => exact .refl controller
  next bank loaded =>
    exact drive_evolves (Bank.resets_of_load? loaded) fun fits => fits.load? loaded

/-! ## Everything the controller does -/

/-- An operation of the controller, with what it leaves. -/
inductive Does (restorable : Snapshot → Prop) (controller : Controller) : Controller → Prop where
  | read (width : Width) (address : UInt32) :
      Does restorable controller (controller.read width address).value.2
  | write (width : Width) (address value : UInt32) :
      Does restorable controller (controller.write width address value).value
  /-- The controller hears what the devices signal. -/
  | hear (signals : List Signal) : Does restorable controller (controller.hearAll signals).value
  | reset : Does restorable controller controller.reset.value
  | restore {saved : Snapshot} (own : restorable saved) :
      Does restorable controller (controller.restore saved).value.2

theorem Does.evolves {restorable : Snapshot → Prop} (does : Does restorable controller after) :
    Evolves controller after := by
  cases does with
  | read width address => exact read_evolves controller width address
  | write width address value => exact write_evolves controller width address value
  | hear signals => exact hearAll_evolves controller signals
  | reset => exact reset_evolves controller
  | restore known => exact restore_evolves controller _

/-! ## Hearing a device -/

/-- What is signalled is heard piece by piece. -/
theorem hearAll_append (controller : Controller) (first second : List Signal) :
    controller.hearAll (first ++ second)
      = controller.hearAll first >>= fun heard => heard.hearAll second := by
  induction first generalizing controller with
  | nil => simp [hearAll]
  | cons signal rest ih => simp [hearAll, ih]

/-- A device that signals nothing leaves the controller as it is. -/
theorem relay_of_silent {α : Type} (controller : Controller) {run : Run Signal α}
    (silent : run.IsSilent) :
    controller.relay run = ⟨run.outcome.map fun answer => (answer, controller), []⟩ := by
  unfold Run.IsSilent at silent
  unfold relay
  rw [silent]
  rfl

/-- A device that acts is heard. -/
theorem relay_ensures {α : Type} (controller : Controller) {run : Run Signal α} {holds : α → Prop}
    (ensured : run.Ensures holds) :
    (controller.relay run).Ensures fun (answer, heard) =>
      holds answer ∧ heard = (controller.hearAll run.signals).value := by
  rintro ⟨answer, heard⟩ done
  unfold relay at done
  cases ran : run.outcome with
  | error fault =>
      rw [ran] at done
      contradiction
  | ok value =>
      rw [ran] at done
      cases done
      exact ⟨ensured answer ran, rfl⟩

end Controller

end Interrupt

end SocPeripherals
