import SocPeripherals.Register.Access
import SocPeripherals.Register.Bank

/-!
# Values that fit their registers

Every value that a bank stores has no bits beyond the width of its register. A bank of which
this holds comes back unchanged when its saved values are loaded.
-/

namespace SocPeripherals

/-- The value has no bits beyond the width. -/
def Width.Fits (width : Width) (value : UInt32) : Prop := value &&& width.mask = value

namespace Width

variable {width : Width} {value other : UInt32}

instance (width : Width) (value : UInt32) : Decidable (width.Fits value) :=
  inferInstanceAs (Decidable (_ = _))

theorem fits_iff : width.Fits value ↔
    ∀ position, value.toBitVec.getLsbD position = true →
      width.mask.toBitVec.getLsbD position = true := by
  unfold Fits
  rw [← UInt32.toBitVec_inj, UInt32.toBitVec_and]
  constructor
  · intro same position bit
    rw [← same, BitVec.getLsbD_and, Bool.and_eq_true] at bit
    exact bit.2
  · intro inside
    refine BitVec.eq_of_getLsbD_eq fun position _ => ?_
    rw [BitVec.getLsbD_and]
    cases bit : value.toBitVec.getLsbD position with
    | false => rfl
    | true => rw [inside position bit]; rfl

theorem fits_mask (width : Width) (value : UInt32) : width.Fits (value &&& width.mask) := by
  rw [Fits, UInt32.and_assoc, UInt32.and_self]

theorem Fits.and_left (fits : width.Fits other) : width.Fits (value &&& other) := by
  rw [Fits, UInt32.and_assoc, fits]

theorem Fits.and_right (fits : width.Fits value) : width.Fits (value &&& other) := by
  rw [UInt32.and_comm]
  exact fits.and_left

theorem Fits.or (fits : width.Fits value) (fitsOther : width.Fits other) :
    width.Fits (value ||| other) := by
  rw [fits_iff] at *
  intro position bit
  rw [UInt32.toBitVec_or, BitVec.getLsbD_or, Bool.or_eq_true] at bit
  exact bit.elim (fits position) (fitsOther position)

end Width

/-- Lanes of the register, without bits beyond its width. -/
def Selection.Proper {table : List Register} (selection : Selection table) : Prop :=
  selection.register.width.Fits selection.lane.mask

namespace Selection

variable {table : List Register} {width : Width} {address : UInt32} {selection : Selection table}

theorem proper_of_find? (found : find? table width address = some selection) :
    selection.Proper := by
  unfold Proper
  rw [(contains_of_find? found).2]
  exact Width.fits_mask _ _

@[simp]
theorem value_noted {ε : Type} (note : Note → ε) (device : String) :
    (noted note device table width address).value = find? table width address := rfl

end Selection

namespace Bank

variable {table : List Register} {bank other : Bank table} {index : Fin table.length}
  {value : UInt32} {selection : Selection table}

/-- The stored values and the power-on values have no bits beyond the widths of their
registers. -/
structure Fits (bank : Bank table) : Prop where
  stored : ∀ index : Fin table.length, (table.get index).width.Fits (bank.get index)
  resets : ∀ index : Fin table.length, (table.get index).width.Fits (bank.resetValue index)

theorem ext_get (same : ∀ index, bank.get index = other.get index)
    (sameResets : bank.resets = other.resets) : bank = other := by
  obtain ⟨values, resets⟩ := bank
  obtain ⟨valuesOther, resetsOther⟩ := other
  have values_eq : values = valuesOther :=
    Vector.ext fun position within => same ⟨position, within⟩
  subst values_eq sameResets
  rfl

theorem get_put (bank : Bank table) (index other : Fin table.length) (value : UInt32) :
    (bank.put index value).get other = if index = other then value else bank.get other := by
  split
  next same => rw [← same, get_put_self]
  next apart => exact get_put_of_ne bank apart value

theorem put_get (bank : Bank table) (index : Fin table.length) :
    bank.put index (bank.get index) = bank := by
  rw [put, get, Parts.set_getElem]

theorem put_put (bank : Bank table) (index : Fin table.length) (first second : UInt32) :
    (bank.put index first).put index second = bank.put index second := by
  simp [put]

theorem Fits.put (fits : bank.Fits) (fitsValue : (table.get index).width.Fits value) :
    (bank.put index value).Fits where
  stored position := by
    by_cases same : index = position
    · subst same
      rw [get_put_self]
      exact fitsValue
    · rw [get_put_of_ne bank same]
      exact fits.stored position
  resets := fits.resets

theorem Fits.set (fits : bank.Fits) (index : Fin table.length) (value : UInt32) :
    (bank.set index value).Fits :=
  fits.put (Width.fits_mask _ _)

theorem Fits.setBits (fits : bank.Fits) (index : Fin table.length) (bits : UInt32) :
    (bank.setBits index bits).Fits :=
  fits.set index _

theorem Fits.clearBits (fits : bank.Fits) (index : Fin table.length) (bits : UInt32) :
    (bank.clearBits index bits).Fits :=
  fits.set index _

theorem Fits.reset (fits : bank.Fits) : bank.reset.Fits := ⟨fits.resets, fits.resets⟩

theorem Fits.withReset (fits : bank.Fits) (index : Fin table.length) (value : UInt32) :
    (bank.withReset index value).Fits where
  stored := (fits.set index value).stored
  resets position := by
    by_cases same : index = position
    · subst same
      rw [resetValue, Bank.withReset, Parts.getElem_set_self]
      exact Width.fits_mask _ _
    · have kept : (bank.withReset index value).resetValue position = bank.resetValue position :=
        Parts.getElem_set_of_ne _ _ same
      rw [kept]
      exact fits.resets position

@[simp]
theorem get_initial (index : Fin table.length) :
    (initial table).get index = (table.get index).reset := by
  simp [initial, get]

/-- A bank of a table's power-on values is reset to the bank at power-on. -/
theorem reset_eq_initial (same : bank.resets = (initial table).resets) :
    bank.reset = initial table := by
  obtain ⟨values, resets⟩ := bank
  cases same
  rfl

theorem fits_initial (fits : ∀ index : Fin table.length,
    (table.get index).width.Fits (table.get index).reset) : (initial table).Fits := by
  have stored : ∀ index : Fin table.length,
      (table.get index).width.Fits ((initial table).get index) := by
    intro index
    rw [get_initial]
    exact fits index
  exact ⟨stored, stored⟩

theorem Fits.read (fits : bank.Fits) (selection : Selection table) :
    (bank.read selection).2.Fits := by
  unfold Bank.read
  split
  next => exact fits
  next => exact fits.put (fits.stored _).and_right
  all_goals exact fits

theorem Fits.write (fits : bank.Fits) (proper : selection.Proper) (value : UInt32) :
    (bank.write selection value).2.Fits := by
  refine fits.put ?_
  have old := fits.stored selection.index
  split
  next => exact old.and_right.or proper.and_left
  next => exact old.and_right.or proper.and_left
  next => exact old.and_right
  next => exact old
  next => exact old

@[simp]
theorem resets_read (bank : Bank table) (selection : Selection table) :
    (bank.read selection).2.resets = bank.resets := by
  unfold Bank.read
  split <;> rfl

@[simp]
theorem resets_write (bank : Bank table) (selection : Selection table) (value : UInt32) :
    (bank.write selection value).2.resets = bank.resets := rfl

theorem resets_of_load? {values : List UInt32} (loaded : bank.load? values = some other) :
    other.resets = bank.resets := by
  unfold load? at loaded
  split at loaded
  next => cases loaded; rfl
  next => contradiction

theorem Fits.load? (fits : bank.Fits) {values : List UInt32}
    (loaded : bank.load? values = some other) : other.Fits := by
  unfold Bank.load? at loaded
  split at loaded
  next same =>
    cases loaded
    refine ⟨fun index => ?_, fits.resets⟩
    rw [get, Parts.getElem_ofFn]
    exact Width.fits_mask _ _
  next => contradiction

/-- Saved values that fit are loaded as they are. -/
theorem load?_toList (fits : bank.Fits) (sameResets : other.resets = bank.resets) :
    other.load? bank.toList = some bank := by
  have same : bank.toList.length = table.length := length_toList bank
  unfold load?
  rw [dif_pos same, Option.some_inj]
  refine ext_get (fun index => ?_) sameResets
  have stored : bank.values[index.val] &&& (table.get index).width.mask = bank.values[index.val] :=
    fits.stored index
  simp only [get, toList, Parts.getElem_fin, Vector.getElem_ofFn, List.get_eq_getElem,
    Vector.getElem_toList]
  exact stored

end Bank

/-! ## Reading whole registers -/

namespace Selection

/-- The whole of a register. -/
def whole (table : List Register) (index : Fin table.length) : Selection table :=
  ⟨index, ⟨0, (table.get index).width.mask, true⟩⟩

@[simp]
theorem index_whole (table : List Register) (index : Fin table.length) :
    (whole table index).index = index := rfl

@[simp]
theorem register_whole (table : List Register) (index : Fin table.length) :
    (whole table index).register = table.get index := rfl

/-- An access of a register's width at its offset covers just the register. -/
def IsDistinct (table : List Register) : Prop :=
  ∀ index : Fin table.length,
    find? table (table.get index).width (table.get index).offset = some (whole table index)

instance (table : List Register) : Decidable (IsDistinct table) :=
  inferInstanceAs (Decidable (∀ _, _))

end Selection

/-- What a bus read of the whole register gives while it stores its power-on value. -/
def Register.stored (register : Register) : UInt32 :=
  if register.access = .writeOnly then 0 else register.reset

namespace Bank

variable {table : List Register} {bank : Bank table}

theorem read_whole (fits : bank.Fits) (index : Fin table.length) :
    (bank.read (Selection.whole table index)).1
      = if (table.get index).access = .writeOnly then 0 else bank.get index := by
  have value : (Selection.whole table index).lane.extract (bank.get index) = bank.get index := by
    have covered : bank.get index &&& (Selection.whole table index).lane.mask = bank.get index :=
      fits.stored index
    unfold Lane.extract
    rw [covered]
    exact UInt32.shiftRight_zero
  unfold read
  rw [Selection.register_whole]
  cases (table.get index).access <;> simp [value]

theorem read_initial (fits : (initial table).Fits) (index : Fin table.length) :
    ((initial table).read (Selection.whole table index)).1 = (table.get index).stored := by
  rw [read_whole fits, get_initial]
  rfl

end Bank

/-! ## Some bits of a value -/

/-- Values with the same bits. -/
theorem eq_of_bits {first second : UInt32} (same : ∀ position < 32,
    first.toBitVec.getLsbD position = second.toBitVec.getLsbD position) : first = second :=
  UInt32.toBitVec_inj.1 (BitVec.eq_of_getLsbD_eq same)

/-- The bit of a mask that has no other. -/
theorem and_bit_ne_zero_iff (bits value : UInt32) (place : Nat)
    (single : ∀ position < 32, bits.toBitVec.getLsbD position = decide (position = place))
    (within : place < 32) : value &&& bits ≠ 0 ↔ value.toBitVec.getLsbD place = true := by
  rw [ne_eq, ← UInt32.toBitVec_inj, UInt32.toBitVec_and]
  constructor
  · intro some
    cases unset : value.toBitVec.getLsbD place with
    | true => rfl
    | false =>
        refine absurd (BitVec.eq_of_getLsbD_eq fun position below => ?_) some
        rw [BitVec.getLsbD_and, single position below]
        by_cases here : position = place
        · simp [here, unset]
        · simp [here]
  · intro set none
    have bit := congrArg (fun mask => mask.getLsbD place) none
    simp [set, single place within] at bit

namespace Change

variable {bits : UInt32} {place : Nat}

/-- A bit rises where it is set and was not. -/
theorem rising_iff (change : Change)
    (single : ∀ position < 32, bits.toBitVec.getLsbD position = decide (position = place))
    (within : place < 32) : change.rising &&& bits ≠ 0 ↔
      change.new &&& bits ≠ 0 ∧ ¬ change.old &&& bits ≠ 0 := by
  simp only [and_bit_ne_zero_iff bits _ place single within]
  simp [rising, within, and_comm]

/-- A bit falls where it was set and is not. -/
theorem falling_iff (change : Change)
    (single : ∀ position < 32, bits.toBitVec.getLsbD position = decide (position = place))
    (within : place < 32) : change.falling &&& bits ≠ 0 ↔
      change.old &&& bits ≠ 0 ∧ ¬ change.new &&& bits ≠ 0 := by
  simp only [and_bit_ne_zero_iff bits _ place single within]
  simp [falling, within]

end Change

theorem and_and_eq_zero {value others : UInt32} (none : value &&& others = 0)
    (mask : UInt32) : value &&& mask &&& others = 0 := by
  rw [UInt32.and_assoc, UInt32.and_comm mask, ← UInt32.and_assoc, none, UInt32.zero_and]

theorem or_and_distrib (first second mask : UInt32) :
    (first ||| second) &&& mask = first &&& mask ||| second &&& mask :=
  UInt32.toBitVec_inj.1 BitVec.and_or_distrib_right

theorem or_and_eq_zero {value bits others : UInt32} (none : value &&& others = 0)
    (within : bits &&& others = 0) : (value ||| bits) &&& others = 0 := by
  rw [or_and_distrib, none, within, UInt32.or_zero]

theorem and_not_of_and_eq_zero {value bits : UInt32} (none : value &&& bits = 0) :
    value &&& ~~~bits = value := by
  have parts : value &&& ~~~bits ||| value &&& bits = value := by
    rw [UInt32.and_comm value, UInt32.and_comm value, ← or_and_distrib, UInt32.not_or_self,
      UInt32.neg_one_and]
  rw [none, UInt32.or_zero] at parts
  exact parts

theorem and_not_or (value first second : UInt32) :
    value &&& ~~~(first ||| second) = value &&& ~~~first &&& ~~~second := by
  apply eq_of_bits
  intro position below
  simp [below, Bool.and_assoc]

/-- Bits that are cleared together with others of a mask. -/
theorem and_not_and_not {mask bits all : UInt32} (within : bits &&& all = bits) :
    mask &&& ~~~bits &&& ~~~all = mask &&& ~~~all := by
  have joined : ~~~bits &&& ~~~all = ~~~all := by
    apply eq_of_bits
    intro position below
    have bit := congrArg (fun word => word.toBitVec.getLsbD position) within
    simp [below] at bit ⊢
    grind
  rw [UInt32.and_assoc, joined]

/-- A value without some bits is without each of them. -/
theorem and_eq_zero_of_within {value bits others : UInt32} (none : value &&& others = 0)
    (within : others &&& bits = bits) : value &&& bits = 0 := by
  rw [← within, ← UInt32.and_assoc, none, UInt32.zero_and]

namespace Bank

variable {table : List Register} {bank : Bank table} {index : Fin table.length}
  {bits others : UInt32}

theorem clearBits_without (none : bank.get index &&& others = 0) (bits : UInt32) :
    (bank.clearBits index bits).get index &&& others = 0 := by
  rw [clearBits, set, get_put_self]
  exact and_and_eq_zero (and_and_eq_zero none _) _

theorem clearBits_clears (bank : Bank table) (index : Fin table.length) (bits : UInt32) :
    (bank.clearBits index bits).get index &&& bits = 0 := by
  rw [clearBits, set, get_put_self]
  refine and_and_eq_zero ?_ _
  rw [UInt32.and_assoc, UInt32.not_and_self, UInt32.and_zero]

theorem setBits_without (none : bank.get index &&& others = 0) (within : bits &&& others = 0) :
    (bank.setBits index bits).get index &&& others = 0 := by
  rw [setBits, set, get_put_self]
  exact and_and_eq_zero (or_and_eq_zero none within) _

/-- Bits of a register after others have been set. -/
theorem setBits_and (bank : Bank table)
    (within : (table.get index).width.mask &&& others = others) (bits : UInt32) :
    (bank.setBits index bits).get index &&& others
      = bank.get index &&& others ||| bits &&& others := by
  rw [setBits, set, get_put_self, UInt32.and_assoc, within, or_and_distrib]

/-- Bits of a register after others have been cleared. -/
theorem clearBits_and (bank : Bank table)
    (within : (table.get index).width.mask &&& others = others) (bits : UInt32) :
    (bank.clearBits index bits).get index &&& others
      = bank.get index &&& (~~~bits &&& others) := by
  rw [clearBits, set, get_put_self, UInt32.and_assoc, within, UInt32.and_assoc]

/-- What a device stores into a register leaves the others. -/
theorem get_set_of_ne (bank : Bank table) {index other : Fin table.length}
    (distinct : index ≠ other) (value : UInt32) :
    (bank.set index value).get other = bank.get other :=
  get_put_of_ne bank distinct _

/-- A bus write to another register. -/
theorem get_write_of_ne (bank : Bank table) {selection : Selection table} {other : Fin table.length}
    (distinct : selection.index ≠ other) (value : UInt32) :
    (bank.write selection value).2.get other = bank.get other :=
  get_put_of_ne bank distinct _

end Bank

end SocPeripherals
