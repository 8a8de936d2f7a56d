import SocPeripherals.Proofs.Register

/-!
# Bits beyond the widths of registers

Whatever a device or the bus stores in a bank is cut to the width of its register. Only the table
itself is taken at its word: a power-on value with bits beyond the width of its register is stored
as it is, the bus leaves those bits alone, and they stay, or come back with a reset, until the
device stores something in their place. So the values of a bank fit their registers unless such a
power-on value is still stored, or will be after a reset.
-/

namespace SocPeripherals

/-- The bits of a value beyond a width. -/
def Width.strays (width : Width) (value : UInt32) : UInt32 := value &&& ~~~width.mask

namespace Width

variable {width : Width} {value bits : UInt32}

theorem fits_iff_strays : width.Fits value ↔ width.strays value = 0 := by
  constructor
  · intro fits
    rw [strays, ← fits, UInt32.and_assoc, UInt32.and_not_self, UInt32.and_zero]
  · intro none
    have same := and_not_of_and_eq_zero none
    rwa [UInt32.not_not] at same

theorem strays_of_fits (fits : width.Fits value) : width.strays value = 0 := fits_iff_strays.1 fits

/-- Bits within the width are cleared without a trace beyond it. -/
theorem strays_and_not (fits : width.Fits bits) (value : UInt32) :
    width.strays (value &&& ~~~bits) = width.strays value :=
  and_not_and_not fits

/-- Bits within the width are set without a trace beyond it. -/
theorem strays_or (fits : width.Fits bits) (value : UInt32) :
    width.strays (value ||| bits) = width.strays value := by
  have none : bits &&& ~~~width.mask = 0 := strays_of_fits fits
  rw [strays, or_and_distrib, none, UInt32.or_zero, strays]

end Width

/-- Lanes within the width of a register keep what is beyond it. -/
theorem Lane.strays_merge {lane : Lane} {width : Width} (proper : width.Fits lane.mask)
    (old value : UInt32) : width.strays (lane.merge old value) = width.strays old := by
  have placed : width.Fits (lane.place value) := proper.and_left
  rw [merge, Width.strays_or placed, Width.strays_and_not proper]

namespace Bank

variable {table : List Register} {bank : Bank table} {index : Fin table.length}

/-! ## Operations -/

/-- What can be done to a bank. -/
inductive Operation (table : List Register) where
  | withReset (index : Fin table.length) (value : UInt32)
  | read (width : Width) (address : UInt32)
  | write (width : Width) (address value : UInt32)
  | set (index : Fin table.length) (value : UInt32)
  | setBits (index : Fin table.length) (bits : UInt32)
  | clearBits (index : Fin table.length) (bits : UInt32)
  | load (values : List UInt32)
  | reset
deriving DecidableEq, Repr

/-- The bank after an operation. One that selects no register, or brings another number of values
than there are registers, changes nothing. -/
def perform (bank : Bank table) : Operation table → Bank table
  | .withReset index value => bank.withReset index value
  | .read width address =>
      match bank.readAt? width address with
      | none => bank
      | some (_, after) => after
  | .write width address value =>
      match bank.writeAt? width address value with
      | none => bank
      | some (_, _, after) => after
  | .set index value => bank.set index value
  | .setBits index bits => bank.setBits index bits
  | .clearBits index bits => bank.clearBits index bits
  | .load values => (bank.load? values).getD bank
  | .reset => bank.reset

/-- The bank after some operations, one after the other. -/
def performAll (bank : Bank table) (operations : List (Operation table)) : Bank table :=
  operations.foldl perform bank

/-! ## Uncut values -/

/-- Whether the stored value of a register and the one that a reset brings still come from the
table without having been cut. -/
structure Uncut where
  stored : Bool
  onReset : Bool
deriving DecidableEq, Repr

/-- What of a register is still uncut after an operation. -/
def Uncut.after (index : Fin table.length) (uncut : Uncut) : Operation table → Uncut
  | .withReset other _ => if other = index then ⟨false, false⟩ else uncut
  | .set other _ | .setBits other _ | .clearBits other _ =>
      if other = index then { uncut with stored := false } else uncut
  | .load values => if values.length = table.length then { uncut with stored := false } else uncut
  | .reset => { uncut with stored := uncut.onReset }
  | .read .. | .write .. => uncut

/-- What of a register is still uncut after some operations on a bank at power-on. -/
def uncutAfter (index : Fin table.length) (operations : List (Operation table)) : Uncut :=
  operations.foldl (Uncut.after index) ⟨true, true⟩

/-- Beyond the width of a register there are the bits that its power-on value has there, as far as
it is uncut, and no others. -/
structure StraysAs (index : Fin table.length) (uncut : Uncut) (bank : Bank table) : Prop where
  stored : (table.get index).width.strays (bank.get index) =
    if uncut.stored then (table.get index).width.strays (table.get index).reset else 0
  onReset : (table.get index).width.strays (bank.resetValue index) =
    if uncut.onReset then (table.get index).width.strays (table.get index).reset else 0

theorem straysAs_initial (index : Fin table.length) :
    StraysAs index ⟨true, true⟩ (initial table) := by
  constructor
  · rw [get_initial]
    rfl
  · simp [initial, resetValue]

theorem StraysAs.set {uncut : Uncut} (strays : StraysAs index uncut bank)
    (other : Fin table.length) (value : UInt32) :
    StraysAs index (if other = index then { uncut with stored := false } else uncut)
      (bank.set other value) := by
  by_cases here : other = index
  · subst here
    rw [if_pos rfl]
    refine ⟨?_, strays.onReset⟩
    rw [Bank.set, get_put_self]
    exact Width.strays_of_fits (Width.fits_mask _ _)
  · rw [if_neg here]
    refine ⟨?_, strays.onReset⟩
    rw [get_set_of_ne bank here]
    exact strays.stored

theorem StraysAs.withReset {uncut : Uncut} (strays : StraysAs index uncut bank)
    (other : Fin table.length) (value : UInt32) :
    StraysAs index (if other = index then ⟨false, false⟩ else uncut)
      (bank.withReset other value) := by
  by_cases here : other = index
  · subst here
    rw [if_pos rfl]
    have cut := Width.strays_of_fits (Width.fits_mask (table.get other).width value)
    constructor
    · rw [Bank.withReset, get, Parts.getElem_set_self]
      exact cut
    · rw [Bank.withReset, resetValue, Parts.getElem_set_self]
      exact cut
  · rw [if_neg here]
    constructor
    · rw [Bank.withReset, get, Parts.getElem_set_of_ne _ _ here]
      exact strays.stored
    · rw [Bank.withReset, resetValue, Parts.getElem_set_of_ne _ _ here]
      exact strays.onReset

/-- The bus keeps to the width of a register. -/
theorem StraysAs.put {uncut : Uncut} (strays : StraysAs index uncut bank)
    {other : Fin table.length} {value : UInt32}
    (kept : (table.get other).width.strays value
      = (table.get other).width.strays (bank.get other)) :
    StraysAs index uncut (bank.put other value) := by
  refine ⟨?_, strays.onReset⟩
  rw [get_put]
  split
  next here =>
    subst here
    exact kept.trans strays.stored
  next => exact strays.stored

theorem StraysAs.read {uncut : Uncut} (strays : StraysAs index uncut bank)
    {selection : Selection table} (proper : selection.Proper) :
    StraysAs index uncut (bank.read selection).2 := by
  unfold Bank.read
  split
  next => exact strays
  next bits _ =>
    apply strays.put
    exact Width.strays_and_not proper.and_left _
  all_goals exact strays

theorem StraysAs.write {uncut : Uncut} (strays : StraysAs index uncut bank)
    {selection : Selection table} (proper : selection.Proper) (value : UInt32) :
    StraysAs index uncut (bank.write selection value).2 := by
  apply strays.put
  split
  next => exact Lane.strays_merge proper _ _
  next => exact Lane.strays_merge proper _ _
  next => exact Width.strays_and_not proper.and_left _
  next => rfl
  next => rfl

theorem StraysAs.load {uncut : Uncut} (strays : StraysAs index uncut bank) (values : List UInt32) :
    StraysAs index
      (if values.length = table.length then { uncut with stored := false } else uncut)
      ((bank.load? values).getD bank) := by
  unfold load?
  by_cases same : values.length = table.length
  · rw [dif_pos same, if_pos same, Option.getD_some]
    refine ⟨?_, strays.onReset⟩
    rw [get, Parts.getElem_ofFn]
    exact Width.strays_of_fits (Width.fits_mask _ _)
  · rw [dif_neg same, if_neg same, Option.getD_none]
    exact strays

theorem StraysAs.perform {uncut : Uncut} (strays : StraysAs index uncut bank)
    (operation : Operation table) :
    StraysAs index (uncut.after index operation) (bank.perform operation) := by
  cases operation with
  | withReset other value => exact strays.withReset other value
  | read width address =>
      simp only [Bank.perform, readAt?, Uncut.after]
      cases found : Selection.find? table width address with
      | none => exact strays
      | some selection => exact strays.read (Selection.proper_of_find? found)
  | write width address value =>
      simp only [Bank.perform, writeAt?, Uncut.after]
      cases found : Selection.find? table width address with
      | none => exact strays
      | some selection => exact strays.write (Selection.proper_of_find? found) value
  | set other value => exact strays.set other value
  | setBits other bits => exact strays.set other _
  | clearBits other bits => exact strays.set other _
  | load values => exact strays.load values
  | reset => exact ⟨strays.onReset, strays.onReset⟩

theorem StraysAs.performAll {uncut : Uncut} (strays : StraysAs index uncut bank)
    (operations : List (Operation table)) :
    StraysAs index (operations.foldl (Uncut.after index) uncut) (bank.performAll operations) := by
  induction operations generalizing bank uncut with
  | nil => exact strays
  | cons operation rest ih => exact ih (strays.perform operation)

/-- What is beyond a width is there only as long as the table's power-on value is uncut. -/
theorem StraysAs.fits_iff {uncut : Uncut} (strays : StraysAs index uncut bank) :
    ((table.get index).width.Fits (bank.get index) ∧
      (table.get index).width.Fits (bank.resetValue index)) ↔
    (uncut.stored = true ∨ uncut.onReset = true →
      (table.get index).width.Fits (table.get index).reset) := by
  rw [Width.fits_iff_strays, Width.fits_iff_strays, Width.fits_iff_strays, strays.stored,
    strays.onReset]
  cases uncut.stored <;> cases uncut.onReset <;> simp

/-- After any operations the values of a bank have beyond the widths of their registers just what
the power-on values of the table have there, where these are uncut; so they fit exactly if the
uncut ones do. In particular all banks of a table fit, at power-on and ever after, exactly if all
its power-on values fit. -/
theorem strays_of_history (table : List Register) :
    (∀ operations : List (Operation table),
      (∀ index, StraysAs index (uncutAfter index operations)
        ((initial table).performAll operations)) ∧
      (((initial table).performAll operations).Fits ↔ ∀ index : Fin table.length,
        (uncutAfter index operations).stored = true ∨ (uncutAfter index operations).onReset = true →
          (table.get index).width.Fits (table.get index).reset)) ∧
    ((∀ operations : List (Operation table), ((initial table).performAll operations).Fits) ↔
      ∀ register ∈ table, register.width.Fits register.reset) := by
  have strays (operations : List (Operation table)) (index : Fin table.length) :
      StraysAs index (uncutAfter index operations) ((initial table).performAll operations) :=
    (straysAs_initial index).performAll operations
  have fits (operations : List (Operation table)) :
      ((initial table).performAll operations).Fits ↔ ∀ index : Fin table.length,
        (uncutAfter index operations).stored = true ∨ (uncutAfter index operations).onReset = true →
          (table.get index).width.Fits (table.get index).reset := by
    constructor
    · rintro ⟨stored, resets⟩ index
      exact (strays operations index).fits_iff.1 ⟨stored index, resets index⟩
    · intro uncut
      constructor
      · intro index
        exact ((strays operations index).fits_iff.2 (uncut index)).1
      · intro index
        exact ((strays operations index).fits_iff.2 (uncut index)).2
  refine ⟨fun operations => ⟨strays operations, fits operations⟩, ?_, ?_⟩
  · intro always register listed
    obtain ⟨index, rfl⟩ := List.get_of_mem listed
    exact (fits []).1 (always []) index (.inl rfl)
  · intro all operations
    exact (fits operations).2 fun index _ => all _ (List.get_mem table index)

/-- A byte-wide register with a longer power-on value, which the bus cannot reach and a reset brings
back. -/
example : ((initial [⟨"COUNT", 0, .byte, 0x1ff, .readWrite⟩]).performAll
    [.set 0 0, .reset, .write .word 0 0]).get 0 = 0x100 := by
  decide

end Bank

end SocPeripherals
