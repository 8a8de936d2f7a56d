import SocPeripherals.Proofs.Bus.Ram
import Mathlib.Data.List.Induction
import Mathlib.Data.Nat.Digits.Defs

/-!
# What a memory remembers

The answers of a memory are told by its size and by the calls before. An access is accepted if its
bytes lie inside and its address is a multiple of its width, and the range is judged first. A read
gives the bytes that were last written, by accesses of whatever widths, and a refused access leaves
no trace.
-/

namespace SocPeripherals

namespace Bus

variable {μ : Type} [Bus μ]

/-- The bus after a call. -/
def after (bus : μ) : BusCall → μ
  | .read width address => (Bus.read bus width address).2
  | .write width address value => (Bus.write bus width address value).2
  | .poll => Bus.poll bus
  | .reset => Bus.reset bus

/-- The bus after some calls, one after the other. -/
def afterAll (bus : μ) (calls : List BusCall) : μ := calls.foldl after bus

theorem afterAll_concat (bus : μ) (calls : List BusCall) (call : BusCall) :
    afterAll bus (calls ++ [call]) = after (afterAll bus calls) call := by
  simp [afterAll]

end Bus

namespace Ram

variable {ram : Ram} {width : Width} {address value : UInt32} {size index count : Nat}

/-! ## Accesses -/

/-- A memory of so many bytes accepts the access: its width is valid, its bytes lie inside, and its
address is a multiple of its width. -/
structure Accepts (size : Nat) (width : Width) (address : UInt32) : Prop where
  valid : width ≠ .invalid
  inside : address.toNat + width.bytes.toNat ≤ size
  aligned : width.bytes.toNat ∣ address.toNat

theorem accepts_iff :
    Accepts ram.size width address ↔ ram.Covers width address ∧ Aligned width address := by
  constructor
  · intro accepted
    exact ⟨⟨accepted.valid, accepted.inside⟩, Nat.mod_eq_zero_of_dvd accepted.aligned⟩
  · rintro ⟨⟨valid, inside⟩, aligned⟩
    exact ⟨valid, inside, Nat.dvd_of_mod_eq_zero aligned⟩

instance (size : Nat) (width : Width) (address : UInt32) :
    Decidable (Accepts size width address) :=
  decidable_of_iff (width ≠ .invalid ∧ address.toNat + width.bytes.toNat ≤ size ∧
      width.bytes.toNat ∣ address.toNat)
    ⟨fun ⟨valid, inside, aligned⟩ => ⟨valid, inside, aligned⟩,
      fun accepted => ⟨accepted.valid, accepted.inside, accepted.aligned⟩⟩

/-- How a memory of so many bytes answers an access: it accepts what it can, and of the two errors
the one for the range comes before the one for the alignment. -/
structure Judges {α : Type} (size : Nat) (width : Width) (address : UInt32)
    (fault misaligned : BusError) (answer : Except BusError α) : Prop where
  accepts : (∃ result, answer = .ok result) ↔ Accepts size width address
  faults : answer = .error fault ↔
    width = .invalid ∨ size < address.toNat + width.bytes.toNat
  misaligns : answer = .error misaligned ↔ width ≠ .invalid ∧
    address.toNat + width.bytes.toNat ≤ size ∧ ¬ width.bytes.toNat ∣ address.toNat

/-- What a memory does first of all with an access. -/
theorem judges_of_checks {α : Type} {fault misaligned : BusError} (apart : fault ≠ misaligned)
    (result : α) :
    Judges ram.size width address fault misaligned
      (if ram.Covers width address then
        if Aligned width address then .ok result else .error misaligned
      else .error fault) := by
  have outside : ¬ ram.Covers width address ↔
      width = .invalid ∨ ram.size < address.toNat + width.bytes.toNat := by
    rw [Covers, not_and_or, not_not, Nat.not_le]
  have odd : ram.Covers width address ∧ ¬ Aligned width address ↔ width ≠ .invalid ∧
      address.toNat + width.bytes.toNat ≤ ram.size ∧ ¬ width.bytes.toNat ∣ address.toNat := by
    rw [Covers, Aligned, Nat.dvd_iff_mod_eq_zero, and_assoc]
  constructor
  · rw [accepts_iff]
    by_cases covers : ram.Covers width address <;> by_cases aligned : Aligned width address <;>
      simp [covers, aligned]
  · rw [← outside]
    by_cases covers : ram.Covers width address <;> by_cases aligned : Aligned width address <;>
      simp [covers, aligned, apart.symm]
  · rw [← odd]
    by_cases covers : ram.Covers width address <;> by_cases aligned : Aligned width address <;>
      simp [covers, aligned, apart]

theorem read_judges (ram : Ram) (width : Width) (address : UInt32) :
    Judges ram.size width address .loadFault .loadMisaligned (Bus.read ram width address).1 :=
  judges_of_checks (by decide) _

/-- A memory is the same after a read. -/
theorem snd_read (ram : Ram) (width : Width) (address : UInt32) :
    (Bus.read ram width address).2 = ram := rfl

theorem read_of_accepts (accepted : Accepts ram.size width address) :
    (Bus.read ram width address).1 = .ok (ram.load address.toNat width.bytes.toNat) := by
  obtain ⟨covers, aligned⟩ := accepts_iff.1 accepted
  change ram.read width address = _
  rw [Ram.read, if_pos covers, if_pos aligned]

theorem write_of_accepts (accepted : Accepts ram.size width address) (value : UInt32) :
    Bus.write ram width address value
      = (.ok (), ram.store address.toNat value width.bytes.toNat) := by
  obtain ⟨covers, aligned⟩ := accepts_iff.1 accepted
  change ram.write width address value = _
  rw [Ram.write, if_pos covers, if_pos aligned]

theorem write_judges (ram : Ram) (width : Width) (address value : UInt32) :
    Judges ram.size width address .storeFault .storeMisaligned
      (Bus.write ram width address value).1 := by
  have answer : (Bus.write ram width address value).1 =
      if ram.Covers width address then
        if Aligned width address then .ok () else .error .storeMisaligned
      else .error .storeFault := by
    change (ram.write width address value).1 = _
    unfold Ram.write
    split_ifs <;> rfl
  rw [answer]
  exact judges_of_checks (by decide) ()

/-- An accepted write puts the bytes of the value at its place. -/
theorem byteAt_write (accepted : Accepts ram.size width address) (value : UInt32) (index : Nat) :
    (Bus.write ram width address value).2.byteAt index =
      if address.toNat ≤ index ∧ index < address.toNat + width.bytes.toNat then
        valueByte value (index - address.toNat)
      else ram.byteAt index := by
  have inside := accepted.inside
  rw [write_of_accepts accepted, byteAt_store]
  congr 1
  exact propext ⟨fun there => ⟨there.1, there.2.1⟩,
    fun here => ⟨here.1, here.2, here.2.trans_le inside⟩⟩

/-- A refused write leaves the memory as it is. -/
theorem write_of_refused (refused : ¬ Accepts ram.size width address) (value : UInt32) :
    (Bus.write ram width address value).2 = ram := by
  rw [accepts_iff, not_and] at refused
  change (ram.write width address value).2 = _
  unfold Ram.write
  by_cases covers : ram.Covers width address
  · rw [if_pos covers, if_neg (refused covers)]
  · rw [if_neg covers]

/-! ## Bytes -/

/-- The byte that the call puts at an index of a memory of so many bytes. -/
def written? (size index : Nat) : BusCall → Option UInt8
  | .write width address value =>
      if Accepts size width address ∧
          address.toNat ≤ index ∧ index < address.toNat + width.bytes.toNat then
        some (valueByte value (index - address.toNat))
      else none
  | .read .. | .poll | .reset => none

/-- The byte that was last put at an index, if any was. -/
def lastWritten? (size index : Nat) (calls : List BusCall) : Option UInt8 :=
  calls.reverse.findSome? (written? size index)

/-- The byte at an index after some calls: the last one put there, or the one from before. -/
def remembered (ram : Ram) (calls : List BusCall) (index : Nat) : UInt8 :=
  (lastWritten? ram.size index calls).getD (ram.byteAt index)

theorem lastWritten?_concat (size index : Nat) (calls : List BusCall) (call : BusCall) :
    lastWritten? size index (calls ++ [call])
      = (written? size index call).or (lastWritten? size index calls) := by
  unfold lastWritten?
  rw [List.reverse_concat, List.findSome?_cons]
  cases written? size index call <;> rfl

theorem size_after (ram : Ram) (call : BusCall) : (Bus.after ram call).size = ram.size := by
  cases call with
  | write width address value =>
      change (Bus.write ram width address value).2.size = ram.size
      by_cases accepted : Accepts ram.size width address
      · rw [write_of_accepts accepted, size_store]
      · rw [write_of_refused accepted]
  | read | poll | reset => rfl

/-- A call puts what is written at its place, and nothing elsewhere. -/
theorem byteAt_after (ram : Ram) (call : BusCall) (index : Nat) :
    (Bus.after ram call).byteAt index
      = (written? ram.size index call).getD (ram.byteAt index) := by
  cases call with
  | write width address value =>
      change (Bus.write ram width address value).2.byteAt index = _
      by_cases accepted : Accepts ram.size width address
      · rw [byteAt_write accepted]
        by_cases here : address.toNat ≤ index ∧ index < address.toNat + width.bytes.toNat
        · simp [written?, accepted, here]
        · simp [written?, here]
      · rw [write_of_refused accepted]
        simp [written?, accepted]
  | read | poll | reset => rfl

theorem size_afterAll (ram : Ram) (calls : List BusCall) :
    (Bus.afterAll ram calls).size = ram.size := by
  induction calls using List.reverseRecOn with
  | nil => rfl
  | append_singleton calls call ih => rw [Bus.afterAll_concat, size_after, ih]

/-- After any calls a memory holds what was last written. -/
theorem byteAt_afterAll (ram : Ram) (calls : List BusCall) (index : Nat) :
    (Bus.afterAll ram calls).byteAt index = ram.remembered calls index := by
  induction calls using List.reverseRecOn with
  | nil => rfl
  | append_singleton calls call ih =>
      rw [Bus.afterAll_concat, byteAt_after, size_afterAll, ih]
      unfold remembered
      rw [lastWritten?_concat]
      cases written? ram.size index call <;> rfl

/-- What is loaded is the little-endian number of the bytes. -/
theorem toNat_load (ram : Ram) (start : Nat) (few : count ≤ 4) :
    (ram.load start count).toNat
      = Nat.ofDigits 256 ((List.range count).map fun place =>
          (ram.byteAt (start + place)).toNat) := by
  induction count generalizing start with
  | zero => rfl
  | succ count ih =>
      have further (place : Nat) : start + 1 + place = start + place.succ := by omega
      rw [toNat_load_succ ram start few, ih (start + 1) (Nat.le_of_succ_le few),
        List.range_succ_eq_map, List.map_cons, List.map_map, Nat.ofDigits_cons]
      simp only [further]
      rfl

/-! ## Histories -/

/-- What has become of a memory after some calls, and how it answers. -/
structure Recalls (ram : Ram) (calls : List BusCall) (now : Ram) : Prop where
  size : now.size = ram.size
  bytes : ∀ index, now.byteAt index = ram.remembered calls index
  reads : ∀ width address,
    Judges ram.size width address .loadFault .loadMisaligned (Bus.read now width address).1
  unread : ∀ width address, (Bus.read now width address).2 = now
  value : ∀ width address value, (Bus.read now width address).1 = .ok value →
    value.toNat = Nat.ofDigits 256 ((List.range width.bytes.toNat).map fun place =>
      (ram.remembered calls (address.toNat + place)).toNat)
  writes : ∀ width address value, Judges ram.size width address .storeFault .storeMisaligned
    (Bus.write now width address value).1
  refused : ∀ width address value, (Bus.write now width address value).1 ≠ .ok () →
    (Bus.write now width address value).2 = now
  stored : ∀ width address value, (Bus.write now width address value).1 = .ok () → ∀ index,
    (Bus.write now width address value).2.byteAt index =
      if address.toNat ≤ index ∧ index < address.toNat + width.bytes.toNat then
        valueByte value (index - address.toNat)
      else now.byteAt index

/-- A memory is exact. After any calls it has the bytes that the calls have left, and accepts and
refuses what a memory of its size does. A read changes nothing and gives the last written bytes,
lowest first, as one number; a refused write changes nothing, and an accepted one puts the low bytes
of the value at its place, lowest first, and changes no other byte. -/
theorem recalls_history (ram : Ram) (calls : List BusCall) :
    Recalls ram calls (Bus.afterAll ram calls) := by
  have size := ram.size_afterAll calls
  have bytes := ram.byteAt_afterAll calls
  generalize Bus.afterAll ram calls = now at size bytes
  constructor
  case size => exact size
  case bytes => exact bytes
  case reads =>
    intro width address
    rw [← size]
    exact now.read_judges width address
  case unread => exact now.snd_read
  case value =>
    intro width address value done
    have accepted := (now.read_judges width address).accepts.1 ⟨value, done⟩
    rw [read_of_accepts accepted] at done
    cases done
    rw [toNat_load now address.toNat width.toNat_bytes_le]
    simp only [bytes]
  case writes =>
    intro width address value
    rw [← size]
    exact now.write_judges width address value
  case refused =>
    intro width address value refused
    apply write_of_refused
    intro accepted
    apply refused
    rw [write_of_accepts accepted]
  case stored =>
    intro width address value done
    exact byteAt_write ((now.write_judges width address value).accepts.1 ⟨(), done⟩) value

/-- A half word and a byte written over a word, and an access that is refused. -/
example : (Bus.read (Bus.afterAll (ofList [0, 0, 0, 0]) [.write .word 0 0x44332211,
    .write .halfWord 2 0xbbaa, .write .word 2 0x55667788, .write .byte 1 0xff]) .word 0).1
      = .ok 0xbbaaff11 := by
  decide

end Ram

end SocPeripherals
