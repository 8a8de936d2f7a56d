import SocPeripherals.Block.Window
import SocPeripherals.Proofs.Faults.Bounds
import SocPeripherals.Proofs.Register

/-!
# Who owns an address

Each register of the map belongs to one instance: the identification, the interrupt controller, a
channel, a timer or a serial interface. The instances have ranges of their own in the window, and
an address is that of an instance exactly if an access there is routed to it.
-/

namespace SocPeripherals

namespace Block

/-- An instance that has registers in the window. -/
inductive Owner where
  | misc
  | controller
  | channel (index : Fin Dma.channelCount)
  | timer (index : Fin timerCount)
  | uart (index : Fin uartCount)
deriving DecidableEq, Repr

namespace Owner

/-- The owners in the order of their addresses. -/
def all : List Owner :=
  [misc, controller] ++ (List.finRange Dma.channelCount).map channel
    ++ (List.finRange timerCount).map timer ++ (List.finRange uartCount).map uart

/-- The registers of an owner. -/
def table : Owner → List Register
  | misc => miscRegisters
  | controller => Interrupt.registers
  | channel _ => Dma.registers
  | timer _ => Timer.registers
  | uart _ => Uart.registers

/-- The first address of an owner. -/
def base : Owner → UInt32
  | misc => 0
  | controller => controllerBase
  | channel index => dmaBase + Dma.stride * UInt32.ofNat index
  | timer index => timerBase + Timer.stride * UInt32.ofNat index
  | uart index => uartBase + Uart.stride * UInt32.ofNat index

/-- How many addresses an owner has. -/
def size : Owner → UInt32
  | misc => 0x8
  | controller => 0xc
  | channel _ => Dma.stride
  | timer _ => Timer.stride
  | uart _ => Uart.stride

end Owner

/-- The owner of an address and the offset within its registers. -/
def ownerAt? (address : UInt32) : Option (Owner × UInt32) :=
  if windowSize ≤ address then none
  else
    match route? address with
    | none => none
    | some (.misc, offset) => some (.misc, offset)
    | some (.controller, offset) => some (.controller, offset)
    | some (.dma, offset) => (Dma.route? offset).map fun (index, rest) => (.channel index, rest)
    | some (.timer index, offset) => some (.timer index, offset)
    | some (.uart index, offset) => some (.uart index, offset)

/-- A register of the window, by its owner and its number there. -/
structure Place where
  owner : Owner
  index : Fin owner.table.length
deriving DecidableEq

variable {μ : Type}

/-- The register at its address in the window. The power-on values of the identification are those
of the board. -/
def Place.register (block : Block μ) (place : Place) : Register :=
  { place.owner.table.get place.index with
    offset := place.owner.base + (place.owner.table.get place.index).offset
    reset := match place with
      | ⟨.misc, index⟩ => block.misc.resetValue index
      | ⟨owner, index⟩ => (owner.table.get index).reset }

/-- The places of an owner. -/
def Owner.places (owner : Owner) : List Place :=
  (List.finRange owner.table.length).map (Place.mk owner)

theorem registerMap_eq (block : Block μ) :
    block.registerMap = (Owner.all.flatMap Owner.places).map (Place.register block) := rfl

/-- Every offset within the range of an owner is one of its addresses. -/
theorem ownerAt?_add (owner : Owner) {offset : UInt32} (within : offset < owner.size) :
    ownerAt? (owner.base + offset) = some (owner, offset) := by
  have each : ∀ owner ∈ Owner.all, ∀ place < owner.size.toNat,
      ownerAt? (owner.base + UInt32.ofNat place) = some (owner, UInt32.ofNat place) := by
    decide +kernel
  have listed : owner ∈ Owner.all := by
    cases owner <;> simp [Owner.all]
  have here := each owner listed offset.toNat (UInt32.lt_iff_toNat_lt.1 within)
  rwa [UInt32.ofNat_toNat] at here

/-- The number of a part and the offset within it, in a range of parts of one size. -/
theorem eq_stride {base stride address : UInt32} {count : Nat} (first : base ≤ address)
    (last : address.toNat < base.toNat + count * stride.toNat) (index : Fin count)
    (number : index.val = ((address - base) / stride).toNat) :
    (address - base) % stride < stride ∧
      address = base + stride * UInt32.ofNat index + (address - base) % stride := by
  have positive : 0 < stride := by
    refine UInt32.pos_iff_ne_zero.2 fun zero => ?_
    rw [zero] at last
    have low := UInt32.le_iff_toNat_le.1 first
    simp only [UInt32.toNat_zero, Nat.mul_zero] at last
    omega
  refine ⟨UInt32.mod_lt _ positive, ?_⟩
  have whole : stride * ((address - base) / stride) + (address - base) % stride
      = address - base := by
    rw [← UInt32.toNat_inj, UInt32.toNat_add, UInt32.toNat_mul, UInt32.toNat_div, UInt32.toNat_mod,
      Nat.mod_add_mod, Nat.div_add_mod, Nat.mod_eq_of_lt (UInt32.toNat_lt _)]
  rw [number, UInt32.ofNat_toNat, UInt32.add_assoc, whole]
  grind

theorem of_ownerAt? {address offset : UInt32} {owner : Owner}
    (found : ownerAt? address = some (owner, offset)) :
    offset < owner.size ∧ address = owner.base + offset := by
  unfold ownerAt? at found
  split at found
  next => contradiction
  next =>
    split at found
    next => contradiction
    next routed =>
      cases found
      obtain ⟨low, rfl⟩ := of_route? routed
      exact ⟨low, by simp [Owner.base]⟩
    next routed =>
      cases found
      obtain ⟨first, last, rfl⟩ := of_route? routed
      simp only [Owner.size, Owner.base]
      grind
    next there routed =>
      obtain ⟨first, last, rfl⟩ := of_route? routed
      obtain ⟨⟨index, rest⟩, within, same⟩ := Option.map_eq_some_iff.1 found
      cases same
      unfold Dma.route? at within
      split at within
      next =>
        cases within
        exact eq_stride first (UInt32.lt_iff_toNat_lt.1 last) _ rfl
      next => contradiction
    next index _ routed =>
      cases found
      obtain ⟨first, last, number, rfl⟩ := of_route? routed
      exact eq_stride first (UInt32.lt_iff_toNat_lt.1 last) index number
    next index _ routed =>
      cases found
      obtain ⟨first, last, number, rfl⟩ := of_route? routed
      exact eq_stride first (UInt32.lt_iff_toNat_lt.1 last) index number

/-- What an access at an address of an owner is routed to. -/
theorem routed_of_ownerAt? {address offset : UInt32} {owner : Owner}
    (found : ownerAt? address = some (owner, offset)) :
    ¬ windowSize ≤ address ∧
      match owner with
      | .misc => route? address = some (.misc, offset)
      | .controller => route? address = some (.controller, offset)
      | .channel index => ∃ there, route? address = some (.dma, there) ∧
          Dma.route? there = some (index, offset)
      | .timer index => route? address = some (.timer index, offset)
      | .uart index => route? address = some (.uart index, offset) := by
  unfold ownerAt? at found
  split at found
  next => contradiction
  next inside =>
    refine ⟨inside, ?_⟩
    split at found
    case h_1 => contradiction
    case h_4 there routed =>
      obtain ⟨⟨index, rest⟩, within, same⟩ := Option.map_eq_some_iff.1 found
      cases same
      exact ⟨there, routed, within⟩
    all_goals
      cases found
      assumption

/-- An address without an owner is routed to no part. -/
theorem route?_of_ownerless {address : UInt32} (inside : ¬ windowSize ≤ address)
    (ownerless : ownerAt? address = none) : route? address = none := by
  unfold ownerAt? at ownerless
  rw [if_neg inside] at ownerless
  split at ownerless
  case h_1 unmapped => exact unmapped
  case h_4 there routed =>
    obtain ⟨first, last, rfl⟩ := of_route? routed
    have within : ((address - dmaBase) / Dma.stride).toNat < Dma.channelCount :=
      toNat_div_lt first (UInt32.lt_iff_toNat_lt.1 last)
    rw [Dma.route?, dif_pos within] at ownerless
    contradiction
  all_goals contradiction

/-! ## Registers -/

theorem Owner.mem_all (owner : Owner) : owner ∈ Owner.all := by
  cases owner <;> simp [Owner.all]

theorem mem_registerMap {block : Block μ} {register : Register} :
    register ∈ block.registerMap ↔ ∃ place : Place, place.register block = register := by
  rw [registerMap_eq, List.mem_map]
  refine exists_congr fun place => and_iff_right (List.mem_flatMap.2 ⟨place.owner, ?_⟩)
  exact ⟨place.owner.mem_all, List.mem_map.2 ⟨place.index, List.mem_finRange _, rfl⟩⟩

/-- The registers of an owner lie in its range, and apart from each other. -/
theorem Owner.spacious (owner : Owner) (index : Fin owner.table.length) :
    owner.base.toNat + owner.size.toNat ≤ windowSize.toNat ∧
      (owner.table.get index).offset.toNat + (owner.table.get index).width.bytes.toNat
        ≤ owner.size.toNat ∧
      ∀ other : Fin owner.table.length, index < other →
        (owner.table.get index).offset.toNat + (owner.table.get index).width.bytes.toNat
          ≤ (owner.table.get other).offset.toNat := by
  have each : ∀ owner ∈ Owner.all, ∀ index : Fin owner.table.length,
      owner.base.toNat + owner.size.toNat ≤ windowSize.toNat ∧
      (owner.table.get index).offset.toNat + (owner.table.get index).width.bytes.toNat
        ≤ owner.size.toNat ∧
      ∀ other : Fin owner.table.length, index < other →
        (owner.table.get index).offset.toNat + (owner.table.get index).width.bytes.toNat
          ≤ (owner.table.get other).offset.toNat := by
    decide +kernel
  exact each owner owner.mem_all index

/-- A register contains the addresses of its bytes. -/
theorem contains_iff_toNat {register : Register} {address : UInt32} :
    register.Contains address ↔ register.offset.toNat ≤ address.toNat ∧
      address.toNat < register.offset.toNat + register.width.bytes.toNat := by
  unfold Register.Contains
  rw [UInt32.le_iff_toNat_le]
  refine and_congr_right fun first => ?_
  rw [UInt32.lt_iff_toNat_lt, UInt32.toNat_sub_of_le _ _ (UInt32.le_iff_toNat_le.2 first)]
  omega

/-- A register contains an address of the window if its owner is the owner of the address, and it
contains the offset there. -/
theorem contains_iff {block : Block μ} {place : Place} {address : UInt32} :
    (place.register block).Contains address ↔
      ∃ offset, ownerAt? address = some (place.owner, offset) ∧
        (place.owner.table.get place.index).Contains offset := by
  obtain ⟨room, inside, -⟩ := place.owner.spacious place.index
  have small : windowSize.toNat = 0x2000 := rfl
  have start : (place.register block).offset.toNat
      = place.owner.base.toNat + (place.owner.table.get place.index).offset.toNat := by
    change (place.owner.base + (place.owner.table.get place.index).offset).toNat = _
    rw [UInt32.toNat_add]
    omega
  have width : (place.register block).width = (place.owner.table.get place.index).width := rfl
  simp only [contains_iff_toNat, start, width]
  constructor
  · rintro ⟨first, last⟩
    have behind : place.owner.base ≤ address := by
      rw [UInt32.le_iff_toNat_le]
      omega
    have offset := UInt32.toNat_sub_of_le _ _ behind
    refine ⟨address - place.owner.base, ?_, by omega, by omega⟩
    have within : address - place.owner.base < place.owner.size := by
      rw [UInt32.lt_iff_toNat_lt]
      omega
    have found := ownerAt?_add place.owner within
    rwa [UInt32.add_comm, UInt32.sub_add_cancel] at found
  · rintro ⟨offset, found, first, last⟩
    obtain ⟨within, rfl⟩ := of_ownerAt? found
    rw [UInt32.lt_iff_toNat_lt] at within
    rw [UInt32.toNat_add]
    omega

/-- No two registers of an owner contain one offset. -/
theorem Owner.eq_of_contains {owner : Owner} {index other : Fin owner.table.length}
    {offset : UInt32} (here : (owner.table.get index).Contains offset)
    (there : (owner.table.get other).Contains offset) : other = index := by
  rw [contains_iff_toNat] at here there
  rcases lt_trichotomy index other with before | same | behind
  · have apart := (owner.spacious index).2.2 other before
    omega
  · exact same.symm
  · have apart := (owner.spacious other).2.2 index behind
    omega

/-- No other register contains an address of a register. -/
theorem Place.eq_of_contains {block : Block μ} {place other : Place} {address : UInt32}
    (here : (place.register block).Contains address)
    (there : (other.register block).Contains address) : other = place := by
  obtain ⟨offset, found, contains⟩ := contains_iff.1 here
  obtain ⟨_, foundToo, containsToo⟩ := contains_iff.1 there
  obtain ⟨owner, index⟩ := place
  obtain ⟨_, other⟩ := other
  cases found.symm.trans foundToo
  rw [show other = index from Owner.eq_of_contains contains containsToo]

/-- The lanes of a register that an access covers, by the offset within the owner's range. -/
theorem lane_register {block : Block μ} {place : Place} {address offset : UInt32}
    (found : ownerAt? address = some (place.owner, offset)) (width : Width) :
    (place.register block).lane width address
      = (place.owner.table.get place.index).lane width offset := by
  obtain ⟨-, rfl⟩ := of_ownerAt? found
  have same : place.owner.base + offset - (place.register block).offset
      = offset - (place.owner.table.get place.index).offset := by
    change _ - (place.owner.base + (place.owner.table.get place.index).offset) = _
    grind
  unfold Register.lane
  rw [same]
  rfl

/-- An access to a register selects it, with the lanes that it covers. -/
theorem find?_of_contains {block : Block μ} {place : Place} {address : UInt32} {width : Width}
    (contains : (place.register block).Contains address) (valid : width ≠ .invalid) :
    ∃ offset, ownerAt? address = some (place.owner, offset) ∧
      Selection.find? place.owner.table width offset
        = some ⟨place.index, (place.register block).lane width address⟩ := by
  obtain ⟨offset, found, inside⟩ := contains_iff.1 contains
  refine ⟨offset, found, ?_⟩
  have first : place.owner.table.findFinIdx? (fun register => register.Contains offset)
      = some place.index := by
    refine List.findFinIdx?_eq_some_iff.2 ⟨decide_eq_true inside, fun other before => ?_⟩
    have apart : ¬ (place.owner.table.get other).Contains offset := fun there =>
      before.ne (Owner.eq_of_contains inside there)
    simpa using apart
  rw [lane_register found, Selection.find?, if_neg valid, first]
  rfl

/-- Where no register contains an address, an access selects none. -/
theorem find?_of_vacant {block : Block μ} {address offset : UInt32} {owner : Owner}
    (found : ownerAt? address = some (owner, offset))
    (vacant : ∀ register ∈ block.registerMap, ¬ register.Contains address) (width : Width) :
    Selection.find? owner.table width offset = none := by
  cases selected : Selection.find? owner.table width offset with
  | none => rfl
  | some selection =>
      have contains := (Selection.contains_of_find? selected).1
      have here : ((Place.mk owner selection.index).register block).Contains address :=
        contains_iff.2 ⟨offset, found, contains⟩
      exact absurd here (vacant _ (mem_registerMap.2 ⟨_, rfl⟩))

end Block

end SocPeripherals
