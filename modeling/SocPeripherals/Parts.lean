/-!
# Parts by number

A device keeps its parts of one kind in a vector and names each by its number. A number of the
vector's own size always names a part, so looking one up asks for no proof of it.
-/

namespace SocPeripherals

variable {α β : Type} {count : Nat}

/-- The part of a number. -/
instance partOfNumber : GetElem (Vector α count) (Fin count) α fun _ _ => True where
  getElem parts index _ := parts.get index

-- Numerals name parts of a kind of which there are two or four. The zero is that of the numerals.

instance neZero_two : @NeZero Nat Zero.ofOfNat0 2 := ⟨by decide⟩

instance neZero_four : @NeZero Nat Zero.ofOfNat0 4 := ⟨by decide⟩

namespace Parts

theorem getElem_fin (parts : Vector α count) (index : Fin count) :
    parts[index] = parts[index.val] := rfl

@[simp]
theorem getElem_mk (parts : Vector α count) {position : Nat} (within : position < count) :
    parts[(⟨position, within⟩ : Fin count)] = parts[position] := rfl

@[simp]
theorem getElem_ofFn (part : Fin count → α) (index : Fin count) :
    (Vector.ofFn part)[index] = part index := by
  simp [getElem_fin]

@[simp]
theorem getElem_set_self (parts : Vector α count) (index : Fin count) (part : α) :
    (parts.set index part index.isLt)[index] = part := by
  simp [getElem_fin]

theorem getElem_set_of_ne (parts : Vector α count) {index other : Fin count} (part : α)
    (distinct : index ≠ other) : (parts.set index part index.isLt)[other] = parts[other] := by
  have apart : index.val ≠ other.val := fun same => distinct (Fin.ext same)
  simp [getElem_fin, apart]

theorem set_getElem (parts : Vector α count) (index : Fin count) :
    parts.set index parts[index] index.isLt = parts := by
  simp [getElem_fin]

/-- What is made of the parts, number by number. -/
theorem map_toList (save : α → β) (parts : Vector α count) :
    parts.toList.map save = (List.finRange count).map fun index => save parts[index] := by
  refine List.ext_getElem (by simp) fun position _ _ => ?_
  simp

theorem map_toList_congr {save other : α → β} {parts twins : Vector α count}
    (same : ∀ index : Fin count, other twins[index] = save parts[index]) :
    twins.toList.map other = parts.toList.map save := by
  rw [map_toList, map_toList]
  exact List.map_congr_left fun index _ => same index

end Parts

end SocPeripherals
