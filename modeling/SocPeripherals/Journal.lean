/-!
# Journals

A journal collects text until it is taken, and is empty again afterwards.
-/

namespace SocPeripherals

/-- The text collected so far. -/
structure Journal where
  text : String := ""
deriving DecidableEq, Repr

namespace Journal

/-- Appends text as it stands. -/
def write (journal : Journal) (entry : String) : Journal :=
  ⟨journal.text ++ entry⟩

/-- Appends text and ends the line. -/
def line (journal : Journal) (entry : String) : Journal :=
  journal.write (entry ++ "\n")

/-- Hands out the text and empties the journal. -/
def take (journal : Journal) : String × Journal :=
  (journal.text, ⟨""⟩)

end Journal

end SocPeripherals
