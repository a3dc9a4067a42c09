import Carve.Table
import Mathlib.Data.List.Sort

namespace Carve.KeyOrder

/-- A name that is the text of an array index. -/
structure Spells (name : String) (index : Nat) : Prop where
  text : name = Nat.repr index
  bound : index ≤ 4294967294

variable {α : Type} {entries arranged : List (String × α)}

/-- The entries whose names are array indexes, with these. -/
def indexed (entries : List (String × α)) : List (Nat × String × α) :=
  entries.filterMap fun entry => (index? entry.1).map fun index => (index, entry)

end Carve.KeyOrder
