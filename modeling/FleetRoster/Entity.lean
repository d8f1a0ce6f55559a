/-
What a roster asks of the rows it holds: a key, perhaps an identifier, and who may act on a row;
and how a listing of rows is ordered and what it shows.
-/
import FleetRoster.Caller
import Std.Data.ExtTreeMap

namespace FleetRoster

/-- Keys of rows: totally ordered, and reported in messages as numbers. -/
class Key (κ : Type) extends Ord κ, Std.TransOrd κ, Std.LawfulEqOrd κ where
  decEq : DecidableEq κ
  number : κ → UInt64

instance (priority := low) {κ : Type} [Key κ] : DecidableEq κ := Key.decEq

instance : Key UInt64 where
  decEq := inferInstance
  number := id

/-- Rows of a roster. -/
class Entity (V : Type) (κ : outParam Type) [Key κ] where
  /-- The key a row is held under. -/
  key : V → κ
  /-- The identifier a row carries, if its kind has one. -/
  identifier? : V → Option String := fun _ => none
  /-- Whether the caller may act on a row. -/
  grants : V → Caller → Bool

/-- The identifier a row is found under: the empty one finds nothing. -/
def Entity.indexed? {V κ : Type} [Key κ] [Entity V κ] (row : V) : Option String :=
  (Entity.identifier? row).filter fun id => !id.isEmpty

/-- The order of a listing, and which rows its public part shows. -/
structure ViewOrder (V : Type) where
  compare : V → V → Ordering
  visible : V → Bool := fun _ => true

namespace ViewOrder

variable {V κ : Type} [Key κ] [Entity V κ]

/-- Ascending by key, every row shown. -/
def byKey : ViewOrder V where
  compare a b := Ord.compare (Entity.key a) (Entity.key b)

/-- The order of a listing with ties broken by key, so that no two rows of a roster tie. -/
def strict (order : ViewOrder V) (a b : V) : Ordering :=
  (order.compare a b).then (Ord.compare (Entity.key a) (Entity.key b))

end ViewOrder

end FleetRoster
