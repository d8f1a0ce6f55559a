/-
Listings: the rows of a roster as they stood at some moment, sorted, and the part of them that is
shown to the public. Ties of the order are broken by key, so a listing does not depend on the
order in which the rows are handed over.
-/
import FleetRoster.Entity

namespace FleetRoster

/-- Sorted rows, with the number of writes they reflect. -/
@[ext]
structure Listing (V : Type) where
  stamp : Nat
  all : List V
  visible : List V

/-- The rows in the order of a listing. -/
def ViewOrder.sort {V κ : Type} [Key κ] [Entity V κ] (order : ViewOrder V) (rows : List V) :
    List V :=
  rows.mergeSort fun a b => (order.strict a b).isLE

/-- The listing of some rows, as of `stamp`. -/
def Listing.ofRows {V κ : Type} [Key κ] [Entity V κ] (order : ViewOrder V) (stamp : Nat)
    (rows : List V) : Listing V where
  stamp := stamp
  all := order.sort rows
  visible := (order.sort rows).filter order.visible

end FleetRoster
