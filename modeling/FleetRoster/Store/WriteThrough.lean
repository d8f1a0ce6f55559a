/-
Writing through: every write goes to the persisted collection first, and reaches the roster only
if the collection accepts it, so that the two stay in step.
-/
import FleetRoster.Store

namespace FleetRoster

/-- A persisted collection beside its roster. -/
@[ext]
structure WriteThrough (σ : Type) {V κ : Type} [Key κ] [Entity V κ] (order : ViewOrder V) where
  store : σ
  roster : Roster order

namespace WriteThrough

variable {σ V κ : Type} [Key κ] [Entity V κ] [Store σ V κ] {order : ViewOrder V}

/-- Installs a row under its key, on both sides. -/
def save (w : WriteThrough σ order) (row : V) : Except Fault Unit × WriteThrough σ order :=
  match Store.save w.store row with
  | (.ok (), store) => (.ok (), ⟨store, w.roster.update row⟩)
  | (.error fault, store) => (.error fault, ⟨store, w.roster⟩)

/-- Removes the rows of the keys on both sides, if the caller may act on all those that the roster
has. -/
def delete (w : WriteThrough σ order) (caller : Caller) (keys : List κ) :
    Except Fault Unit × WriteThrough σ order :=
  if w.roster.permits caller keys then
    match Store.delete w.store keys with
    | (.ok (), store) => (.ok (), ⟨store, w.roster.delete keys⟩)
    | (.error fault, store) => (.error fault, ⟨store, w.roster⟩)
  else (.error .denied, w)

end WriteThrough

end FleetRoster
