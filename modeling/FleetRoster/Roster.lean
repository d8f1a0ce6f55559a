/-
Rosters: the contents of one collection and the listing last published of them. A write changes
the contents at once, then takes a snapshot, then sorts and publishes it; between these steps
others may read and write. Every write raises the stamp by one, and a listing is published only if
its stamp is above the published one's, so of two writers that overlap the later snapshot wins.
-/
import FleetRoster.Contents
import FleetRoster.Listing

namespace FleetRoster

/-- The rows at some moment, and the number of writes before it. -/
structure Snapshot (V : Type) where
  stamp : Nat
  rows : List V

/-- The rows of a collection, kept by key, by identifier and as a listing in the given order. -/
@[ext]
structure Roster {V κ : Type} [Key κ] [Entity V κ] (order : ViewOrder V) extends
    Contents V κ where
  /-- How many writes the contents reflect. -/
  stamp : Nat
  /-- The listing last published. -/
  listing : Listing V

namespace Roster

variable {V κ : Type} [Key κ] [Entity V κ] {order : ViewOrder V}

/-- The roster of a list of rows, a later row replacing an earlier one of its key. -/
def ofList (rows : List V) : Roster order :=
  let contents : Contents V κ := .ofList rows
  { toContents := contents
    stamp := 0
    listing := .ofRows order 0 contents.rows.values }

/-! ## The steps of a write -/

/-- Changes the contents; the listing still shows what it showed. -/
def change (r : Roster order) (w : Write V κ) : Roster order :=
  { r with toContents := r.toContents.apply w, stamp := r.stamp + 1 }

/-- The rows as they are. -/
def snapshot (r : Roster order) : Snapshot V := ⟨r.stamp, r.rows.values⟩

/-- Sorts a snapshot and publishes it, unless what is published is as recent. -/
def publish (r : Roster order) (s : Snapshot V) : Roster order :=
  if s.stamp ≤ r.listing.stamp then r
  else { r with listing := .ofRows order s.stamp s.rows }

/-! ## Whole writes -/

/-- Runs a write; between its snapshot and its publication, `meanwhile` acts on the roster. An
empty snapshot leaves nothing to sort, and then nothing happens meanwhile. -/
def writeAround {α : Type} (r : Roster order) (w : Write V κ)
    (meanwhile : Roster order → α × Roster order) : Option α × Roster order :=
  let changed := r.change w
  let taken := changed.snapshot
  if taken.rows.isEmpty then (none, changed.publish taken)
  else
    let (result, later) := meanwhile changed
    (some result, later.publish taken)

/-- Runs a write with nothing in between. -/
def write (r : Roster order) (w : Write V κ) : Roster order :=
  (r.change w).publish (r.change w).snapshot

/-- Installs a row under its key. -/
def update (r : Roster order) (row : V) : Roster order := r.write (.put row)

/-- Removes the rows of the keys, as far as there are any. -/
def delete (r : Roster order) (keys : List κ) : Roster order := r.write (.drop keys)

/-- Every row, in the order of the roster. -/
def sorted (r : Roster order) : List V := r.listing.all

/-- The rows shown to the public, in the order of the roster. -/
def visible (r : Roster order) : List V := r.listing.visible

end Roster

end FleetRoster
