/-
Writes made one after the other. Each changes the contents and republishes the listing, so after
any number of them the contents are those that the writes make and the listing shows them.
-/
import FleetRoster.Proofs.Contents.Rows
import FleetRoster.Proofs.Listing
import FleetRoster.Roster

namespace FleetRoster

open Std (TransCmp)

namespace Roster

variable {V κ : Type} [Key κ] [Entity V κ] {order : ViewOrder V}

/-! ## The steps of a write -/

/-- Publishing replaces the listing by that of the snapshot, or keeps one that is as recent. -/
theorem publish_cases (r : Roster order) (s : Snapshot V) :
    (r.publish s).toContents = r.toContents ∧ (r.publish s).stamp = r.stamp ∧
    ((s.stamp ≤ r.listing.stamp ∧ (r.publish s).listing = r.listing) ∨
      (r.listing.stamp < s.stamp ∧ (r.publish s).listing = .ofRows order s.stamp s.rows)) := by
  unfold publish
  split
  · rename_i h; exact ⟨rfl, rfl, .inl ⟨h, rfl⟩⟩
  · rename_i h; exact ⟨rfl, rfl, .inr ⟨Nat.lt_of_not_le h, rfl⟩⟩

theorem toContents_write (r : Roster order) (w : Write V κ) :
    (r.write w).toContents = r.toContents.apply w :=
  ((r.change w).publish_cases (r.change w).snapshot).1

theorem stamp_write (r : Roster order) (w : Write V κ) : (r.write w).stamp = r.stamp + 1 :=
  ((r.change w).publish_cases (r.change w).snapshot).2.1

theorem keyed_write {r : Roster order} (hr : r.toContents.Keyed) (w : Write V κ) :
    (r.write w).toContents.Keyed := by
  rw [toContents_write]; exact hr.apply w

/-! ## Any number of writes -/

/-- The roster after some writes, one after the other. -/
def run (r : Roster order) (writes : List (Write V κ)) : Roster order := writes.foldl write r

theorem toContents_run (r : Roster order) (writes : List (Write V κ)) :
    (r.run writes).toContents = r.toContents.replay writes := by
  induction writes generalizing r with
  | nil => rfl
  | cons w writes ih =>
    show ((r.write w).run writes).toContents = (r.toContents.apply w).replay writes
    rw [ih, toContents_write]

theorem keyed_run {r : Roster order} (hr : r.toContents.Keyed) (writes : List (Write V κ)) :
    (r.run writes).toContents.Keyed := by
  rw [toContents_run]; exact hr.replay writes

theorem stamp_run (r : Roster order) (writes : List (Write V κ)) :
    (r.run writes).stamp = r.stamp + writes.length := by
  induction writes generalizing r with
  | nil => rfl
  | cons w writes ih =>
    show ((r.write w).run writes).stamp = _
    rw [ih, stamp_write, List.length_cons]
    omega

theorem run_append (r : Roster order) (writes more : List (Write V κ)) :
    r.run (writes ++ more) = (r.run writes).run more :=
  List.foldl_append

/-- The listing is that of the contents as they are. -/
def Settled (r : Roster order) : Prop := r.listing = .ofRows order r.stamp r.rows.values

theorem settled_ofList (rows : List V) : (ofList rows : Roster order).Settled := rfl

/-- A write settles the roster, if no later listing than that of the contents was published before. -/
theorem settled_write {r : Roster order} (hr : r.listing.stamp ≤ r.stamp) (w : Write V κ) : (r.write w).Settled := by
  unfold Roster.write
  obtain ⟨hc, hs, ⟨hle, -⟩ | ⟨-, hl⟩⟩ := (r.change w).publish_cases (r.change w).snapshot
  · -- the stamp of a change is above the stamp of what is published
    exact absurd (le_trans hle hr) (Nat.not_succ_le_self r.stamp)
  · unfold Settled
    rw [hl, hs, hc]; rfl

theorem Settled.stamp {r : Roster order} (hr : r.Settled) : r.listing.stamp = r.stamp := by
  rw [hr]; rfl

theorem Settled.write {r : Roster order} (hr : r.Settled) (w : Write V κ) : (r.write w).Settled :=
  settled_write (le_of_eq hr.stamp) w

theorem Settled.run {r : Roster order} (hr : r.Settled) (writes : List (Write V κ)) :
    (r.run writes).Settled := by
  induction writes generalizing r with
  | nil => exact hr
  | cons w writes ih => exact ih (hr.write w)

/-- Settled rosters of the same contents and as many writes are the same. -/
theorem Settled.eq {r s : Roster order} (hr : r.Settled) (hs : s.Settled) (hc : r.toContents = s.toContents)
    (hstamp : r.stamp = s.stamp) : r = s := by
  refine Roster.ext (congrArg (·.rows) hc) (congrArg (·.index) hc) hstamp ?_
  rw [hr, hs, hc, hstamp]

theorem Settled.shows [TransCmp order.compare] {r : Roster order} (hr : r.Settled)
    (hk : r.toContents.Keyed) : r.listing.Shows order r.rows.values := by
  rw [hr]; exact Listing.shows_ofRows _ hk.distinct_values

end Roster

end FleetRoster
