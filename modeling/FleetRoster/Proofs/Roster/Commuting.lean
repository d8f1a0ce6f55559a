/-
Writes of a roster in either order, or any number of them in any order. If none installs a row that another
one concerns, the order in which they are made cannot be told from the roster afterwards, whatever
identifiers the rows there share or pass on to each other.
-/
import FleetRoster.Proofs.Contents.Commute
import FleetRoster.Proofs.Roster.Reached

namespace FleetRoster

open Std (TransCmp)

namespace Roster

variable {V κ : Type} [Key κ] [Entity V κ] {order : ViewOrder V}

/-- Writes that keep apart from each other leave the same roster in whatever order they are made. -/
theorem run_perm {r : Roster order} (hr : r.Reached) {writes others : List (Write V κ)} (hperm : writes.Perm others)
    (h : writes.Pairwise Write.Apart) : r.run writes = r.run others := by
  cases writes with
  | nil => rw [hperm.nil_eq]
  | cons w writes =>
    cases others with
    | nil => cases hperm.eq_nil
    | cons v others =>
      have hsettled : (r.run (w :: writes)).Settled := (settled_write hr.stamp w).run writes
      have hsettled' : (r.run (v :: others)).Settled := (settled_write hr.stamp v).run others
      refine hsettled.eq hsettled' ?_ ?_
      · rw [toContents_run, toContents_run]
        exact hr.backed.replay_perm hperm h
      · rw [stamp_run, stamp_run, hperm.length_eq]

/-- Take a roster as any interleaving of calls may have left it, and two writes: of rows of different keys
that do not carry the same identifier, of a row and a deletion that does not name its key, or two
deletions. Made one after the other in either order, they leave the same rows, the same index and the
same listing, in whatever order their snapshots have the rows. -/
theorem matches_of_apart [TransCmp order.compare] {r : Roster order} (hr : r.Reached) {w v : Write V κ}
    (h : w.Apart v) :
    ((r.write w).write v).Matches ((r.write v).write w) ∧
    ∀ first second other another : Roster order, r.Leads w first → first.Leads v second →
      r.Leads v other → other.Leads w another → second.Matches another := by
  have hswap : (r.write w).write v = (r.write v).write w :=
    run_perm hr (List.Perm.swap v w []) (List.pairwise_pair.2 h)
  have hmatches : ((r.write w).write v).Matches ((r.write v).write w) := by
    rw [hswap]; exact ⟨rfl, rfl, rfl⟩
  refine ⟨hmatches, ?_⟩
  intro first second other another hw hwv hv hvw
  obtain rfl := hw.eq_write hr.keyed
  obtain rfl := hv.eq_write hr.keyed
  rw [hwv.eq_write (keyed_write hr.keyed w), hvw.eq_write (keyed_write hr.keyed v)]
  exact hmatches

/-- Two servers carry one agent, and a third one is still to be listed. The agent's holder lets go of it or
is deleted while the other server takes the agent over. -/
theorem matches_of_apart_agent_passed_on :
    let holder : Server := { id := 2, uuid := "a" }
    let takeover : Write Server UInt64 := .put { id := 1, uuid := "a" }
    ∃ r : ServerRoster, r.Reached ∧ r.listing.stamp < r.stamp ∧ r.identified? "a" = some holder ∧
      ∀ w ∈ [.put { holder with uuid := "c" }, .drop [2, 9, 2]],
        ((r.write w).write takeover).identified? "a" = some { id := 1, uuid := "a" } ∧
        ((r.write w).write takeover).Matches ((r.write takeover).write w) := by
  intro holder takeover
  let built : ServerRoster := .ofList [{ id := 1, uuid := "a" }, holder]
  have hr : (built.change (.put { id := 3, uuid := "b" })).Reached :=
    ⟨[{ id := 1, uuid := "a" }, holder], [.change (.put { id := 3, uuid := "b" }), .snapshot 0], _, rfl, rfl⟩
  refine ⟨_, hr, Nat.zero_lt_one, by decide +kernel, ?_⟩
  intro w hw
  rw [List.mem_cons, List.mem_singleton] at hw
  rcases hw with rfl | rfl
  · have h : (Write.put { holder with uuid := "c" }).Apart takeover := by
      refine ⟨by decide, ?_⟩
      intro id _ hw htakeover
      exact absurd (hw.trans htakeover.symm) (by decide)
    exact ⟨by decide +kernel, (matches_of_apart hr h).1⟩
  · have h : (Write.drop [2, 9, 2]).Apart takeover := by
      show (1 : UInt64) ∉ [2, 9, 2]
      decide
    exact ⟨by decide +kernel, (matches_of_apart hr h).1⟩

end Roster

end FleetRoster
