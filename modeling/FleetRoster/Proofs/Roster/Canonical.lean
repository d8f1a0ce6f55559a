/-
The listing of a roster is determined by its rows. After any history of writes the listing is the
one list of the rows in strict order, with each key's row once, and its public part is the part
that the order shows. Neither the history that led to the rows nor the order in which a snapshot
happens to list them can be told from it, because no two rows of a roster tie in the strict order.
-/
import FleetRoster.Proofs.Roster.Writes

namespace FleetRoster

open Std (TransCmp)

variable {V κ : Type} [Key κ] [Entity V κ] {order : ViewOrder V}

/-- In whatever order the rows of contents are handed over, they make one listing. -/
theorem Contents.Keyed.ofRows_of_perm [TransCmp order.compare] {c : Contents V κ} (hc : c.Keyed) (stamp : Nat)
    {listed : List V} (h : listed.Perm c.rows.values) :
    Listing.ofRows order stamp listed = .ofRows order stamp c.rows.values := by
  have hlisted : (Listing.ofRows order stamp listed).Shows order listed :=
    Listing.shows_ofRows stamp (hc.distinct_of_perm h)
  obtain ⟨hall, hvisible⟩ := hlisted.unique (Listing.shows_ofRows stamp hc.distinct_values) h
  exact Listing.ext rfl hall hvisible

namespace Roster

/-- Publishing a snapshot comes to the same in whatever order it has the rows of its moment. -/
theorem publish_of_perm [TransCmp order.compare] (r : Roster order) {c : Contents V κ} (hc : c.Keyed) (stamp : Nat)
    {listed : List V} (h : listed.Perm c.rows.values) :
    r.publish ⟨stamp, listed⟩ = r.publish ⟨stamp, c.rows.values⟩ := by
  unfold publish
  rw [show (⟨stamp, listed⟩ : Snapshot V).rows = listed from rfl, hc.ofRows_of_perm stamp h]

/-! ## Snapshots that list the rows in any order -/

/-- The rosters that come about from some rows by some writes, each snapshot on the way having the rows
of its moment in any order whatsoever. -/
inductive Attained (rows : List V) : List (Write V κ) → Roster order → Prop
  | built {listed : List V} (h : listed.Perm (Contents.ofList rows).rows.values) :
    Attained rows [] { (ofList rows : Roster order) with listing := .ofRows order 0 listed }
  | written {writes : List (Write V κ)} {r : Roster order} (w : Write V κ) {listed : List V}
    (hr : Attained rows writes r) (h : listed.Perm (r.change w).rows.values) :
    Attained rows (writes ++ [w]) ((r.change w).publish ⟨(r.change w).stamp, listed⟩)

/-- Listing the rows by ascending key is one of the ways. -/
theorem attained_run (rows : List V) (writes : List (Write V κ)) :
    Attained rows writes ((ofList rows : Roster order).run writes) := by
  induction writes using List.reverseRecOn with
  | nil => exact .built (List.Perm.refl _)
  | append_singleton writes w ih =>
    have hrun : (ofList rows : Roster order).run (writes ++ [w]) = ((ofList rows).run writes).write w :=
      List.foldl_append
    rw [hrun]
    exact ih.written w (List.Perm.refl _)

/-- If the listing is by a total preorder, it is the only one. -/
theorem Attained.eq_run [TransCmp order.compare] {rows : List V} {writes : List (Write V κ)} {r : Roster order}
    (hr : Attained rows writes r) : r = (ofList rows).run writes := by
  induction hr with
  | built h => exact Roster.ext rfl rfl rfl ((Contents.keyed_ofList rows).ofRows_of_perm 0 h)
  | @written writes r w listed _ h ih =>
    subst ih
    have hk : ((ofList rows : Roster order).run writes).toContents.Keyed := keyed_run (Contents.keyed_ofList rows) writes
    rw [publish_of_perm _ (hk.apply w) _ h, run_append]
    rfl

/-! ## The listing is that of the rows -/

theorem Attained.keyed [TransCmp order.compare] {rows : List V} {writes : List (Write V κ)} {r : Roster order}
    (hr : Attained rows writes r) : r.toContents.Keyed := by
  rw [hr.eq_run]
  exact keyed_run (Contents.keyed_ofList rows) writes

theorem Attained.shows [TransCmp order.compare] {rows : List V} {writes : List (Write V κ)} {r : Roster order}
    (hr : Attained rows writes r) : r.listing.Shows order r.rows.values := by
  rw [hr.eq_run]
  exact ((settled_ofList rows).run writes).shows (keyed_run (Contents.keyed_ofList rows) writes)

/-- Servers by rank and rows by key are listed in a total preorder. Under any such order, and whatever
the history: the listing is the only list that is made of the roster's rows and in strict order; it
has every key once, with the row that is found under the key; its public part is made of its rows
that the order shows; and every roster with the same rows, whatever its own history, has the same
listing. -/
theorem sorted_of_history :
    TransCmp Server.order.compare ∧ TransCmp (ViewOrder.byKey (V := V)).compare ∧
    ∀ (order : ViewOrder V) [TransCmp order.compare] (rows : List V) (writes : List (Write V κ)) (r : Roster order),
      Attained rows writes r →
      (∀ l, l.Perm r.rows.values ∧ l.Pairwise (fun a b => order.strict a b = .lt) ↔ l = r.sorted) ∧
      ((r.sorted.map Entity.key).Nodup ∧ ∀ row, row ∈ r.sorted ↔ r.get? (Entity.key row) = some row) ∧
      r.visible = r.sorted.filter order.visible ∧
      (∀ rows' writes' (r' : Roster order), Attained rows' writes' r' → (∀ key, r'.get? key = r.get? key) →
        r'.sorted = r.sorted ∧ r'.visible = r.visible) := by
  refine ⟨inferInstance, inferInstance, ?_⟩
  intro order _ rows writes r hr
  have hk : r.toContents.Keyed := hr.keyed
  have hshows : r.listing.Shows order r.rows.values := hr.shows
  refine ⟨fun l => ?_, ⟨?_, fun row => ?_⟩, hshows.visible, ?_⟩
  · constructor
    · rintro ⟨hperm, hsorted⟩
      have hl : Listing.Shows order ⟨0, l, l.filter order.visible⟩ r.rows.values := ⟨hperm, hsorted, rfl⟩
      exact (hl.unique hshows (List.Perm.refl _)).1
    · rintro rfl
      exact ⟨hshows.perm, hshows.sorted⟩
  · rw [List.Nodup, List.pairwise_map]
    exact hk.distinct_of_perm hshows.perm
  · rw [show r.sorted = r.listing.all from rfl, hshows.perm.mem_iff, Contents.mem_values]
    constructor
    · rintro ⟨key, hget⟩
      rw [hk key row hget]; exact hget
    · intro hget
      exact ⟨_, hget⟩
  · intro rows' writes' r' hr' hget
    have hrows : r'.rows = r.rows := Contents.rows_ext hget
    exact hr'.shows.unique hshows (by rw [hrows])

/-- Servers of the least and the greatest rank, two of them tied, from a snapshot taken backwards. -/
theorem sorted_of_extreme_ranks :
    let first : Server := { id := 1, rank := -2147483648 }
    let second : Server := { id := 2, rank := 2147483647, hidden := true }
    let third : Server := { id := 3, rank := 2147483647 }
    ∃ r : ServerRoster, Attained [first, second] [.put third] r ∧
      r.sorted = [second, third, first] ∧ r.visible = [third, first] := by
  intro first second third
  have hr : Attained [first, second] [.put third]
      (((ofList [first, second] : ServerRoster).change (.put third)).publish ⟨1, [third, second, first]⟩) :=
    (attained_run [first, second] []).written (.put third) (List.reverse_perm [first, second, third])
  obtain ⟨-, -, hlisting⟩ := sorted_of_history (V := Server)
  obtain ⟨honly, -, hvisible, -⟩ := hlisting Server.order _ _ _ hr
  have hsorted := (honly [second, third, first]).1
    ⟨(List.rotate_perm [first, second, third] 1), by decide +kernel⟩
  exact ⟨_, hr, hsorted.symm, by rw [hvisible, ← hsorted]; rfl⟩

end Roster

end FleetRoster
