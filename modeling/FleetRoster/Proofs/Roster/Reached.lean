/-
Rosters as they can come about: built from rows and then written by any number of calls, some of which
may still be on their way, so that the listing is behind the contents. Whatever writes keep of the
contents holds of them, and no listing is ahead. One more write catches the listing up.
-/
import FleetRoster.Proofs.Contents.Index
import FleetRoster.Proofs.Roster.Canonical
import FleetRoster.Proofs.Roster.Nested

namespace FleetRoster

open Std (TransCmp)

variable {V κ : Type} [Key κ] [Entity V κ] {order : ViewOrder V}

/-! ## Rosters as calls leave them -/

namespace Traffic

/-- A step of a call changes the contents by a write, or not at all. -/
theorem move?_toContents {t t' : Traffic order} {m : Move V κ} (hm : t.move? m = some t') :
    (∃ w, t'.roster.toContents = t.roster.toContents.apply w) ∨ t'.roster.toContents = t.roster.toContents := by
  cases m with
  | change w =>
    cases hm
    exact .inl ⟨w, rfl⟩
  | snapshot i =>
    obtain ⟨call, -, -, rfl⟩ := move?_snapshot hm
    exact .inr rfl
  | publish i =>
    obtain ⟨call, taken, -, -, rfl⟩ := move?_publish hm
    exact .inr (t.roster.publish_cases taken).1

/-- What every write keeps of the contents, every interleaving of calls keeps. -/
theorem run?_induction {P : Contents V κ → Prop} (happly : ∀ c w, P c → P (c.apply w)) {t t' : Traffic order}
    (ht : P t.roster.toContents) {moves : List (Move V κ)} (hr : t.run? moves = some t') :
    P t'.roster.toContents := by
  induction moves generalizing t with
  | nil => cases hr; exact ht
  | cons m moves ih =>
    obtain ⟨u, hu, hr⟩ := Option.bind_eq_some_iff.1 hr
    refine ih ?_ hr
    rcases move?_toContents hu with ⟨w, h⟩ | h
    · rw [h]; exact happly _ w ht
    · rw [h]; exact ht

end Traffic

namespace Roster

/-- The roster is what some interleaving of calls has left of a roster built from rows. -/
def Reached (r : Roster order) : Prop :=
  ∃ rows moves t, (Traffic.start order rows).run? moves = some t ∧ t.roster = r

theorem Reached.keyed {r : Roster order} (h : r.Reached) : r.toContents.Keyed := by
  obtain ⟨rows, moves, t, ht, rfl⟩ := h
  exact Traffic.run?_induction (fun _ w hc => hc.apply w) (Contents.keyed_ofList rows) ht

theorem Reached.backed {r : Roster order} (h : r.Reached) : r.toContents.Backed := by
  obtain ⟨rows, moves, t, ht, rfl⟩ := h
  exact Traffic.run?_induction (fun _ w hc => hc.apply w) (Contents.backed_ofList rows) ht

theorem Reached.stamp {r : Roster order} (h : r.Reached) : r.listing.stamp ≤ r.stamp := by
  obtain ⟨rows, moves, t, ht, rfl⟩ := h
  exact ((Traffic.timely_start rows).run ht).listing

/-! ## Writes whose snapshots have the rows in any order -/

/-- A write of `r` may leave `r'`: its snapshot has the rows of its moment, in any order whatsoever. -/
def Leads (r : Roster order) (w : Write V κ) (r' : Roster order) : Prop :=
  ∃ listed : List V, listed.Perm (r.change w).rows.values ∧ r' = (r.change w).publish ⟨(r.change w).stamp, listed⟩

theorem leads_write (r : Roster order) (w : Write V κ) : r.Leads w (r.write w) := ⟨_, List.Perm.refl _, rfl⟩

/-- Whichever order that is, the write leaves the same roster. -/
theorem Leads.eq_write [TransCmp order.compare] {r r' : Roster order} {w : Write V κ} (h : r.Leads w r')
    (hk : r.toContents.Keyed) : r' = r.write w := by
  obtain ⟨listed, hlisted, rfl⟩ := h
  exact publish_of_perm _ (hk.apply w) _ hlisted

/-! ## Rosters that cannot be told apart -/

/-- The rosters have the same rows, the same index and the same listing; their stamps may differ. -/
structure Matches (r s : Roster order) : Prop where
  contents : r.toContents = s.toContents
  sorted : r.sorted = s.sorted
  visible : r.visible = s.visible

end Roster

end FleetRoster
