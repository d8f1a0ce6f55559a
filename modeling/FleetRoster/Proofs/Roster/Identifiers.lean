/-
Identifiers in a roster: whom the index names after the roster was built and written any number of
times, whether or not the rows' identifiers are unique.
-/
import FleetRoster.Proofs.Contents.Index
import FleetRoster.Proofs.Roster.Writes

namespace FleetRoster

namespace Roster

variable {V κ : Type} [Key κ] [Entity V κ] {order : ViewOrder V}

/-- The contents of a roster that was built from rows and then written. -/
theorem toContents_run_ofList (rows : List V) (writes : List (Write V κ)) :
    ((ofList rows : Roster order).run writes).toContents =
      Contents.replay {} (rows.map .put ++ writes) := by
  rw [toContents_run, Contents.replay_append, ← Contents.ofList_eq_replay]; rfl

/-- An identifier belongs to the key that claimed it last, in the history of the roster from its
first row on. So the index names rows that are there and carry the identifier, one identifier a
key, never the empty one, and looking a row up by identifier finds it exactly when the index
names its key. -/
theorem holder?_of_history (rows : List V) (writes : List (Write V κ)) :
    let r := (ofList rows : Roster order).run writes
    (∀ id key, r.holder? id = some key ↔ Write.LastClaim (rows.map .put ++ writes) id key) ∧
    (∀ id key, r.holder? id = some key →
      ∃ row, r.get? key = some row ∧ Entity.key row = key ∧ Entity.identifier? row = some id) ∧
    (∀ id id' key, r.holder? id = some key → r.holder? id' = some key → id = id') ∧
    r.holder? "" = none ∧
    (∀ id, (r.identified? id).isSome = (r.holder? id).isSome ∧
      ∀ row, r.identified? id = some row → Entity.identifier? row = some id) := by
  intro r
  have hc : r.toContents = Contents.replay {} (rows.map .put ++ writes) := toContents_run_ofList rows writes
  have hb : r.toContents.Backed := by rw [hc]; exact Contents.backed_empty.replay _
  have hk : r.toContents.Keyed := keyed_run (Contents.keyed_ofList rows) writes
  refine ⟨fun id key => ?_, fun id key h => ?_, fun id id' key h h' => ?_, hb.holder?_empty, fun id => ?_⟩
  · rw [hc]; exact Contents.holder?_replay _ id key
  · obtain ⟨row, hrow, hid⟩ := Contents.identifierOf?_eq_some_iff.1 (hb id key h)
    exact ⟨row, hrow, hk key row hrow, (Entity.indexed?_eq_some_iff.1 hid).2⟩
  · have := hb id key h
    rw [hb id' key h'] at this
    cases this; rfl
  · cases h : r.holder? id with
    | none =>
      have hnone : r.identified? id = none := by
        unfold Contents.identified?
        rw [h]; rfl
      rw [hnone]
      exact ⟨rfl, fun row hrow => by cases hrow⟩
    | some key =>
      obtain ⟨row, hrow, -, hid⟩ := hb.identified?_eq_some h
      rw [hrow]
      refine ⟨rfl, fun other ho => ?_⟩
      cases ho; exact (Entity.indexed?_eq_some_iff.1 hid).2

end Roster

end FleetRoster
