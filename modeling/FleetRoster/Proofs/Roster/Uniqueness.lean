/-
Rosters in which identifiers are unique. A roster does not refuse a row whose identifier is taken;
whoever writes is to check first that it is free. If the rows of the start carry different
identifiers and every write was checked, then the index names exactly who carries what, and for
that reason the check, which asks the index only, can be relied on for the next write.
-/
import FleetRoster.Proofs.Contents.Unique
import FleetRoster.Proofs.Roster.Writes
import FleetRoster.Record.Server

namespace FleetRoster

namespace Roster

variable {V κ : Type} [Key κ] [Entity V κ] {order : ViewOrder V}

/-- Each of the writes was checked right before it was made. -/
def Guarded (r : Roster order) : List (Write V κ) → Prop
  | [] => True
  | w :: writes => w.Checked r.toContents ∧ (r.write w).Guarded writes

theorem exact_run {r : Roster order} (hr : r.toContents.Exact) {writes more : List (Write V κ)}
    (hg : r.Guarded (writes ++ more)) : (r.run writes).toContents.Exact := by
  induction writes generalizing r with
  | nil => exact hr
  | cons w writes ih =>
    obtain ⟨hw, hrest⟩ := hg
    refine ih ?_ hrest
    rw [toContents_write]; exact hr.apply hw

/-- At every moment of a guarded run from rows of different identifiers: no two keys have rows with
the same identifier; the index names a key for an identifier exactly if the key's row carries it;
and the check of an identifier for a key fails exactly if the row of some other key carries it, the
fault naming the identifier and that key. -/
theorem index_exact_of_guarded {rows : List V} (hrows : DistinctIdentifiers rows)
    {writes more : List (Write V κ)} (hg : (ofList rows : Roster order).Guarded (writes ++ more)) :
    let r := (ofList rows : Roster order).run writes
    (∀ id key other row row', id ≠ "" → r.get? key = some row → r.get? other = some row' →
      Entity.identifier? row = some id → Entity.identifier? row' = some id → key = other) ∧
    (∀ id key, r.holder? id = some key ↔
      id ≠ "" ∧ ∃ row, r.get? key = some row ∧ Entity.identifier? row = some id) ∧
    (∀ id key fault, r.ensureFree id key = .error fault ↔
      ∃ other, other ≠ key ∧ (id ≠ "" ∧ ∃ row, r.get? other = some row ∧ Entity.identifier? row = some id) ∧
        fault = .taken id (Key.number other)) := by
  intro r
  have hr : r.toContents.Exact := exact_run (Contents.exact_ofList hrows) hg
  have hholder : ∀ id key, r.holder? id = some key ↔
      id ≠ "" ∧ ∃ row, r.get? key = some row ∧ Entity.identifier? row = some id := by
    intro id key
    rw [hr id key, Contents.identifierOf?_eq_some_iff_carried]
  refine ⟨?_, hholder, ?_⟩
  · -- both keys are the one that the index names
    intro id key other row row' hne hrow hrow' hid hid'
    have hk := (hholder id key).2 ⟨hne, row, hrow, hid⟩
    rw [(hholder id other).2 ⟨hne, row', hrow', hid'⟩] at hk
    cases hk; rfl
  · intro id key fault
    rw [hr.ensureFree_eq_error_iff]
    simp only [Contents.identifierOf?_eq_some_iff_carried]

/-- A server gives its agent up for another, and a third takes the freed one over. -/
theorem index_exact_of_agent_reused :
    let rows : List Server := [{ id := 1, uuid := "a" }, { id := 2, uuid := "b" }, { id := 4 }, { id := 5 }]
    let writes : List (Write Server UInt64) :=
      [.put { id := 1, uuid := "c" }, .put { id := 3, uuid := "a" }, .drop [2, 7]]
    let r := (ofList rows : ServerRoster).run writes
    DistinctIdentifiers rows ∧ (ofList rows : ServerRoster).Guarded (writes ++ [.put { id := 8, uuid := "b" }]) ∧
      r.holder? "a" = some 3 ∧ r.ensureFree "a" 1 = .error (.taken "a" 3) := by
  intro rows writes r
  have hrows : DistinctIdentifiers rows := by
    simp only [rows, DistinctIdentifiers, List.pairwise_cons, List.forall_mem_cons, Entity.identifier?,
      Option.some.injEq]
    refine ⟨⟨?_, ?_, ?_, by simp⟩, ⟨?_, ?_, by simp⟩, ⟨fun id hne h => absurd h.symm hne, by simp⟩, by simp⟩
    all_goals
      rintro id - rfl
      decide
  have hg : (ofList rows : ServerRoster).Guarded (writes ++ [.put { id := 8, uuid := "b" }]) := by
    refine ⟨?_, ?_, trivial, ?_, trivial⟩
    all_goals
      rintro id - ⟨⟩
      rfl
  obtain ⟨-, hholder, hcheck⟩ := index_exact_of_guarded hrows hg
  have hthird : "a" ≠ "" ∧ ∃ row, r.get? 3 = some row ∧ Entity.identifier? row = some "a" :=
    ⟨by decide, { id := 3, uuid := "a" }, rfl, rfl⟩
  exact ⟨hrows, hg, (hholder "a" 3).2 hthird, (hcheck "a" 1 _).2 ⟨3, by decide, hthird, rfl⟩⟩

end Roster

end FleetRoster
