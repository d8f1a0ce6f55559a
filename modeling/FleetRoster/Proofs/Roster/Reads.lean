/-
A roster as a plain map in which the last write of a key wins. After any history the look-up of a key tells
what was written for it last, and every other way of reading the contents, each with an order and an early
end of its own, tells what the look-up tells. The list of the keys and rows is its graph, and the size is
the number of keys that have a row. A visit goes through such a list: to its end if the visitor is never
done, and with the first `n` visits, or all there are, if the visitor is done at the `n`-th. Several keys at
once give their rows in the order of the keys, repetitions included, or the first key without a row. A
caller is permitted exactly if every row of the keys grants it.
-/
import FleetRoster.Proofs.Contents.Reads
import FleetRoster.Proofs.Roster.Identifiers
import FleetRoster.Record.Server

namespace FleetRoster

namespace Roster

variable {V κ : Type} [Key κ] [Entity V κ] {order : ViewOrder V}

/-- Take a roster that was built from rows and then written. A key has the row that was put for it last in
this history, from the first row on, unless it has been dropped since; and a row stands under its own key.
Every other reading comes down to this look-up: the list and the size, a visit of the rows in whatever order,
several keys at once, and permissions, however often and in whatever order the keys are listed. -/
theorem reads_of_history (rows : List V) (writes : List (Write V κ)) :
    let r := (ofList rows : Roster order).run writes
    (∀ key row, r.get? key = some row ↔ Write.LastPut (rows.map .put ++ writes) key row) ∧
    (∀ key row, r.get? key = some row → Entity.key row = key) ∧
    ((∀ key row, (key, row) ∈ r.toList ↔ r.get? key = some row) ∧ (r.toList.map (·.1)).Nodup ∧
      {key | r.get? key ≠ none}.encard = r.size ∧ (r.isEmpty = true ↔ ∀ key, r.get? key = none)) ∧
    ((∀ {σ : Type} (visitor : κ → V → σ → ForInStep σ) (s : σ),
        r.visit visitor s = Contents.visitAll visitor r.toList s) ∧
      ∀ {σ : Type} (f : κ → V → σ → σ) (s : σ) (listed : List (κ × V)), listed.Perm r.toList →
        Contents.visitAll (everyVisit f) listed s = listed.foldl (fun s entry => f entry.1 entry.2 s) s ∧
        ∀ n, 1 ≤ n → Contents.visitAll (visitUpTo n f) listed (0, s) =
          (min n r.size, (listed.take n).foldl (fun s entry => f entry.1 entry.2 s) s)) ∧
    (∀ keys, (∃ found, keys.map r.get? = found.map some ∧ r.getMany keys = .ok found) ∨
      ∃ before key after, keys = before ++ key :: after ∧ (∀ other ∈ before, r.get? other ≠ none) ∧
        r.get? key = none ∧ r.getMany keys = .error (.missing (Key.number key))) ∧
    ∀ caller keys,
      (r.permits caller keys = true ↔
        ∀ key ∈ keys, ∀ row, r.get? key = some row → Entity.grants row caller = true) ∧
      ∀ others, (∀ key, key ∈ others ↔ key ∈ keys) → r.permits caller others = r.permits caller keys := by
  intro r
  have hc : r.toContents = Contents.replay {} (rows.map .put ++ writes) := toContents_run_ofList rows writes
  have hkeyed : r.toContents.Keyed := keyed_run (Contents.keyed_ofList rows) writes
  refine ⟨fun key row => ?_, hkeyed, ⟨r.mem_toList, r.nodup_keys_toList, r.encard_keys, r.isEmpty_iff⟩,
    ⟨fun _ _ => rfl, fun f s listed hlisted => ⟨Contents.visitAll_everyVisit f listed s, fun n hn => ?_⟩⟩,
    r.getMany_cases, fun caller keys => ⟨Contents.permits_iff, fun others hsame => ?_⟩⟩
  · rw [hc]; exact Contents.get?_replay _ key row
  · rw [Contents.visitAll_visitUpTo f listed hn, hlisted.length_eq, Contents.length_toList, Nat.zero_add, Nat.sub_zero]
  · rw [Bool.eq_iff_iff, Contents.permits_iff, Contents.permits_iff]
    simp only [hsame]

/-- A server that is replaced, one that is deleted and comes back, and one that is deleted for good, read
from a list of the rows turned round. -/
theorem reads_of_returned_server :
    let rows : List Server := [{ id := 1 }, { id := 2, owner := 7 }, { id := 1, owner := 7 }]
    let writes : List (Write Server UInt64) := [.drop [2, 9, 2], .put { id := 3 }, .put { id := 2 }, .drop [3]]
    let r := (ofList rows : ServerRoster).run writes
    let ids (listed : List (UInt64 × Server)) : Nat × List UInt64 :=
      Contents.visitAll (visitUpTo 1 fun id _ seen => seen ++ [id]) listed (0, [])
    r.get? 1 = some { id := 1, owner := 7 } ∧ r.get? 3 = none ∧ ids r.toList.reverse = (1, [2]) ∧
      r.getMany [2, 1, 2, 3, 9] = .error (.missing 3) ∧ r.permits ⟨7, .member⟩ [3, 1, 1] = true ∧
      r.permits ⟨7, .member⟩ [1, 2] = false := by
  intro rows writes r ids
  obtain ⟨hget, -, -, ⟨-, hvisit⟩, -, hpermits⟩ := @reads_of_history Server UInt64 _ _ Server.order rows writes
  have hfirst : r.get? 1 = some { id := 1, owner := 7 } := by
    refine (hget 1 _).2 ⟨[.put { id := 1 }, .put { id := 2, owner := 7 }], writes, rfl, rfl, ?_⟩
    simp [writes, Write.Touches, Entity.key]
  have hlist : r.toList = [(1, { id := 1, owner := 7 }), (2, { id := 2 })] := rfl
  refine ⟨hfirst, rfl, ?_, rfl, ?_, ?_⟩
  · obtain ⟨-, hupTo⟩ := hvisit (fun id _ seen => seen ++ [id]) [] r.toList.reverse (List.reverse_perm _)
    exact (hupTo 1 (Nat.le_refl 1)).trans rfl
  · exact ((hpermits ⟨7, .member⟩ [1, 3]).2 [3, 1, 1] (by simp [or_comm])).trans rfl
  · rfl

end Roster

end FleetRoster
