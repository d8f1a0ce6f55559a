/-
Rosters that are built at once, beside rosters that the same rows are written to one after the other. The
second has counted a write for each row and the first has counted none, and this is all that sets them
apart: stamps are only ever compared with each other, so counting from some number on instead of from zero
decides no publication differently, whatever calls come later and however their steps interleave.
-/
import FleetRoster.Proofs.Roster.Identifiers
import FleetRoster.Proofs.Roster.Reached

namespace FleetRoster

open Std (TransCmp)

variable {V κ : Type} [Key κ] [Entity V κ] {order : ViewOrder V}

/-! ## Counting from some number on -/

/-- The same rows after some more writes. -/
def Snapshot.later (s : Snapshot V) (more : Nat) : Snapshot V := { s with stamp := s.stamp + more }

/-- The same listing after some more writes. -/
def Listing.later (l : Listing V) (more : Nat) : Listing V := { l with stamp := l.stamp + more }

namespace Roster

/-- The roster of the same contents and listing that has counted some more writes. -/
def later (r : Roster order) (more : Nat) : Roster order :=
  { r with stamp := r.stamp + more, listing := r.listing.later more }

theorem matches_later (r : Roster order) (more : Nat) : r.Matches (r.later more) := ⟨rfl, rfl, rfl⟩

theorem change_later (r : Roster order) (more : Nat) (w : Write V κ) :
    (r.later more).change w = (r.change w).later more := by
  refine Roster.ext rfl rfl ?_ rfl
  show r.stamp + more + 1 = r.stamp + 1 + more
  omega

theorem publish_later (r : Roster order) (more : Nat) (s : Snapshot V) :
    (r.later more).publish (s.later more) = (r.publish s).later more := by
  have hcompare : (s.later more).stamp ≤ (r.later more).listing.stamp ↔ s.stamp ≤ r.listing.stamp :=
    Nat.add_le_add_iff_right
  unfold publish
  by_cases h : s.stamp ≤ r.listing.stamp
  · rw [if_pos h, if_pos (hcompare.2 h)]
  · rw [if_neg h, if_neg (mt hcompare.1 h)]
    rfl

theorem write_later (r : Roster order) (more : Nat) (w : Write V κ) :
    (r.later more).write w = (r.write w).later more := by
  unfold write
  rw [change_later]
  exact publish_later (r.change w) more (r.change w).snapshot

theorem run_later (r : Roster order) (more : Nat) (writes : List (Write V κ)) :
    (r.later more).run writes = (r.run writes).later more := by
  induction writes generalizing r with
  | nil => rfl
  | cons w writes ih =>
    show ((r.later more).write w).run writes = ((r.write w).run writes).later more
    rw [write_later, ih]

theorem Settled.later {r : Roster order} (hr : r.Settled) (more : Nat) : (r.later more).Settled := by
  unfold Settled Roster.later
  rw [hr]
  rfl

end Roster

/-! ## Calls that overlap -/

/-- How far a call has come, had there been some more writes before it. -/
def Phase.later (more : Nat) : Phase V → Phase V
  | .changed => .changed
  | .sorting taken => .sorting (taken.later more)
  | .finished => .finished

/-- The call after some more writes. -/
def Call.later (more : Nat) (call : Call V κ) : Call V κ :=
  { call with stamp := call.stamp + more, phase := call.phase.later more }

namespace Traffic

/-- A roster with no call on its way. -/
def ofRoster (r : Roster order) : Traffic order where
  roster := r
  history := [r.toContents]
  calls := []

/-- The same traffic on a roster that has counted some more writes. -/
def later (t : Traffic order) (more : Nat) : Traffic order where
  roster := t.roster.later more
  history := t.history
  calls := t.calls.map (Call.later more)

theorem move?_later (t : Traffic order) (more : Nat) (m : Move V κ) :
    (t.later more).move? m = (t.move? m).map (·.later more) := by
  cases m with
  | change w =>
    simp only [move?, later, Roster.change_later, Option.map_some, List.map_append, List.map_singleton]
    rfl
  | snapshot i =>
    simp only [move?, later, List.getElem?_map]
    rcases t.calls[i]? with _ | ⟨w, stamp, _ | taken | _⟩
    case some.changed =>
      -- the snapshot is one of as many writes more
      simp only [Option.map_some, Call.later, Phase.later, List.map_set]
      rfl
    all_goals rfl
  | publish i =>
    simp only [move?, later, List.getElem?_map]
    rcases t.calls[i]? with _ | ⟨w, stamp, _ | taken | _⟩
    case some.sorting =>
      simp only [Option.map_some, Call.later, Phase.later, List.map_set, Roster.publish_later]
    all_goals rfl

theorem run?_later (t : Traffic order) (more : Nat) (moves : List (Move V κ)) :
    (t.later more).run? moves = (t.run? moves).map (·.later more) := by
  induction moves generalizing t with
  | nil => rfl
  | cons m moves ih =>
    show ((t.later more).move? m).bind (run? · moves) = ((t.move? m).bind (run? · moves)).map (·.later more)
    rw [move?_later]
    cases t.move? m with
    | none => rfl
    | some next => exact ih next

end Traffic

/-! ## Rows one after the other -/

namespace Roster

theorem foldl_update (r : Roster order) (rows : List V) : rows.foldl update r = r.run (rows.map .put) := by
  unfold run
  rw [List.foldl_map]
  rfl

/-- Writing the rows one after the other leaves the roster of the rows, but for the writes it has counted. -/
theorem foldl_update_ofList_nil (rows : List V) :
    rows.foldl update (ofList [] : Roster order) = (ofList rows).later rows.length := by
  rw [foldl_update]
  refine ((settled_ofList []).run _).eq ((settled_ofList rows).later rows.length) ?_ ?_
  · rw [toContents_run_ofList]
    exact (Contents.ofList_eq_replay rows).symm
  · rw [stamp_run, List.length_map]
    rfl

/-- Take rows in which keys and identifiers may repeat, and a listing by a total preorder. The roster of the
rows and the empty one that is updated with each of them in turn differ in nothing but the writes they
have counted. So they do after any writes made one after the other, whatever order the snapshots on the way
list the rows in; and if calls overlap, a step can be taken on both or on neither, and at every moment
each call is as far and the contents and the listing are the same on both. -/
theorem ofList_matches_updates [TransCmp order.compare] (rows : List V) :
    let bulk : Roster order := .ofList rows
    let stepwise : Roster order := rows.foldl update (.ofList [])
    (stepwise = bulk.later rows.length ∧ bulk.Matches stepwise ∧ bulk.stamp = 0 ∧ stepwise.stamp = rows.length) ∧
    (∀ writes : List (Write V κ), (bulk.run writes).Matches (stepwise.run writes) ∧
      (stepwise.run writes).stamp = (bulk.run writes).stamp + rows.length) ∧
    (∀ (writes : List (Write V κ)) (r s : Roster order), Attained rows writes r →
      Attained [] (rows.map .put ++ writes) s → r.Matches s ∧ s.stamp = r.stamp + rows.length) ∧
    ∀ moves : List (Move V κ),
      (Traffic.ofRoster stepwise).run? moves = ((Traffic.ofRoster bulk).run? moves).map (·.later rows.length) ∧
      ∀ t u, (Traffic.ofRoster bulk).run? moves = some t → (Traffic.ofRoster stepwise).run? moves = some u →
        t.roster.Matches u.roster := by
  intro bulk stepwise
  have hlater : stepwise = bulk.later rows.length := foldl_update_ofList_nil rows
  have hmoves : ∀ moves : List (Move V κ),
      (Traffic.ofRoster stepwise).run? moves = ((Traffic.ofRoster bulk).run? moves).map (·.later rows.length) := by
    rw [hlater]
    exact Traffic.run?_later (Traffic.ofRoster bulk) rows.length
  have hwrites : ∀ writes : List (Write V κ), (bulk.run writes).Matches (stepwise.run writes) ∧
      (stepwise.run writes).stamp = (bulk.run writes).stamp + rows.length := by
    intro writes
    rw [hlater, run_later]
    exact ⟨matches_later _ _, rfl⟩
  refine ⟨⟨hlater, ?_, rfl, ?_⟩, hwrites, fun writes r s hr hs => ?_, fun moves => ⟨hmoves moves, ?_⟩⟩
  · rw [hlater]; exact bulk.matches_later _
  · rw [hlater]; exact Nat.zero_add _
  · rw [hr.eq_run, hs.eq_run, run_append, ← foldl_update]
    exact hwrites writes
  · intro t u ht hu
    rw [hmoves, ht] at hu
    cases hu
    exact t.roster.matches_later _

/-- Servers of equal rank, one of which takes an agent over and gives it up again; then two calls overlap,
and the listing of the first is dropped on both rosters. -/
theorem ofList_matches_updates_overtaken :
    let rows : List Server := [{ id := 2, uuid := "a" }, { id := 1, uuid := "a" }, { id := 1, uuid := "b" }]
    let bulk : ServerRoster := .ofList rows
    let stepwise : ServerRoster := rows.foldl update (.ofList [])
    let moves : List (Move Server UInt64) :=
      [.change (.put { id := 3, uuid := "b" }), .snapshot 0, .change (.drop [2, 9]), .snapshot 1, .publish 1,
        .publish 0]
    stepwise.holder? "a" = none ∧ ∃ t u,
      (Traffic.ofRoster bulk).run? moves = some t ∧ (Traffic.ofRoster stepwise).run? moves = some u ∧
        (t.roster.listing.stamp, u.roster.listing.stamp) = (2, 5) ∧ t.roster.Matches u.roster ∧
        t.roster.rows.values = [{ id := 1, uuid := "b" }, { id := 3, uuid := "b" }] := by
  intro rows bulk stepwise moves
  obtain ⟨t, ht, hstamp, hrows⟩ : ∃ t, (Traffic.ofRoster bulk).run? moves = some t ∧ t.roster.listing.stamp = 2 ∧
      t.roster.rows.values = [{ id := 1, uuid := "b" }, { id := 3, uuid := "b" }] :=
    ⟨_, rfl, rfl, rfl⟩
  obtain ⟨-, -, -, hmoves⟩ := @ofList_matches_updates Server UInt64 _ _ Server.order _ rows
  obtain ⟨hrun, hmatches⟩ := hmoves moves
  have hu : (Traffic.ofRoster stepwise).run? moves = some (t.later 3) := by
    rw [hrun, ht]; rfl
  refine ⟨by decide +kernel, t, t.later 3, ht, hu, ?_, hmatches t _ ht hu, hrows⟩
  show (t.roster.listing.stamp, t.roster.listing.stamp + 3) = _
  rw [hstamp]

end Roster

end FleetRoster
