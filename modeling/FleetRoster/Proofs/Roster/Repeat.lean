/-
Writes of a roster that say something again: a deletion that lists a key twice, or one that has no row, and
a write that has just been made. They count as writes and publish a listing each, but nothing that can be
asked of the roster tells them from deletions without the repetition, or from one write. Only the keys that
have rows matter to a deletion, in whatever order and how often they are listed: it leaves the roster without
their rows, and without the index entries that belong to them.
-/
import FleetRoster.Proofs.Contents.Repeat
import FleetRoster.Proofs.Roster.Stepwise

namespace FleetRoster

open Std (TransCmp)

namespace Roster

variable {V κ : Type} [Key κ] [Entity V κ] {order : ViewOrder V}

/-- No question is about the number of writes. -/
theorem answer_later (r : Roster order) (more : Nat) (question : Question V κ) :
    (r.later more).answer question = r.answer question := by
  cases question <;> rfl

/-- Writes that make the same contents make the same roster. -/
theorem write_congr {r : Roster order} {w v : Write V κ} (h : r.apply w = r.apply v) : r.write w = r.write v := by
  have hchange : r.change w = r.change v := by
    unfold change
    rw [h]
  unfold write
  rw [hchange]

/-- Two writes that make the contents of one leave the roster of the one, but for having been counted. -/
theorem write_write_eq_later {r : Roster order} (hr : r.listing.stamp ≤ r.stamp) {w v once : Write V κ}
    (h : (r.apply w).apply v = r.apply once) : (r.write w).write v = (r.write once).later 1 := by
  refine ((settled_write hr w).write v).eq ((settled_write hr once).later 1) ?_ ?_
  · rw [toContents_write, toContents_write, h]
    exact (r.toContents_write once).symm
  · rw [stamp_write, stamp_write]
    exact congrArg (· + 1) (r.stamp_write once).symm

/-- Take a roster as any interleaving of calls may have left it, whatever identifiers its rows share. Deletions
that list the same of the keys that have rows leave the same roster, and to delete more keys later comes to
deleting them all at once. A write made a second time counts, and yet leaves what the first time left; no
question is answered differently from then on. All this is so in whatever order the snapshots have the rows. -/
theorem matches_of_repeated [TransCmp order.compare] {r : Roster order} (hr : r.Reached) :
    ((∀ keys others : List κ, (∀ key, r.get? key ≠ none → (key ∈ keys ↔ key ∈ others)) →
        r.delete keys = r.delete others) ∧
      ∀ keys : List κ,
        (∀ key, (r.delete keys).get? key = if key ∈ keys then none else r.get? key) ∧
        (∀ id, (r.delete keys).holder? id = (r.holder? id).filter fun holder => holder ∉ keys) ∧
        (r.delete keys).listing.Shows order (r.delete keys).rows.values) ∧
    (∀ keys others : List κ, ((r.delete keys).delete others).Matches (r.delete (keys ++ others))) ∧
    (∀ w : Write V κ, ((r.write w).write w).Matches (r.write w) ∧
      ((r.write w).stamp, (r.write w).listing.stamp) = (r.stamp + 1, r.stamp + 1) ∧
      (((r.write w).write w).stamp, ((r.write w).write w).listing.stamp) = (r.stamp + 2, r.stamp + 2) ∧
      ∀ (writes : List (Write V κ)) (question : Question V κ),
        (((r.write w).write w).run writes).answer question = ((r.write w).run writes).answer question) ∧
    ∀ (w v : Write V κ) (first second : Roster order), r.Leads w first → first.Leads v second →
      first = r.write w ∧ second = (r.write w).write v := by
  have hkeyed : ∀ w : Write V κ, (r.write w).toContents.Keyed := keyed_write hr.keyed
  have hsettled : ∀ w : Write V κ, (r.write w).Settled := settled_write hr.stamp
  have hagain : ∀ w : Write V κ, (r.write w).write w = (r.write w).later 1 := fun w =>
    write_write_eq_later hr.stamp (hr.backed.apply_apply w)
  have hdrop : ∀ keys : List κ, (r.delete keys).toContents = r.apply (.drop keys) := fun keys =>
    r.toContents_write (.drop keys)
  refine ⟨⟨?_, ?_⟩, ?_, ?_, ?_⟩
  · intro keys others h
    exact write_congr (hr.backed.apply_drop_congr h)
  · intro keys
    refine ⟨fun key => ?_, fun id => ?_, (hsettled (.drop keys)).shows (hkeyed _)⟩
    · rw [hdrop]
      exact r.get?_drop keys key
    · rw [hdrop]
      exact hr.backed.holder?_apply_drop keys id
  · intro keys others
    have hboth : (r.delete keys).delete others = (r.delete (keys ++ others)).later 1 :=
      write_write_eq_later hr.stamp (r.apply_drop_append keys others).symm
    rw [hboth]
    exact ⟨rfl, rfl, rfl⟩
  · intro w
    refine ⟨?_, ?_, ?_, fun writes question => ?_⟩
    · rw [hagain]
      exact ⟨rfl, rfl, rfl⟩
    · rw [(hsettled w).stamp, stamp_write]
    · rw [((hsettled w).write w).stamp, stamp_write, stamp_write]
    · rw [hagain, run_later, answer_later]
  · intro w v first second hfirst hsecond
    obtain rfl := hfirst.eq_write hr.keyed
    exact ⟨rfl, hsecond.eq_write (hkeyed w)⟩

/-- Three servers carry one agent, the last of them still to be listed. The agent belongs to that one, so it
is free once that one is deleted with another, in whatever order; or a third one takes it over, twice. -/
theorem matches_of_repeated_agent_shared :
    let takeover : Write Server UInt64 := .put { id := 2, uuid := "a", rank := 5 }
    ∃ r : ServerRoster, r.Reached ∧ r.listing.stamp < r.stamp ∧ r.holder? "a" = some 3 ∧
      r.delete [3, 9, 1, 3] = r.delete [1, 3] ∧ (r.delete [1, 3]).holder? "a" = none ∧
      (r.delete [1, 3]).get? 2 = some { id := 2, uuid := "a" } ∧
      ((r.delete [3]).delete [9, 1]).Matches (r.delete [3, 9, 1]) ∧
      ((r.write takeover).write takeover).Matches (r.write takeover) ∧ (r.write takeover).holder? "a" = some 2 := by
  intro takeover
  let built : ServerRoster := .ofList [{ id := 1, uuid := "a" }, { id := 2, uuid := "a" }]
  have hr : (built.change (.put { id := 3, uuid := "a" })).Reached :=
    ⟨[{ id := 1, uuid := "a" }, { id := 2, uuid := "a" }], [.change (.put { id := 3, uuid := "a" }), .snapshot 0],
      _, rfl, rfl⟩
  obtain ⟨⟨hsame, -⟩, hparts, hagain, -⟩ := matches_of_repeated hr
  refine ⟨_, hr, Nat.zero_lt_one, by decide +kernel, hsame _ _ fun key hkey => ?_, by decide +kernel,
    by decide +kernel, hparts [3] [9, 1], (hagain takeover).1, by decide +kernel⟩
  have h9 : key ≠ 9 := by
    rintro rfl
    exact hkey (by decide +kernel)
  simp only [List.mem_cons, List.not_mem_nil, or_false, h9, false_or]
  tauto

end Roster

end FleetRoster
