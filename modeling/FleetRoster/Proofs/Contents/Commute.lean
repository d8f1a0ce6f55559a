/-
Writes that keep apart can be made in either order. For the rows it is enough that they are of different
keys. The index depends on the order only if both writes claim the same identifier: a key that gives its
identifier up gives up no other's, so one write may well take over what the other one's key is giving up.
-/
import FleetRoster.Proofs.Contents.Index

namespace FleetRoster

open Std (ExtTreeMap)

variable {V κ : Type} [Key κ] [Entity V κ]

namespace Write

/-- Neither write installs a row that the other one concerns: one of the same key, or one of the same
identifier, the empty one aside. -/
def Apart : Write V κ → Write V κ → Prop
  | .put a, .put b => Entity.key a ≠ Entity.key b ∧
      ∀ id, id ≠ "" → Entity.identifier? a = some id → Entity.identifier? b ≠ some id
  | .put row, .drop keys => Entity.key row ∉ keys
  | .drop keys, .put row => Entity.key row ∉ keys
  | .drop _, .drop _ => True

theorem Apart.symm {w v : Write V κ} (h : w.Apart v) : v.Apart w := by
  cases w with
  | put a =>
    cases v with
    | put b => exact ⟨h.1.symm, fun id hid hb ha => h.2 id hid ha hb⟩
    | drop keys => exact h
  | drop keys => cases v <;> exact h

/-- What one write claims for a key, the other neither claims nor touches. -/
theorem Apart.of_claim {w v : Write V κ} (h : w.Apart v) {id : String} {key : κ} (hid : id ≠ "")
    (hcarries : w.Carries id) (hput : ∃ row, w = .put row ∧ Entity.key row = key) :
    ¬ v.Carries id ∧ ¬ v.Touches key := by
  obtain ⟨row, rfl, rfl⟩ := hput
  cases v with
  | put other => exact ⟨h.2 id hid hcarries, h.1.symm⟩
  | drop keys => exact ⟨not_false, h⟩

/-- A key that one write installs a row for is no key of the other's. -/
theorem Apart.onRow_put {row : V} {w : Write V κ} (h : (put row).Apart w) (old : Option V) :
    w.onRow (Entity.key row) old = old := by
  cases w with
  | put other => exact if_neg h.1.symm
  | drop keys => exact if_neg h

theorem Apart.onRow_comm {w v : Write V κ} (h : w.Apart v) (key : κ) (old : Option V) :
    v.onRow key (w.onRow key old) = w.onRow key (v.onRow key old) := by
  have hput : ∀ {row : V} {w : Write V κ}, (put row).Apart w →
      w.onRow key ((put row).onRow key old) = (put row).onRow key (w.onRow key old) := by
    intro row w h
    by_cases hkey : Entity.key row = key
    · subst hkey
      rw [h.onRow_put, h.onRow_put]
    · simp only [onRow, if_neg hkey]
  cases w with
  | put row => exact hput h
  | drop keys =>
    cases v with
    | put row => exact (hput h.symm).symm
    | drop others =>
      show (if key ∈ others then none else if key ∈ keys then none else old) =
        if key ∈ keys then none else if key ∈ others then none else old
      split <;> simp

end Write

namespace Contents

theorem Backed.holder?_apply_swap {c : Contents V κ} (hc : c.Backed) {w v : Write V κ} (h : w.Apart v) {id : String}
    {key : κ} (hheld : ((c.apply w).apply v).holder? id = some key) :
    ((c.apply v).apply w).holder? id = some key := by
  rw [(hc.apply w).holder?_apply, hc.holder?_apply] at hheld
  rw [(hc.apply v).holder?_apply, hc.holder?_apply]
  rcases hheld with ⟨hid, hv, hput⟩ | ⟨hv, hvkey, ⟨hid, hw, hput⟩ | ⟨hw, hwkey, hheld⟩⟩
  · -- claimed by the write that comes second: the other one leaves it alone when it does
    obtain ⟨hw, hwkey⟩ := h.symm.of_claim hid hv hput
    exact .inr ⟨hw, hwkey, .inl ⟨hid, hv, hput⟩⟩
  · exact .inl ⟨hid, hw, hput⟩
  · exact .inr ⟨hw, hwkey, .inr ⟨hv, hvkey, hheld⟩⟩

theorem Backed.holder?_apply_comm {c : Contents V κ} (hc : c.Backed) {w v : Write V κ} (h : w.Apart v) (id : String) :
    ((c.apply w).apply v).holder? id = ((c.apply v).apply w).holder? id :=
  Option.ext fun _ => ⟨hc.holder?_apply_swap h, hc.holder?_apply_swap h.symm⟩

theorem Backed.apply_comm {c : Contents V κ} (hc : c.Backed) {w v : Write V κ} (h : w.Apart v) :
    (c.apply w).apply v = (c.apply v).apply w := by
  refine Contents.ext (rows_ext fun key => ?_) (ExtTreeMap.ext_getElem? (hc.holder?_apply_comm h))
  rw [get?_apply, get?_apply, get?_apply, get?_apply, h.onRow_comm]

/-- Any number of writes that keep apart can be made in any order. -/
theorem Backed.replay_perm {c : Contents V κ} (hc : c.Backed) {writes others : List (Write V κ)}
    (hp : writes.Perm others) (h : writes.Pairwise Write.Apart) : c.replay writes = c.replay others := by
  induction hp generalizing c with
  | nil => rfl
  | cons w _ ih => exact ih (hc.apply w) (List.pairwise_cons.1 h).2
  | swap w v writes =>
    show ((c.apply v).apply w).replay writes = ((c.apply w).apply v).replay writes
    rw [hc.apply_comm ((List.pairwise_cons.1 h).1 w (List.mem_cons_self ..))]
  | trans hfirst _ ihfirst ihsecond =>
    rw [ihfirst hc h]
    exact ihsecond hc ((hfirst.pairwise_iff Write.Apart.symm).1 h)

end Contents

end FleetRoster
