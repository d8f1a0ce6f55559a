/-
Writes that are made again, and keys that are listed again. What a drop leaves depends only on which of the
keys have rows: each row takes its own index entry along and no other's, whichever of the rows that share an
identifier goes first. A write made a second time finds everything as it would leave it.
-/
import FleetRoster.Proofs.Contents.Index

namespace FleetRoster

open Std (ExtTreeMap)

variable {V κ : Type} [Key κ] [Entity V κ]

namespace Write

theorem onRow_onRow (w : Write V κ) (key : κ) (old : Option V) :
    w.onRow key (w.onRow key old) = w.onRow key old := by
  cases w with
  | put row =>
    show (if Entity.key row = key then some row else if Entity.key row = key then some row else old) =
      if Entity.key row = key then some row else old
    split <;> rfl
  | drop keys =>
    show (if key ∈ keys then none else if key ∈ keys then none else old) = if key ∈ keys then none else old
    split <;> rfl

theorem onHolder_onHolder (w : Write V κ) (id : String) (old : Option κ) :
    w.onHolder id (w.onHolder id old) = w.onHolder id old := by
  cases w with
  | put row =>
    by_cases hid : Entity.indexed? row = some id
    · simp only [onHolder, if_pos hid]
    · simp only [onHolder, if_neg hid, Option.filter_filter, Bool.and_self]
  | drop keys => simp only [onHolder, Option.filter_filter, Bool.and_self]

end Write

namespace Contents

/-- An index entry points to a key that has a row. -/
theorem Backed.get?_ne_none {c : Contents V κ} (hc : c.Backed) {id : String} {key : κ} (h : c.holder? id = some key) :
    c.get? key ≠ none := by
  obtain ⟨row, hrow, -⟩ := identifierOf?_eq_some_iff.1 (hc id key h)
  rw [hrow]
  exact Option.some_ne_none row

/-! ## Keys listed again -/

theorem apply_drop_append (c : Contents V κ) (keys others : List κ) :
    c.apply (.drop (keys ++ others)) = (c.apply (.drop keys)).apply (.drop others) :=
  List.foldl_append

theorem Backed.holder?_apply_drop {c : Contents V κ} (hc : c.Backed) (keys : List κ) (id : String) :
    (c.apply (.drop keys)).holder? id = (c.holder? id).filter fun holder => holder ∉ keys := by
  rw [hc.holder?_apply_eq]
  simp [Write.onHolder]

/-- Drops of the same rows leave the same contents. -/
theorem Backed.apply_drop_congr {c : Contents V κ} (hc : c.Backed) {keys others : List κ}
    (h : ∀ key, c.get? key ≠ none → (key ∈ keys ↔ key ∈ others)) :
    c.apply (.drop keys) = c.apply (.drop others) := by
  refine Contents.ext (rows_ext fun key => ?_) (ExtTreeMap.ext_getElem? fun id => Option.ext fun key => ?_)
  · rw [get?_drop, get?_drop]
    by_cases hkey : c.get? key = none
    · rw [hkey, ite_self, ite_self]
    · simp only [h key hkey]
  · show (c.apply (.drop keys)).holder? id = some key ↔ (c.apply (.drop others)).holder? id = some key
    rw [hc.holder?_drop, hc.holder?_drop]
    refine and_congr_left fun hheld => not_congr ?_
    exact h key (hc.get?_ne_none hheld)

/-! ## Writes made again -/

theorem Backed.apply_apply {c : Contents V κ} (hc : c.Backed) (w : Write V κ) :
    (c.apply w).apply w = c.apply w := by
  refine Contents.ext (rows_ext fun key => ?_) (ExtTreeMap.ext_getElem? fun id => ?_)
  · rw [get?_apply, get?_apply, Write.onRow_onRow]
  · show ((c.apply w).apply w).holder? id = (c.apply w).holder? id
    rw [(hc.apply w).holder?_apply_eq, hc.holder?_apply_eq, Write.onHolder_onHolder]

end Contents

end FleetRoster
