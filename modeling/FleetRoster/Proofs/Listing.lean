/-
What a listing shows: the rows it is made of, each once, in the strict order of the listing, and
of those the public part. An order whose comparison is a total preorder becomes a total order of
the rows of different keys once ties are broken by key, so there is only one such list of rows.
-/
import FleetRoster.Record.Server
import Mathlib.Tactic

namespace FleetRoster

open Std (TransCmp OrientedCmp)

variable {V κ : Type} [Key κ] [Entity V κ]

/-! ## The strict order -/

namespace ViewOrder

variable {order : ViewOrder V}

/-- Breaking ties by key keeps a total preorder one. -/
instance [TransCmp order.compare] : TransCmp order.strict :=
  inferInstanceAs (TransCmp (compareLex order.compare (compareOn Entity.key)))

theorem key_eq_of_strict_eq {a b : V} (h : order.strict a b = .eq) :
    Entity.key a = Entity.key b := by
  unfold strict at h
  rw [Ordering.then_eq_eq] at h
  exact Std.compare_eq_iff_eq.1 h.2

theorem sort_perm (order : ViewOrder V) (rows : List V) : (order.sort rows).Perm rows :=
  List.mergeSort_perm _ _

theorem sort_sorted [TransCmp order.compare] (rows : List V) :
    (order.sort rows).Pairwise fun a b => (order.strict a b).isLE := by
  unfold sort
  apply List.pairwise_mergeSort
  · intro a b c hab hbc
    exact TransCmp.isLE_trans hab hbc
  · intro a b
    have hswap : order.strict b a = (order.strict a b).swap := OrientedCmp.eq_swap
    rw [hswap]
    cases order.strict a b <;> rfl

/-- Sorted rows of different keys are in strict order. -/
theorem sort_strict [TransCmp order.compare] {rows : List V}
    (h : rows.Pairwise fun a b => Entity.key a ≠ Entity.key b) :
    (order.sort rows).Pairwise fun a b => order.strict a b = .lt := by
  have hk := (sort_perm order rows).pairwise_iff (fun {a b} (h : Entity.key a ≠ Entity.key b) => h.symm)
  refine List.Pairwise.imp₂ ?_ (sort_sorted rows) (hk.2 h)
  intro a b hle hne
  cases hs : order.strict a b with
  | lt => rfl
  | eq => exact absurd (key_eq_of_strict_eq hs) hne
  | gt => rw [hs] at hle; cases hle

end ViewOrder

/-! ## The orders in use -/

instance : TransCmp (ViewOrder.byKey (V := V)).compare :=
  inferInstanceAs (TransCmp (compareOn Entity.key))

/-- Ranks compare as integers, the least and the greatest among them. -/
instance : TransCmp Server.order.compare :=
  inferInstanceAs (TransCmp (compareLex (fun a b => (compareOn Server.rank) b a) (compareOn Server.id)))

/-! ## Listings -/

/-- The listing is made of exactly the given rows, in strict order, and its public part is made of
those that the order shows. -/
structure Listing.Shows (order : ViewOrder V) (l : Listing V) (rows : List V) : Prop where
  perm : l.all.Perm rows
  sorted : l.all.Pairwise fun a b => order.strict a b = .lt
  visible : l.visible = l.all.filter order.visible

namespace Listing

variable {order : ViewOrder V}

theorem shows_ofRows [TransCmp order.compare] (stamp : Nat) {rows : List V}
    (h : rows.Pairwise fun a b => Entity.key a ≠ Entity.key b) :
    (ofRows order stamp rows).Shows order rows :=
  ⟨order.sort_perm rows, ViewOrder.sort_strict h, rfl⟩

/-- There is only one list of the rows in strict order, whichever order they were handed over in. -/
theorem Shows.unique [TransCmp order.compare] {l m : Listing V} {rows rows' : List V}
    (hl : l.Shows order rows) (hm : m.Shows order rows') (h : rows.Perm rows') :
    l.all = m.all ∧ l.visible = m.visible := by
  have hall : l.all = m.all := by
    refine List.Perm.eq_of_pairwise ?_ hl.sorted hm.sorted (hl.perm.trans (h.trans hm.perm.symm))
    intro a b _ _ hab hba
    exact absurd hba (OrientedCmp.not_lt_of_lt hab)
  exact ⟨hall, by rw [hl.visible, hm.visible, hall]⟩

end Listing

end FleetRoster
