/-
Rosters of rows in which keys repeat. The last row of a key is the one that stays, so contents and
listing are those of the surviving rows alone. The index need not be: a row that is replaced later may
first have taken an identifier over from another key, and gives it up without giving it back. The two
rosters differ exactly by the identifiers that a surviving row carries and that were last carried by
a row that does not survive; those are found in the roster of the survivors only.
-/
import FleetRoster.Proofs.Contents.Unique
import FleetRoster.Proofs.Roster.Canonical
import FleetRoster.Record.NatMapping
import FleetRoster.Store

namespace FleetRoster

open Std (ExtTreeMap TransCmp)

variable {V κ : Type} [Key κ] [Entity V κ]

namespace Entity

/-- The rows that no later row of their key replaces, in the order they came. -/
def survivors : List V → List V
  | [] => []
  | row :: rows => if ∃ later ∈ rows, key later = key row then survivors rows else row :: survivors rows

/-- The last of the rows that carries the identifier. -/
def lastCarrier? (rows : List V) (id : String) : Option V := rows.findRev? fun row => indexed? row = some id

/-- A surviving row carries the identifier, but the last row to carry it does not survive. -/
def Shadowed (rows : List V) (id : String) : Prop :=
  (∃ row ∈ survivors rows, indexed? row = some id) ∧ ∀ row ∈ survivors rows, lastCarrier? rows id ≠ some row

/-! ## The last row of some kind -/

section

variable {rows : List V} {p : V → Bool}

omit [Key κ] [Entity V κ] in
theorem findRev?_concat (rows : List V) (row : V) (p : V → Bool) :
    (rows ++ [row]).findRev? p = if p row then some row else rows.findRev? p := by
  rw [List.findRev?_eq_find?_reverse, List.findRev?_eq_find?_reverse, List.reverse_concat, List.find?_cons]
  cases p row <;> rfl

omit [Key κ] [Entity V κ] in
theorem findRev?_eq_none_iff : rows.findRev? p = none ↔ ∀ row ∈ rows, ¬ p row = true := by
  rw [List.findRev?_eq_find?_reverse, List.find?_eq_none]
  simp only [List.mem_reverse]

omit [Key κ] [Entity V κ] in
theorem of_findRev?_eq_some {row : V} (h : rows.findRev? p = some row) : row ∈ rows ∧ p row = true := by
  rw [List.findRev?_eq_find?_reverse] at h
  exact ⟨List.mem_reverse.1 (List.mem_of_find?_eq_some h), List.find?_some h⟩

end

/-! ## The last row of each key -/

theorem mem_of_mem_survivors {rows : List V} {row : V} (h : row ∈ survivors rows) : row ∈ rows := by
  induction rows with
  | nil => exact h
  | cons first rows ih =>
    unfold survivors at h
    split at h
    · exact List.mem_cons_of_mem _ (ih h)
    · rcases List.mem_cons.1 h with rfl | h
      · exact List.mem_cons_self
      · exact List.mem_cons_of_mem _ (ih h)

theorem distinct_survivors (rows : List V) : (survivors rows).Pairwise fun a b => key a ≠ key b := by
  induction rows with
  | nil => exact List.Pairwise.nil
  | cons first rows ih =>
    unfold survivors
    split
    · exact ih
    · rename_i hlast
      refine List.pairwise_cons.2 ⟨fun row hrow heq => ?_, ih⟩
      exact hlast ⟨row, mem_of_mem_survivors hrow, heq.symm⟩

/-- The last row of a key survives. -/
theorem findRev?_key_survivors (rows : List V) (k : κ) :
    (survivors rows).findRev? (fun row => key row = k) = rows.findRev? fun row => key row = k := by
  induction rows with
  | nil => rfl
  | cons first rows ih =>
    unfold survivors
    split
    · rename_i hreplaced
      obtain ⟨later, hlater, hkey⟩ := hreplaced
      rw [ih, List.findRev?]
      cases hlast : rows.findRev? (fun row => key row = k) with
      | some row => rfl
      | none =>
        have hother : ¬ key first = k := by
          rw [← hkey]
          simpa using findRev?_eq_none_iff.1 hlast later hlater
        simp [hother]
    · rw [List.findRev?, ih, List.findRev?]

/-- The last row to satisfy a condition is the last of the survivors to do so, if it survives. -/
theorem findRev?_survivors {rows : List V} {p : V → Bool} {row : V} (h : rows.findRev? p = some row)
    (hrow : row ∈ survivors rows) : (survivors rows).findRev? p = some row := by
  induction rows with
  | nil => cases h
  | cons first rows ih =>
    rw [List.findRev?] at h
    unfold survivors at hrow ⊢
    cases hlast : rows.findRev? p with
    | some last =>
      rw [hlast] at h; cases h
      split at hrow
      · rename_i hreplaced
        rw [if_pos hreplaced]
        exact ih hlast hrow
      · rename_i hkept
        rw [if_neg hkept, List.findRev?]
        rcases List.mem_cons.1 hrow with rfl | hrow
        · exact absurd ⟨row, (of_findRev?_eq_some hlast).1, rfl⟩ hkept
        · rw [ih hlast hrow]
    | none =>
      rw [hlast] at h
      have hnone : ∀ later ∈ rows, ¬ p later = true := findRev?_eq_none_iff.1 hlast
      have hfirst : p first = true ∧ first = row := by simpa using h
      obtain ⟨hp, rfl⟩ := hfirst
      split at hrow
      · exact absurd hp (hnone first (mem_of_mem_survivors hrow))
      · rename_i hkept
        have hrest : (survivors rows).findRev? p = none :=
          findRev?_eq_none_iff.2 fun later hlater => hnone later (mem_of_mem_survivors hlater)
        rw [if_neg hkept, List.findRev?, hrest]
        simp [hp]

end Entity

open Entity (survivors lastCarrier? Shadowed)

/-! ## Contents and index -/

namespace Contents

theorem get?_ofList (rows : List V) (key : κ) :
    (ofList rows : Contents V κ).get? key = rows.findRev? fun row => Entity.key row = key := by
  induction rows using List.reverseRecOn with
  | nil => exact get?_empty key
  | append_singleton rows row ih =>
    rw [ofList_concat, get?_put, Entity.findRev?_concat, ih]
    simp only [decide_eq_true_eq]

/-- The rows are those of the survivors. -/
theorem rows_ofList_survivors (rows : List V) :
    (ofList (survivors rows) : Contents V κ).rows = (ofList rows).rows := by
  apply rows_ext
  intro key
  rw [get?_ofList, get?_ofList, Entity.findRev?_key_survivors]

theorem mem_survivors_iff {rows : List V} {row : V} :
    row ∈ survivors rows ↔ (ofList rows : Contents V κ).get? (Entity.key row) = some row := by
  have hget : (ofList rows : Contents V κ).get? (Entity.key row) = (ofList (survivors rows)).get? (Entity.key row) := by
    unfold get?
    rw [rows_ofList_survivors]
  rw [hget]
  exact ⟨get?_ofList_of_mem (Entity.distinct_survivors rows), mem_of_get?_ofList⟩

/-- An identifier belongs to the key of the last row that carries it, if the key still has that row. -/
theorem holder?_ofList_iff_get? (rows : List V) (id : String) (key : κ) :
    (ofList rows : Contents V κ).holder? id = some key ↔
      ∃ row, lastCarrier? rows id = some row ∧ Entity.key row = key ∧
        (ofList rows : Contents V κ).get? key = some row := by
  induction rows using List.reverseRecOn with
  | nil =>
    refine iff_of_false (fun h => ?_) (fun ⟨_, h, _⟩ => by cases h)
    rw [show (ofList [] : Contents V κ).holder? id = none from ExtTreeMap.getElem?_empty] at h
    cases h
  | append_singleton rows last ih =>
    rw [ofList_concat, (backed_ofList rows).holder?_put, get?_put, ih]
    unfold lastCarrier?
    rw [Entity.findRev?_concat]
    by_cases hlast : Entity.indexed? last = some id
    · simp only [hlast, decide_true, if_true, true_and, not_true_eq_false, false_and, or_false, ne_eq,
        Option.some.injEq, exists_eq_left']
      constructor
      · intro hkey; exact ⟨hkey, if_pos hkey⟩
      · rintro ⟨hkey, -⟩; exact hkey
    · -- the last row replaces an earlier carrier of its own key, and disturbs no other
      simp only [hlast, decide_false, Bool.false_eq_true, if_false, false_and, false_or, ne_eq, not_false_eq_true,
        true_and]
      by_cases hkey : Entity.key last = key
      · simp only [hkey, not_true_eq_false, false_and, if_true, Option.some.injEq, false_iff]
        rintro ⟨row, hrow, -, rfl⟩
        have hcarries := (Entity.of_findRev?_eq_some hrow).2
        exact hlast (by simpa using hcarries)
      · simp [hkey]

/-- So it belongs to the key of the last row that carries it, if that row survives. -/
theorem holder?_ofList (rows : List V) (id : String) (key : κ) :
    (ofList rows : Contents V κ).holder? id = some key ↔
      ∃ row ∈ survivors rows, lastCarrier? rows id = some row ∧ Entity.key row = key := by
  rw [holder?_ofList_iff_get?]
  constructor
  · rintro ⟨row, hrow, rfl, hget⟩; exact ⟨row, mem_survivors_iff.2 hget, hrow, rfl⟩
  · rintro ⟨row, hmem, hrow, rfl⟩; exact ⟨row, hrow, rfl, mem_survivors_iff.1 hmem⟩

/-- In the roster of the survivors it belongs to the key of the last survivor that carries it. -/
theorem holder?_ofList_survivors (rows : List V) (id : String) :
    (ofList (survivors rows) : Contents V κ).holder? id = (lastCarrier? (survivors rows) id).map Entity.key := by
  apply Option.ext
  intro key
  rw [holder?_ofList, Option.map_eq_some_iff]
  constructor
  · rintro ⟨row, -, hrow, hkey⟩; exact ⟨row, hrow, hkey⟩
  · rintro ⟨row, hrow, hkey⟩
    refine ⟨row, ?_, hrow, hkey⟩
    -- survivors have different keys, and so survive among themselves
    rw [mem_survivors_iff]
    exact get?_ofList_of_mem (Entity.distinct_survivors rows) (Entity.of_findRev?_eq_some hrow).1

/-- Unless it is shadowed, an identifier belongs to the same key as in the roster of the survivors; a
shadowed one belongs to none. -/
theorem holder?_ofList_eq_iff (rows : List V) (id : String) :
    (ofList rows : Contents V κ).holder? id = (ofList (survivors rows)).holder? id ↔ ¬ Shadowed rows id := by
  rw [holder?_ofList_survivors]
  by_cases hlast : ∃ row ∈ survivors rows, lastCarrier? rows id = some row
  · obtain ⟨row, hmem, hrow⟩ := hlast
    have hkept : lastCarrier? (survivors rows) id = some row := Entity.findRev?_survivors hrow hmem
    rw [(holder?_ofList rows id _).2 ⟨row, hmem, hrow, rfl⟩, hkept]
    exact iff_of_true rfl fun hshadowed => hshadowed.2 row hmem hrow
  · have hnone : (ofList rows : Contents V κ).holder? id = none := by
      apply Option.eq_none_iff_forall_ne_some.2
      intro key hkey
      obtain ⟨row, hmem, hrow, -⟩ := (holder?_ofList rows id key).1 hkey
      exact hlast ⟨row, hmem, hrow⟩
    have hlost : ∀ row ∈ survivors rows, lastCarrier? rows id ≠ some row :=
      fun row hmem hrow => hlast ⟨row, hmem, hrow⟩
    rw [hnone, eq_comm, Option.map_eq_none_iff]
    unfold lastCarrier? Shadowed
    rw [Entity.findRev?_eq_none_iff]
    simp only [decide_eq_true_eq]
    constructor
    · rintro hcarried ⟨⟨row, hmem, hid⟩, -⟩; exact hcarried row hmem hid
    · intro hshadowed row hmem hid; exact hshadowed ⟨⟨row, hmem, hid⟩, hlost⟩

end Contents

/-! ## Rosters -/

namespace Roster

/-- The roster of any rows has the contents and the listing of the roster of the rows that survive, and is
the same roster exactly if no identifier is shadowed; so it is, if a total preorder lists them, in whatever
order the two have their rows. If the survivors carry different identifiers, each of them is found by its
own exactly if that is not shadowed. A store that returns the rows loads the roster of them. -/
theorem ofList_survivors (order : ViewOrder V) (rows : List V) :
    let full : Roster order := .ofList rows
    let kept : Roster order := .ofList (survivors rows)
    ((∀ key, full.get? key = kept.get? key) ∧ full.rows = kept.rows ∧
      full.sorted = kept.sorted ∧ full.visible = kept.visible) ∧
    (full = kept ↔ ∀ id, ¬ Shadowed rows id) ∧
    (∀ [TransCmp order.compare] (r s : Roster order), Attained rows [] r → Attained (survivors rows) [] s →
      r.rows = s.rows ∧ r.sorted = s.sorted ∧ r.visible = s.visible ∧ (r = s ↔ ∀ id, ¬ Shadowed rows id)) ∧
    (∀ id, full.holder? id = kept.holder? id ↔ ¬ Shadowed rows id) ∧
    (DistinctIdentifiers (survivors rows) → ∀ row ∈ survivors rows, ∀ id, id ≠ "" →
      Entity.identifier? row = some id →
      (full.holder? id = some (Entity.key row) ↔ ¬ Shadowed rows id)) ∧
    ∀ {σ : Type} [Store σ V κ] (store : σ), Store.load store = .ok rows → Roster.load order store = .ok full := by
  intro full kept
  have hrows : full.rows = kept.rows := (Contents.rows_ofList_survivors rows).symm
  have hlisting : full.listing = kept.listing := by
    show Listing.ofRows order 0 full.rows.values = Listing.ofRows order 0 kept.rows.values
    rw [hrows]
  have hholder : ∀ id, full.holder? id = kept.holder? id ↔ ¬ Shadowed rows id :=
    Contents.holder?_ofList_eq_iff rows
  have hsame : full = kept ↔ ∀ id, ¬ Shadowed rows id := by
    constructor
    · intro heq id
      exact (hholder id).1 (by rw [heq])
    · intro hnone
      refine Roster.ext hrows (ExtTreeMap.ext_getElem? fun id => ?_) rfl hlisting
      exact (hholder id).2 (hnone id)
  have hsorted : full.sorted = kept.sorted := congrArg (·.all) hlisting
  have hvisible : full.visible = kept.visible := congrArg (·.visible) hlisting
  refine ⟨⟨fun key => ?_, hrows, hsorted, hvisible⟩, hsame, fun r s hr hs => ?_, hholder, ?_, ?_⟩
  · exact congrArg (fun rows : ExtTreeMap κ V => rows[key]?) hrows
  · rw [hr.eq_run, hs.eq_run]
    exact ⟨hrows, hsorted, hvisible, hsame⟩
  · intro hdistinct row hmem id hne hid
    have hown : kept.holder? id = some (Entity.key row) := by
      have hexact : kept.toContents.Exact := Contents.exact_ofList hdistinct
      rw [hexact id, Contents.identifierOf?_eq_some_iff_carried]
      exact ⟨hne, row, Contents.get?_ofList_of_mem (Entity.distinct_survivors rows) hmem, hid⟩
    rw [← hown]
    exact hholder id
  · intro σ _ store hload
    unfold Roster.load
    rw [hload]; rfl

/-- Two mappings exchange their domains by rows that replace both, and are then listed backwards. -/
theorem ofList_survivors_of_exchange :
    let rows : List NatMapping :=
      [{ id := 1, domain := "a" }, { id := 2, domain := "b" }, { id := 1, domain := "b" }, { id := 2, domain := "a" }]
    let full : MappingRoster := .ofList rows
    let backwards : MappingRoster :=
      { full with listing := .ofRows .byKey 0 [{ id := 2, domain := "a" }, { id := 1, domain := "b" }] }
    (∀ id, ¬ Shadowed rows id) ∧ full = ofList (survivors rows) ∧
      Attained rows [] backwards ∧ backwards = ofList (survivors rows) := by
  intro rows full backwards
  have hsurvivors : survivors rows = [{ id := 1, domain := "b" }, { id := 2, domain := "a" }] := by decide
  have hclear : ∀ id, ¬ Shadowed rows id := by
    rintro id ⟨⟨row, hmem, hid⟩, hlost⟩
    rw [hsurvivors] at hmem hlost
    -- both survivors are the last to carry their domains
    rcases List.mem_pair.1 hmem with rfl | rfl
    · cases hid
      exact hlost _ hmem (by decide)
    · cases hid
      exact hlost _ hmem (by decide)
  obtain ⟨-, hsame, hany, -⟩ := ofList_survivors ViewOrder.byKey rows
  have hbackwards : Attained rows [] backwards := .built (List.Perm.swap _ _ [])
  obtain ⟨-, -, -, heq⟩ := hany _ _ hbackwards (attained_run (survivors rows) [])
  exact ⟨hclear, hsame.2 hclear, hbackwards, heq.2 hclear⟩

/-- A mapping takes a domain over from another, and is then replaced by one for a domain of its own. -/
theorem shadowed_by_replaced_mapping :
    let first : NatMapping := { id := 1, domain := "a" }
    let rows : List NatMapping := [first, { id := 2, domain := "a" }, { id := 2, domain := "b" }]
    let full : MappingRoster := .ofList rows
    let kept : MappingRoster := .ofList (survivors rows)
    survivors rows = [first, { id := 2, domain := "b" }] ∧ DistinctIdentifiers (survivors rows) ∧
      full.holder? "a" = none ∧ kept.holder? "a" = some 1 ∧ full.index ≠ kept.index := by
  intro first rows full kept
  have hsurvivors : survivors rows = [first, { id := 2, domain := "b" }] := by decide
  have hfull : full.holder? "a" = none := by decide +kernel
  have hkept : kept.holder? "a" = some 1 := by decide +kernel
  refine ⟨hsurvivors, ?_, hfull, hkept, fun hindex => ?_⟩
  · rw [hsurvivors]
    refine List.pairwise_pair.2 ?_
    rintro id - ⟨⟩
    decide
  · have hsame : full.holder? "a" = kept.holder? "a" :=
      congrArg (fun index : ExtTreeMap String UInt64 => index["a"]?) hindex
    rw [hfull, hkept] at hsame
    cases hsame

end Roster

end FleetRoster
