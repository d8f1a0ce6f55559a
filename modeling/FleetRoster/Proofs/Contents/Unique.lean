/-
Contents whose rows carry pairwise different identifiers. Then the index says exactly who carries
what, and is determined by the rows alone. Writing a row whose identifier no other key holds
keeps it so, and so does building the contents from rows of different keys and identifiers.
-/
import FleetRoster.Proofs.Contents.Index

namespace FleetRoster

open Std (ExtTreeMap)

variable {V κ : Type} [Key κ] [Entity V κ]

/-- No two of the rows carry the same identifier, the empty one aside. -/
def DistinctIdentifiers (rows : List V) : Prop :=
  rows.Pairwise fun a b => ∀ id, id ≠ "" → Entity.identifier? a = some id → Entity.identifier? b ≠ some id

namespace Contents

/-! ## Exact indices -/

/-- The index names exactly the keys whose rows carry an identifier. -/
def Exact (c : Contents V κ) : Prop := ∀ id key, c.holder? id = some key ↔ c.identifierOf? key = some id

theorem Exact.backed {c : Contents V κ} (hc : c.Exact) : c.Backed := fun id key => (hc id key).1

theorem exact_empty : Exact ({} : Contents V κ) := by
  intro id key
  refine ⟨backed_empty id key, fun h => ?_⟩
  obtain ⟨row, hrow, -⟩ := identifierOf?_eq_some_iff.1 h
  rw [get?_empty] at hrow; cases hrow

/-- Contents of the same rows and with exact indices are the same. -/
theorem Exact.index_eq {c d : Contents V κ} (hc : c.Exact) (hd : d.Exact) (h : c.rows = d.rows) :
    c.index = d.index := by
  apply ExtTreeMap.ext_getElem?
  intro id
  have hid : ∀ key, c.holder? id = some key ↔ d.holder? id = some key := by
    intro key
    rw [hc id key, hd id key]
    unfold identifierOf?
    rw [h]
  exact Option.ext hid

/-- The row may be written: its identifier, if it has one, is carried by no other key. -/
def Free (c : Contents V κ) (row : V) : Prop :=
  ∀ id key, Entity.indexed? row = some id → c.identifierOf? key = some id → Entity.key row = key

theorem Exact.put {c : Contents V κ} (hc : c.Exact) {row : V} (hfree : c.Free row) : (c.put row).Exact := by
  intro id key
  rw [hc.backed.holder?_put, identifierOf?_put]
  by_cases hk : Entity.key row = key
  · simp [hk]
  · simp only [hk, and_false, false_or, if_false, not_false_eq_true, ne_eq, true_and]
    rw [hc id key]
    constructor
    · rintro ⟨-, h⟩; exact h
    · intro h; exact ⟨fun hid => hk (hfree id key hid h), h⟩

theorem Exact.remove {c : Contents V κ} (hc : c.Exact) (gone : κ) : (c.remove gone).Exact := by
  intro id key
  rw [hc.backed.holder?_remove, identifierOf?_remove, hc id key]
  by_cases hk : gone = key <;> simp [hk]

theorem Exact.drop {c : Contents V κ} (hc : c.Exact) (keys : List κ) : (c.apply (.drop keys)).Exact := by
  show (keys.foldl Contents.remove c).Exact
  induction keys generalizing c with
  | nil => exact hc
  | cons key keys ih => exact ih (hc.remove key)

/-- The check before a write asks the index only; with an exact index that is enough. -/
theorem Exact.free_of_ensureFree {c : Contents V κ} (hc : c.Exact) {row : V}
    (h : ∀ id, Entity.indexed? row = some id → c.ensureFree id (Entity.key row) = .ok ()) :
    c.Free row := by
  intro id key hid hkey
  have hok := h id hid
  unfold ensureFree at hok
  rw [(hc id key).2 hkey] at hok
  simp only at hok
  split at hok
  · rename_i hk; exact hk.symm
  · cases hok

end Contents

/-- The write installs no row whose identifier is another's, as the check before a write tells it. -/
def Write.Checked (c : Contents V κ) : Write V κ → Prop
  | .put row => ∀ id, id ≠ "" → Entity.identifier? row = some id → c.ensureFree id (Entity.key row) = .ok ()
  | .drop _ => True

namespace Contents

theorem Exact.apply {c : Contents V κ} (hc : c.Exact) {w : Write V κ} (hw : w.Checked c) : (c.apply w).Exact := by
  cases w with
  | drop keys => exact hc.drop keys
  | put row =>
    refine hc.put (hc.free_of_ensureFree fun id hid => ?_)
    obtain ⟨hne, hid⟩ := Entity.indexed?_eq_some_iff.1 hid
    exact hw id hne hid

/-- With an exact index, the check fails exactly for an identifier that another key's row carries, and
names that key. -/
theorem Exact.ensureFree_eq_error_iff {c : Contents V κ} (hc : c.Exact) {id : String} {key : κ} {fault : Fault} :
    c.ensureFree id key = .error fault ↔
      ∃ other, other ≠ key ∧ c.identifierOf? other = some id ∧ fault = .taken id (Key.number other) := by
  simp only [← hc id]
  unfold ensureFree
  cases c.holder? id with
  | none => simp
  | some holder =>
    simp only [Option.some.injEq]
    constructor
    · intro h
      split at h
      · cases h
      · rename_i hk
        cases h; exact ⟨holder, hk, rfl, rfl⟩
    · rintro ⟨_, hk, rfl, rfl⟩
      rw [if_neg hk]

/-- Exact indices stand for rows of pairwise different identifiers. -/
theorem Exact.distinct_values {c : Contents V κ} (hc : c.Exact) (hk : c.Keyed) :
    DistinctIdentifiers c.rows.values := by
  have holds : ∀ {row : V} {id : String}, row ∈ c.rows.values → id ≠ "" →
      Entity.identifier? row = some id → c.holder? id = some (Entity.key row) := by
    intro row id hmem hne hid
    obtain ⟨key, hget⟩ := (mem_values c row).1 hmem
    rw [hc id, hk key row hget, identifierOf?_eq_some_iff]
    exact ⟨row, hget, Entity.indexed?_eq_some_iff.2 ⟨hne, hid⟩⟩
  -- one identifier has one holder, so rows that share it share their key
  refine hk.distinct_values.imp_of_mem ?_
  intro a b ha hb hne id hid ha' hb'
  have := holds ha hid ha'
  rw [holds hb hid hb', Option.some.injEq] at this
  exact hne this.symm

/-! ## Contents of a list of rows -/

theorem exact_ofList {rows : List V} (h : DistinctIdentifiers rows) : (ofList rows : Contents V κ).Exact := by
  induction rows using List.reverseRecOn with
  | nil => exact exact_empty
  | append_singleton rows row ih =>
    obtain ⟨hrows, -, hlast⟩ := List.pairwise_append.1 h
    rw [ofList_concat]
    refine (ih hrows).put ?_
    intro id key hid hkey
    -- an earlier row with this identifier is excluded
    obtain ⟨other, hother, hoid⟩ := identifierOf?_eq_some_iff.1 hkey
    obtain ⟨hne, hid⟩ := Entity.indexed?_eq_some_iff.1 hid
    obtain ⟨-, hoid⟩ := Entity.indexed?_eq_some_iff.1 hoid
    have hmem := mem_of_get?_ofList hother
    exact absurd hid (hlast other hmem row (List.mem_singleton_self row) id hne hoid)

end Contents

end FleetRoster
