/-
Whose rows a delete can take. Permission is asked of the roster and rows are taken from the
collection as well, and a key without a row denies nothing; as the two stay in step, what the roster
knows of a row's owner is what the collection has. So a row goes, on both sides, exactly by a delete
that names it and whose caller may act for the owners of all the rows it names: a member takes its own
rows only, and nothing at all with another's row among them.
-/
import FleetRoster.Fleet
import FleetRoster.Proofs.Contents.Reads
import FleetRoster.Proofs.Store.InStep

namespace FleetRoster

/-- Rows that have an owner. Only the owner and administrators may act on them. -/
class Owned (V : Type) {κ : outParam Type} [Key κ] [Entity V κ] where
  owner : V → UInt64
  grants_eq : ∀ (row : V) (caller : Caller), Entity.grants row caller = caller.mayActFor (owner row)

instance : Owned Server := ⟨Server.owner, fun _ _ => rfl⟩

instance : Owned DdnsProfile := ⟨DdnsProfile.owner, fun _ _ => rfl⟩

instance : Owned NatMapping := ⟨NatMapping.owner, fun _ _ => rfl⟩

theorem Caller.mayActFor_iff {caller : Caller} {owner : UInt64} :
    caller.mayActFor owner = true ↔ caller.role = .admin ∨ caller.user = owner := by
  simp [Caller.mayActFor, Caller.isAdmin]

variable {V κ : Type} [Key κ] [Entity V κ]

/-- A save leaves no key without a row that had one. -/
theorem MemoryStore.get?_accept_put_ne_none {s : MemoryStore V κ} (new : V) {key : κ} (h : s.get? key ≠ none) :
    (s.accept (.put new)).get? key ≠ none := by
  show (s.contents.put new).get? key ≠ none
  rw [Contents.get?_put]
  split
  · exact Option.some_ne_none new
  · exact h

namespace WriteThrough

variable {order : ViewOrder V}

/-! ## What one request takes -/

theorem InStep.get? {w : WriteThrough (MemoryStore V κ) order} (hw : w.InStep) (key : κ) :
    w.roster.get? key = w.store.get? key := by
  show w.roster.rows[key]? = w.store.rows[key]?
  rw [hw.rows]

variable [Owned V]

/-- The request is a delete that names the key; the collection accepts it, and its caller may act for the
owner of every row that it names. -/
def Takes (w : WriteThrough (MemoryStore V κ) order) (request : Request V κ) (key : κ) : Prop :=
  ∃ caller keys, request = .delete caller keys ∧ key ∈ keys ∧ w.store.readOnly = false ∧
    ∀ other ∈ keys, ∀ row, w.store.get? other = some row → caller.role = .admin ∨ caller.user = Owned.owner row

/-- Permission asked of the roster is permission to act on what the collection has. -/
theorem InStep.permits_iff {w : WriteThrough (MemoryStore V κ) order} (hw : w.InStep) {caller : Caller}
    {keys : List κ} :
    w.roster.permits caller keys = true ↔
      ∀ key ∈ keys, ∀ row, w.store.get? key = some row → caller.role = .admin ∨ caller.user = Owned.owner row := by
  rw [Contents.permits_iff]
  simp only [hw.get?, Owned.grants_eq, Caller.mayActFor_iff]

theorem InStep.takes_delete_iff {w : WriteThrough (MemoryStore V κ) order} (hw : w.InStep) {caller : Caller}
    {keys : List κ} {key : κ} :
    w.Takes (.delete caller keys) key ↔
      key ∈ keys ∧ w.store.readOnly = false ∧ w.roster.permits caller keys = true := by
  rw [hw.permits_iff]
  constructor
  · rintro ⟨_, _, ⟨⟩, h⟩; exact h
  · intro h; exact ⟨caller, keys, rfl, h⟩

/-- Through a delete a key's row goes, or it stays as it is. -/
theorem InStep.get?_delete {w : WriteThrough (MemoryStore V κ) order} (hw : w.InStep) (caller : Caller) (keys : List κ)
    (key : κ) :
    (w.Takes (.delete caller keys) key ∧ (w.delete caller keys).2.store.get? key = none) ∨
      (¬ w.Takes (.delete caller keys) key ∧ (w.delete caller keys).2.store.get? key = w.store.get? key) := by
  rw [hw.takes_delete_iff, delete_eq]
  by_cases h : w.store.readOnly = true ∨ ¬ w.roster.permits caller keys = true
  · rw [if_pos h]
    refine .inr ⟨?_, rfl⟩
    rintro ⟨-, hwritable, hpermits⟩
    rcases h with h | h
    · rw [hwritable] at h; cases h
    · exact h hpermits
  · rw [if_neg h]
    obtain ⟨hwritable, hpermits⟩ := not_or.1 h
    rw [Bool.not_eq_true] at hwritable
    rw [not_not] at hpermits
    have hdrop : (w.store.accept (.drop keys)).get? key = if key ∈ keys then none else w.store.get? key :=
      w.store.contents.get?_drop keys key
    by_cases hkey : key ∈ keys
    · exact .inl ⟨⟨hkey, hwritable, hpermits⟩, hdrop.trans (if_pos hkey)⟩
    · exact .inr ⟨fun h => hkey h.1, hdrop.trans (if_neg hkey)⟩

/-- A row goes exactly by a request that takes it. -/
theorem InStep.gone_iff {w : WriteThrough (MemoryStore V κ) order} (hw : w.InStep) (request : Request V κ) {key : κ}
    (hrow : w.store.get? key ≠ none) :
    (w.handle request).store.get? key = none ↔ w.Takes request key := by
  cases request with
  | save new =>
    refine iff_of_false ?_ (by rintro ⟨_, _, ⟨⟩, -⟩)
    show (w.save new).2.store.get? key ≠ none
    rw [save_eq]
    split
    · exact hrow
    · exact MemoryStore.get?_accept_put_ne_none new hrow
  | delete caller keys =>
    show (w.delete caller keys).2.store.get? key = none ↔ _
    rcases hw.get?_delete caller keys key with ⟨htakes, hnone⟩ | ⟨hnot, hsame⟩
    · exact iff_of_true hnone htakes
    · rw [hsame]
      exact iff_of_false hrow hnot
  | setReadOnly readOnly => exact iff_of_false hrow (by rintro ⟨_, _, ⟨⟩, -⟩)

/-- Whoever's request takes a row is an administrator or the row's owner. -/
theorem Takes.caller {w : WriteThrough (MemoryStore V κ) order} {request : Request V κ} {key : κ}
    (h : w.Takes request key) {row : V} (hrow : w.store.get? key = some row) :
    ∃ caller keys, request = .delete caller keys ∧ key ∈ keys ∧
      (caller.role = .admin ∨ caller.user = Owned.owner row) := by
  obtain ⟨caller, keys, hrequest, hkey, -, howners⟩ := h
  exact ⟨caller, keys, hrequest, hkey, howners key hkey row hrow⟩

/-- A member that names another's row is denied, and nothing changes. -/
theorem InStep.delete_denied {w : WriteThrough (MemoryStore V κ) order} (hw : w.InStep) {caller : Caller}
    (hmember : caller.role = .member) {keys : List κ} {key : κ} (hkey : key ∈ keys) {row : V}
    (hrow : w.store.get? key = some row) (hother : Owned.owner row ≠ caller.user) :
    w.delete caller keys = (.error .denied, w) := by
  refine delete_eq_denied (Bool.eq_false_iff.2 ?_)
  rw [ne_eq, hw.permits_iff]
  intro howners
  rcases howners key hkey row hrow with hadmin | howner
  · rw [hmember] at hadmin; cases hadmin
  · exact hother howner.symm

/-! ## Every run -/

/-- Take any collection, the roster loaded from it and any requests. At any moment of the run: a delete
by a member changes the row of no key on either side unless both sides have the same row there and the
member owns it, and it is denied, changing nothing, if one of the rows it names is another's; and by
any request whatever a row goes from a side exactly if the request takes it, and then the request is a
delete by an administrator or by the row's owner. -/
theorem taken_by_owner (order : ViewOrder V) {store : MemoryStore V κ} (hstore : store.Reachable)
    (requests : List (Request V κ)) :
    ∃ loaded : Roster order, Roster.load order store = .ok loaded ∧
      let w := run ⟨store, loaded⟩ requests
      (∀ caller keys, caller.role = .member →
        (∀ key, (w.delete caller keys).2.store.get? key ≠ w.store.get? key ∨
            (w.delete caller keys).2.roster.get? key ≠ w.roster.get? key →
          ∃ row, w.store.get? key = some row ∧ w.roster.get? key = some row ∧ Owned.owner row = caller.user) ∧
        (∀ key ∈ keys, ∀ row, w.store.get? key = some row ∨ w.roster.get? key = some row →
          Owned.owner row ≠ caller.user → w.delete caller keys = (.error .denied, w))) ∧
      ∀ request key row, w.store.get? key = some row ∨ w.roster.get? key = some row →
        ((w.handle request).store.get? key = none ↔ w.Takes request key) ∧
        ((w.handle request).roster.get? key = none ↔ w.Takes request key) ∧
        (w.Takes request key → ∃ caller keys, request = .delete caller keys ∧ key ∈ keys ∧
          (caller.role = .admin ∨ caller.user = Owned.owner row)) := by
  refine ⟨.ofList store.toList, rfl, ?_⟩
  intro w
  have hw : w.InStep := (inStep_ofList hstore.keyed).run requests
  have hstored : ∀ {key row}, w.store.get? key = some row ∨ w.roster.get? key = some row →
      w.store.get? key = some row := by
    intro key row h
    rw [hw.get?, or_self] at h
    exact h
  refine ⟨fun caller keys hmember => ⟨fun key hchanged => ?_, fun key hkey row hrow hother => ?_⟩, ?_⟩
  · have hafter : (w.delete caller keys).2.InStep := hw.handle (.delete caller keys)
    rw [hafter.get?, hw.get?, or_self] at hchanged
    rcases hw.get?_delete caller keys key with ⟨htakes, hnone⟩ | ⟨-, hsame⟩
    · rw [hnone] at hchanged
      obtain ⟨row, hrow⟩ := Option.ne_none_iff_exists'.1 hchanged.symm
      obtain ⟨_, _, ⟨⟩, -, hadmin | howner⟩ := htakes.caller hrow
      · rw [hmember] at hadmin; cases hadmin
      · exact ⟨row, hrow, by rw [hw.get?]; exact hrow, howner.symm⟩
    · exact absurd hsame hchanged
  · exact hw.delete_denied hmember hkey (hstored hrow) hother
  · intro request key row hrow
    have hne : w.store.get? key ≠ none := by rw [hstored hrow]; exact Option.some_ne_none row
    refine ⟨hw.gone_iff request hne, ?_, fun htakes => htakes.caller (hstored hrow)⟩
    rw [(hw.handle request).get?]
    exact hw.gone_iff request hne

/-- A member's delete that comes while the collection is read-only, one that names its own server twice
and a server that is not there, and one with another's server among its own. -/
theorem taken_by_owner_of_three_deletes :
    ∃ loaded : ServerRoster,
      let store : MemoryStore Server UInt64 := .ofList [{ id := 1, owner := 1 }, { id := 2, owner := 2 }]
      let w := run ⟨store, loaded⟩
        [.setReadOnly true, .delete ⟨1, .member⟩ [1], .setReadOnly false, .save { id := 3, owner := 1 }]
      Roster.load Server.order store = .ok loaded ∧
      (w.handle (.delete ⟨1, .member⟩ [3, 9, 3])).store.get? 3 = none ∧
      (w.handle (.delete ⟨1, .member⟩ [3, 9, 3])).roster.get? 3 = none ∧
      w.delete ⟨1, .member⟩ [3, 2] = (.error .denied, w) := by
  obtain ⟨loaded, hload, hmembers, hgone⟩ :=
    taken_by_owner Server.order (.ofList [({ id := 1, owner := 1 } : Server), { id := 2, owner := 2 }])
      [.setReadOnly true, .delete ⟨1, .member⟩ [1], .setReadOnly false, .save { id := 3, owner := 1 }]
  cases hload
  obtain ⟨hstore, hroster, -⟩ := hgone (.delete ⟨1, .member⟩ [3, 9, 3]) 3 { id := 3, owner := 1 } (.inl rfl)
  refine ⟨_, rfl, rfl, hroster.2 (hstore.1 rfl), ?_⟩
  exact (hmembers ⟨1, .member⟩ [3, 2] rfl).2 2 (by decide) { id := 2, owner := 2 } (.inl rfl) (by decide)

end WriteThrough

end FleetRoster
