/-
What writing through comes to. A denied delete never reaches the collection, and a write that the collection
refuses never reaches the roster, so every call is made on both sides or on neither, also where the two have
come to differ. What it makes of a key's row it makes of it on both sides, and an identifier changes hands
only if the written row carries it or its holder is written.
-/
import FleetRoster.Proofs.Roster.Reached
import FleetRoster.Proofs.Store.Ownership

namespace FleetRoster

variable {V κ : Type} [Key κ] [Entity V κ]

/-- A caller is refused exactly if one of the keys has a row that does not grant it. -/
theorem Contents.permits_eq_false_iff {c : Contents V κ} {caller : Caller} {keys : List κ} :
    c.permits caller keys = false ↔
      ∃ key ∈ keys, ∃ row, c.get? key = some row ∧ Entity.grants row caller = false := by
  rw [← Bool.not_eq_true, permits_iff]
  push Not
  simp only [Bool.not_eq_true]

/-! ## Collections whose writes are made or refused as a whole -/

/-- The collection accepted the write and made it, or refused it on its own account and has the rows it had.
`row?` tells the row that a collection has for a key. -/
def Store.Decides {σ : Type} (row? : σ → κ → Option V) (store : σ) (w : Write V κ)
    (outcome : Except Fault Unit × σ) : Prop :=
  (outcome.1 = .ok () ∧ ∀ key, row? outcome.2 key = w.onRow key (row? store key)) ∨
  (∃ fault, outcome.1 = .error (.store fault) ∧ ∀ key, row? outcome.2 key = row? store key)

theorem Store.Decides.ne_denied {σ : Type} {row? : σ → κ → Option V} {store : σ} {w : Write V κ}
    {outcome : Except Fault Unit × σ} (h : Store.Decides row? store w outcome) : outcome.1 ≠ .error .denied := by
  rcases h with ⟨hok, -⟩ | ⟨fault, herror, -⟩
  · rw [hok]
    rintro ⟨⟩
  · rw [herror]
    rintro ⟨⟩

/-- Every write of every collection of the type is made or refused as a whole. -/
structure AtomicStore {σ : Type} [Store σ V κ] (row? : σ → κ → Option V) : Prop where
  save : ∀ store row, Store.Decides row? store (.put row) (Store.save store row)
  delete : ∀ store keys, Store.Decides row? store (.drop keys) (Store.delete store keys)

namespace MemoryStore

theorem get?_accept (s : MemoryStore V κ) (w : Write V κ) (key : κ) :
    (s.accept w).get? key = w.onRow key (s.get? key) :=
  s.contents.get?_apply w key

theorem decides (s : MemoryStore V κ) (w : Write V κ) :
    Store.Decides get? s w (if s.readOnly then (.error (.store .readOnly), s) else (.ok (), s.accept w)) := by
  split
  · exact .inr ⟨_, rfl, fun _ => rfl⟩
  · exact .inl ⟨rfl, s.get?_accept w⟩

theorem atomic : AtomicStore (get? : MemoryStore V κ → κ → Option V) where
  save s row := by
    show Store.Decides get? s _ (s.save row)
    rw [save_eq]; exact s.decides _
  delete s keys := by
    show Store.Decides get? s _ (s.delete keys)
    rw [delete_eq]; exact s.decides _

end MemoryStore

namespace WriteThrough

variable {σ : Type} {order : ViewOrder V}

/-! ## Both sides or neither -/

/-- The write was made on both sides, and the listing is that of the rows as they are. -/
structure Made (row? : σ → κ → Option V) (w : WriteThrough σ order) (write : Write V κ)
    (w' : WriteThrough σ order) : Prop where
  stored : ∀ key, row? w'.store key = write.onRow key (row? w.store key)
  held : ∀ key, w'.roster.get? key = write.onRow key (w.roster.get? key)
  index : ∀ id, w'.roster.holder? id = write.onHolder id (w.roster.holder? id)
  settled : w'.roster.Settled

/-- Nothing was changed: the collection has the rows it had, and the roster is what it was. -/
structure Kept (row? : σ → κ → Option V) (w w' : WriteThrough σ order) : Prop where
  stored : ∀ key, row? w'.store key = row? w.store key
  roster : w'.roster = w.roster

/-- The call succeeded and the write was made, or it failed and nothing was changed. -/
def Whole (row? : σ → κ → Option V) (w : WriteThrough σ order) (write : Write V κ)
    (outcome : Except Fault Unit × WriteThrough σ order) : Prop :=
  (outcome.1 = .ok () ∧ w.Made row? write outcome.2) ∨
  (∃ fault, outcome.1 = .error fault ∧ w.Kept row? outcome.2)

theorem follow_fst (w : WriteThrough σ order) (write : Write V κ) (decided : Except Fault Unit × σ) :
    (w.follow write decided).1 = decided.1 := by
  obtain ⟨_ | _, _⟩ := decided <;> rfl

/-- The roster follows the collection, whatever rows the two have. -/
theorem whole_follow {row? : σ → κ → Option V} {w : WriteThrough σ order} (hw : w.roster.Reached)
    {write : Write V κ} {decided : Except Fault Unit × σ} (h : Store.Decides row? w.store write decided) :
    w.Whole row? write (w.follow write decided) := by
  obtain ⟨result, store⟩ := decided
  rcases h with ⟨hok, hstored⟩ | ⟨fault, herror, hstored⟩
  · cases hok
    have hcontents := w.roster.toContents_write write
    refine .inl ⟨rfl, hstored, fun key => ?_, fun id => ?_, Roster.settled_write hw.stamp write⟩
    · show (w.roster.write write).toContents.get? key = _
      rw [hcontents, Contents.get?_apply]
    · show (w.roster.write write).toContents.holder? id = _
      rw [hcontents, hw.backed.holder?_apply_eq]
  · cases herror
    exact .inr ⟨_, rfl, hstored, rfl⟩

variable [Store σ V κ]

/-- Take any collection whose writes are made or refused as a whole, one in memory for instance, and beside it
any roster that interleaved calls may have left. A delete is denied exactly if the roster has a row for one of
the keys that does not grant the caller, and then nothing at all is changed; otherwise a call returns what the
collection says. One that fails changes no row and not the roster; one that succeeds makes its write on both
sides. The key of a saved row has held one identifier at most. -/
theorem outcome_of_call :
    AtomicStore (MemoryStore.get? : MemoryStore V κ → κ → Option V) ∧
    ∀ {σ : Type} [Store σ V κ] {row? : σ → κ → Option V}, AtomicStore row? →
      ∀ (order : ViewOrder V) (w : WriteThrough σ order), w.roster.Reached →
      (∀ caller keys,
        ((w.delete caller keys).1 = .error .denied ↔
          ∃ key ∈ keys, ∃ row, w.roster.get? key = some row ∧ Entity.grants row caller = false) ∧
        ((w.delete caller keys).1 = .error .denied → (w.delete caller keys).2 = w) ∧
        ((w.delete caller keys).1 ≠ .error .denied → (w.delete caller keys).1 = (Store.delete w.store keys).1) ∧
        w.Whole row? (.drop keys) (w.delete caller keys)) ∧
      ∀ row, (w.save row).1 = (Store.save w.store row).1 ∧ w.Whole row? (.put row) (w.save row) ∧
        ∀ id other, w.roster.holder? id = some (Entity.key row) → w.roster.holder? other = some (Entity.key row) →
          id = other := by
  refine ⟨MemoryStore.atomic, ?_⟩
  intro σ _ row? hstore order w hw
  refine ⟨fun caller keys => ?_, fun row => ?_⟩
  · have hdecides := hstore.delete w.store keys
    rw [← Contents.permits_eq_false_iff]
    cases hpermits : w.roster.permits caller keys with
    | false =>
      rw [delete_eq_denied hpermits]
      exact ⟨iff_of_true rfl rfl, fun _ => rfl, fun h => absurd rfl h, .inr ⟨_, rfl, fun _ => rfl, rfl⟩⟩
    | true =>
      have hresult := w.follow_fst (.drop keys) (Store.delete w.store keys)
      rw [delete_eq_follow hpermits, hresult]
      -- the collection's own refusals are no denials
      have hne : (Store.delete w.store keys).1 ≠ .error .denied := hdecides.ne_denied
      exact ⟨iff_of_false hne (by decide), fun h => absurd h hne, fun _ => rfl, whole_follow hw hdecides⟩
  · rw [save_eq_follow]
    exact ⟨w.follow_fst _ _, whole_follow hw (hstore.save w.store row), fun _ _ => hw.backed.holder?_inj⟩

/-- Two servers of one agent in a roster whose collection has lost the first, has gained a third and has the
second with another owner. While the collection is read-only, a delete that names the second is denied and one
of the first and the third is refused; afterwards it is made. -/
theorem outcome_of_call_drifted :
    let roster : ServerRoster := .ofList [{ id := 1, owner := 1, uuid := "a" }, { id := 2, owner := 2, uuid := "a" }]
    let pair (readOnly : Bool) : WriteThrough (MemoryStore Server UInt64) Server.order :=
      ⟨{ rows := (MemoryStore.ofList [({ id := 2, owner := 1 } : Server), { id := 3 }]).rows, readOnly }, roster⟩
    roster.Reached ∧
    (pair true).delete ⟨1, .member⟩ [1, 2] = (.error .denied, pair true) ∧
    ((pair true).delete ⟨1, .member⟩ [1, 3, 1]).1 = .error (.store .readOnly) ∧
    (pair true).Kept MemoryStore.get? ((pair true).delete ⟨1, .member⟩ [1, 3, 1]).2 ∧
    (pair false).Made MemoryStore.get? (.drop [1, 3, 1]) ((pair false).delete ⟨1, .member⟩ [1, 3, 1]).2 := by
  intro roster pair
  have hr : roster.Reached := ⟨_, [], _, rfl, rfl⟩
  obtain ⟨hatomic, hcall⟩ := outcome_of_call (V := Server)
  obtain ⟨hdeletes, -⟩ := hcall hatomic Server.order (pair true) hr
  have hdenied : ((pair true).delete ⟨1, .member⟩ [1, 2]).1 = .error .denied :=
    (hdeletes ⟨1, .member⟩ [1, 2]).1.2 ⟨2, by decide, { id := 2, owner := 2, uuid := "a" }, rfl, rfl⟩
  have hrefused : ((pair true).delete ⟨1, .member⟩ [1, 3, 1]).1 = .error (.store .readOnly) := rfl
  refine ⟨hr, Prod.ext hdenied ((hdeletes _ _).2.1 hdenied), hrefused, ?_, ?_⟩
  · obtain ⟨-, -, -, ⟨hok, -⟩ | ⟨_, -, hkept⟩⟩ := hdeletes ⟨1, .member⟩ [1, 3, 1]
    · cases hrefused.symm.trans hok
    · exact hkept
  · have hok : ((pair false).delete ⟨1, .member⟩ [1, 3, 1]).1 = .ok () := rfl
    obtain ⟨hdeletes, -⟩ := hcall hatomic Server.order (pair false) hr
    obtain ⟨-, -, -, ⟨-, hmade⟩ | ⟨_, herror, -⟩⟩ := hdeletes ⟨1, .member⟩ [1, 3, 1]
    · exact hmade
    · cases hok.symm.trans herror

end WriteThrough

end FleetRoster
