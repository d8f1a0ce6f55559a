/-
A collection in memory and its roster, written through. Refused and denied calls included, every
call leaves the two with the same rows, so a roster loaded afresh has the rows and the listing of
the one in use. It has its index too, if the rows carried different identifiers at the start and
every save was made only when the identifier was free: the two rosters then have exact indices of
the same rows, though they took the rows in in different orders.
-/
import FleetRoster.Proofs.Contents.Unique
import FleetRoster.Proofs.Roster.Writes
import FleetRoster.Store.WriteThrough

namespace FleetRoster

open Std (ExtTreeMap TransCmp)

variable {V κ : Type} [Key κ] [Entity V κ]

/-! ## Collections in memory -/

namespace MemoryStore

/-- Every collection that can come about: made from rows, written, and made read-only and writable
again. -/
inductive Reachable : MemoryStore V κ → Prop
  | ofList (rows : List V) : Reachable (.ofList rows)
  | save {s : MemoryStore V κ} (row : V) : Reachable s → Reachable (s.save row).2
  | delete {s : MemoryStore V κ} (keys : List κ) : Reachable s → Reachable (s.delete keys).2
  | setReadOnly {s : MemoryStore V κ} (readOnly : Bool) : Reachable s → Reachable { s with readOnly }

/-- The rows as the contents of a roster, with nothing to be found by identifier. -/
def contents (s : MemoryStore V κ) : Contents V κ := { rows := s.rows }

/-- The collection after a write that it does not refuse. -/
def accept (s : MemoryStore V κ) (w : Write V κ) : MemoryStore V κ :=
  { s with rows := (s.contents.apply w).rows }

theorem save_eq (s : MemoryStore V κ) (row : V) :
    s.save row = if s.readOnly then (.error (.store .readOnly), s) else (.ok (), s.accept (.put row)) :=
  rfl

theorem delete_eq (s : MemoryStore V κ) (keys : List κ) :
    s.delete keys = if s.readOnly then (.error (.store .readOnly), s) else (.ok (), s.accept (.drop keys)) := by
  unfold delete change accept
  rw [Contents.rows_drop]; rfl

/-- Rows of a list, put in one after the other, are those of the contents of the list. -/
theorem rows_ofList (rows : List V) :
    (MemoryStore.ofList rows : MemoryStore V κ).rows = (Contents.ofList rows).rows := by
  induction rows using List.reverseRecOn with
  | nil => rfl
  | append_singleton rows row ih =>
    rw [Contents.ofList_concat]
    show (rows ++ [row]).foldl _ ∅ = ((Contents.ofList rows).put row).rows
    rw [List.foldl_append]
    exact congrArg (fun m : ExtTreeMap κ V => m.insert (Entity.key row) row) ih

theorem keyed_accept {s : MemoryStore V κ} (hs : s.contents.Keyed) (w : Write V κ) :
    (s.accept w).contents.Keyed :=
  (hs.apply w).of_rows_eq rfl

theorem Reachable.keyed {s : MemoryStore V κ} (h : s.Reachable) : s.contents.Keyed := by
  induction h with
  | ofList rows => exact (Contents.keyed_ofList rows).of_rows_eq (rows_ofList rows)
  | save row _ ih =>
    rw [save_eq]
    split
    · exact ih
    · exact keyed_accept ih _
  | delete keys _ ih =>
    rw [delete_eq]
    split
    · exact ih
    · exact keyed_accept ih _
  | setReadOnly _ _ ih => exact ih.of_rows_eq rfl

end MemoryStore

/-! ## Calls -/

namespace WriteThrough

variable {σ : Type} {order : ViewOrder V}

/-- What comes of a call once the collection has decided on its write. -/
def follow (w : WriteThrough σ order) (write : Write V κ) :
    Except Fault Unit × σ → Except Fault Unit × WriteThrough σ order
  | (.ok (), store) => (.ok (), ⟨store, w.roster.write write⟩)
  | (.error fault, store) => (.error fault, ⟨store, w.roster⟩)

variable [Store σ V κ]

theorem save_eq_follow (w : WriteThrough σ order) (row : V) :
    w.save row = w.follow (.put row) (Store.save w.store row) := by
  unfold save
  rcases Store.save w.store row with ⟨fault | ⟨⟩, store⟩ <;> rfl

theorem delete_eq_follow {w : WriteThrough σ order} {caller : Caller} {keys : List κ}
    (h : w.roster.permits caller keys = true) :
    w.delete caller keys = w.follow (.drop keys) (Store.delete w.store keys) := by
  unfold delete
  rw [if_pos h]
  rcases Store.delete w.store keys with ⟨fault | ⟨⟩, store⟩ <;> rfl

theorem delete_eq_denied {w : WriteThrough σ order} {caller : Caller} {keys : List κ}
    (h : w.roster.permits caller keys = false) : w.delete caller keys = (.error .denied, w) := by
  unfold delete
  rw [if_neg]
  rw [h]; exact Bool.false_ne_true

end WriteThrough

/-! ## Requests -/

/-- What is asked of a collection with its roster. -/
inductive Request (V κ : Type) where
  | save (row : V)
  | delete (caller : Caller) (keys : List κ)
  | setReadOnly (readOnly : Bool)

namespace WriteThrough

variable {order : ViewOrder V}

/-- The collection and its roster after a request, whatever came of it. -/
def handle (w : WriteThrough (MemoryStore V κ) order) :
    Request V κ → WriteThrough (MemoryStore V κ) order
  | .save row => (w.save row).2
  | .delete caller keys => (w.delete caller keys).2
  | .setReadOnly readOnly => { w with store := { w.store with readOnly } }

def run (w : WriteThrough (MemoryStore V κ) order) (requests : List (Request V κ)) :
    WriteThrough (MemoryStore V κ) order :=
  requests.foldl handle w

/-- Whenever a row with an identifier is to be saved, the identifier is free for the row's key. -/
def Guarded (w : WriteThrough (MemoryStore V κ) order) : List (Request V κ) → Prop
  | [] => True
  | request :: requests =>
    (∀ row id, request = .save row → id ≠ "" → Entity.identifier? row = some id →
      w.roster.ensureFree id (Entity.key row) = .ok ()) ∧
    (w.handle request).Guarded requests

theorem save_eq (w : WriteThrough (MemoryStore V κ) order) (row : V) :
    (w.save row).2 =
      if w.store.readOnly then w else ⟨w.store.accept (.put row), w.roster.write (.put row)⟩ := by
  rw [save_eq_follow]
  show (w.follow (.put row) (w.store.save row)).2 = _
  rw [MemoryStore.save_eq]
  split <;> rfl

theorem delete_eq (w : WriteThrough (MemoryStore V κ) order) (caller : Caller) (keys : List κ) :
    (w.delete caller keys).2 =
      if w.store.readOnly ∨ ¬ w.roster.permits caller keys then w
      else ⟨w.store.accept (.drop keys), w.roster.write (.drop keys)⟩ := by
  cases hp : w.roster.permits caller keys with
  | false =>
    rw [delete_eq_denied hp, if_pos (.inr Bool.false_ne_true)]
  | true =>
    rw [delete_eq_follow hp]
    show (w.follow (.drop keys) (w.store.delete keys)).2 = _
    rw [MemoryStore.delete_eq]
    simp only [not_true_eq_false, or_false]
    split <;> rfl

/-- A request either leaves rows and roster as they are or makes the same write on both sides. -/
theorem handle_cases (w : WriteThrough (MemoryStore V κ) order) (request : Request V κ) :
    ((w.handle request).roster = w.roster ∧ (w.handle request).store.rows = w.store.rows) ∨
    (∃ row, request = .save row ∧ w.handle request = ⟨w.store.accept (.put row), w.roster.write (.put row)⟩) ∨
    (∃ caller keys, request = .delete caller keys ∧
      w.handle request = ⟨w.store.accept (.drop keys), w.roster.write (.drop keys)⟩) := by
  cases request with
  | save row =>
    have h := w.save_eq row
    split at h
    · exact .inl ⟨congrArg (·.roster) h, congrArg (·.store.rows) h⟩
    · exact .inr (.inl ⟨row, rfl, h⟩)
  | delete caller keys =>
    have h := w.delete_eq caller keys
    split at h
    · exact .inl ⟨congrArg (·.roster) h, congrArg (·.store.rows) h⟩
    · exact .inr (.inr ⟨caller, keys, rfl, h⟩)
  | setReadOnly readOnly => exact .inl ⟨rfl, rfl⟩

/-! ## The two sides stay in step -/

/-- The collection and the roster have the same rows, and the roster's listing is that of its rows. -/
structure InStep (w : WriteThrough (MemoryStore V κ) order) : Prop where
  rows : w.roster.rows = w.store.rows
  keyed : w.roster.toContents.Keyed
  settled : w.roster.Settled

theorem inStep_ofList {store : MemoryStore V κ} (hs : store.contents.Keyed) :
    InStep (⟨store, .ofList store.toList⟩ : WriteThrough (MemoryStore V κ) order) :=
  ⟨hs.rows_ofList (List.Perm.refl _), Contents.keyed_ofList _, Roster.settled_ofList _⟩

/-- The same write on both sides keeps them in step. -/
theorem InStep.write {w : WriteThrough (MemoryStore V κ) order} (hw : w.InStep) (write : Write V κ) :
    InStep ⟨w.store.accept write, w.roster.write write⟩ := by
  refine ⟨?_, Roster.keyed_write hw.keyed write, hw.settled.write write⟩
  show (w.roster.write write).toContents.rows = (w.store.contents.apply write).rows
  rw [Roster.toContents_write]
  exact Contents.rows_apply_congr hw.rows write

theorem InStep.handle {w : WriteThrough (MemoryStore V κ) order} (hw : w.InStep) (request : Request V κ) :
    (w.handle request).InStep := by
  rcases w.handle_cases request with ⟨hr, hs⟩ | ⟨row, -, h⟩ | ⟨caller, keys, -, h⟩
  · exact ⟨by rw [hr, hs]; exact hw.rows, by rw [hr]; exact hw.keyed, by rw [hr]; exact hw.settled⟩
  · rw [h]; exact hw.write _
  · rw [h]; exact hw.write _

theorem InStep.run {w : WriteThrough (MemoryStore V κ) order} (hw : w.InStep) (requests : List (Request V κ)) :
    (w.run requests).InStep := by
  induction requests generalizing w with
  | nil => exact hw
  | cons request requests ih => exact ih (hw.handle request)

/-- Saves of free identifiers only keep the roster's index exact. -/
theorem exact_run {w : WriteThrough (MemoryStore V κ) order} (hw : w.roster.toContents.Exact)
    {requests : List (Request V κ)} (hg : w.Guarded requests) : (w.run requests).roster.toContents.Exact := by
  induction requests generalizing w with
  | nil => exact hw
  | cons request requests ih =>
    obtain ⟨hsave, hrest⟩ := hg
    refine ih ?_ hrest
    rcases w.handle_cases request with ⟨hr, -⟩ | ⟨row, rfl, h⟩ | ⟨caller, keys, -, h⟩
    · rw [hr]; exact hw
    · rw [h]
      show (w.roster.write (.put row)).toContents.Exact
      rw [Roster.toContents_write]
      exact hw.apply fun id hne hid => hsave row id rfl hne hid
    · rw [h]
      show (w.roster.write (.drop keys)).toContents.Exact
      rw [Roster.toContents_write]; exact hw.drop keys

/-! ## Loading afresh -/

/-- Take any collection, the roster loaded from it and any requests. Afterwards the two have the
same row or none for every key, and equally many; and a roster loaded afresh has the rows of the
one in use and shows the same listing, which is the listing of the collection's rows. If the
collection's rows carried different identifiers and the requests were guarded, it has the same
index as well. -/
theorem reload_of_requests (order : ViewOrder V) [TransCmp order.compare] {store : MemoryStore V κ}
    (hstore : store.Reachable) (requests : List (Request V κ)) :
    ∃ loaded : Roster order, Roster.load order store = .ok loaded ∧
      let w := run ⟨store, loaded⟩ requests
      (∀ key, w.roster.get? key = w.store.get? key) ∧ w.roster.size = w.store.size ∧
      ∃ fresh : Roster order, Roster.load order w.store = .ok fresh ∧ fresh.rows = w.roster.rows ∧
        fresh.sorted = w.roster.sorted ∧ fresh.visible = w.roster.visible ∧
        w.roster.listing.Shows order w.store.toList ∧
        (DistinctIdentifiers store.toList → Guarded ⟨store, loaded⟩ requests →
          fresh.index = w.roster.index) := by
  refine ⟨.ofList store.toList, rfl, ?_⟩
  intro w
  have hw : w.InStep := (inStep_ofList hstore.keyed).run requests
  have hrows : w.roster.toContents.rows = w.store.rows := hw.rows
  have hfresh : (Contents.ofList w.store.toList : Contents V κ).rows = w.roster.toContents.rows := by
    refine hw.keyed.rows_ofList ?_
    rw [hrows]; exact List.Perm.refl _
  have hlisting := hw.settled.shows hw.keyed
  have hnew : (Roster.ofList w.store.toList : Roster order).listing.Shows order w.roster.rows.values := by
    rw [← hfresh]
    exact (Roster.settled_ofList _).shows (Contents.keyed_ofList _)
  obtain ⟨hall, hvisible⟩ := hnew.unique hlisting (List.Perm.refl _)
  refine ⟨fun key => ?_, ?_, .ofList w.store.toList, rfl, hfresh, hall, hvisible, ?_, ?_⟩
  · show w.roster.toContents.rows[key]? = w.store.rows[key]?
    rw [hrows]
  · show w.roster.toContents.rows.size = w.store.rows.size
    rw [hrows]
  · have hvalues : w.store.toList = w.roster.rows.values := congrArg ExtTreeMap.values hw.rows.symm
    rw [hvalues]; exact hlisting
  · intro hdistinct hguarded
    have hlive : w.roster.toContents.Exact := exact_run (Contents.exact_ofList hdistinct) hguarded
    -- an exact index is determined by the rows, whatever order they were taken in
    have hd : DistinctIdentifiers w.store.toList := by
      have := hlive.distinct_values hw.keyed
      rw [hrows] at this
      exact this
    exact (Contents.exact_ofList hd).index_eq hlive hfresh

/-- A refused save, a denied delete, and a server that takes over the agent of a deleted one. -/
theorem reload_of_agent_moved :
    ∃ loaded fresh : ServerRoster,
      let store : MemoryStore Server UInt64 :=
        .ofList [{ id := 1, owner := 1, uuid := "a" }, { id := 2, owner := 2, uuid := "b" }]
      let w := run ⟨store, loaded⟩
        [.setReadOnly true, .save { id := 3, uuid := "c" }, .setReadOnly false,
          .delete ⟨1, .member⟩ [1, 2], .delete ⟨1, .member⟩ [1, 9], .save { id := 2, uuid := "a" }]
      Roster.load Server.order store = .ok loaded ∧ Roster.load Server.order w.store = .ok fresh ∧
      fresh.rows = w.roster.rows ∧ fresh.index = w.roster.index := by
  obtain ⟨loaded, hload, -, -, fresh, hfresh, hrows, -, -, -, hindex⟩ :=
    reload_of_requests Server.order (.ofList
      [{ id := 1, owner := 1, uuid := "a" }, { id := 2, owner := 2, uuid := "b" }])
      [.setReadOnly true, .save { id := 3, uuid := "c" }, .setReadOnly false,
        .delete ⟨1, .member⟩ [1, 2], .delete ⟨1, .member⟩ [1, 9], .save { id := 2, uuid := "a" }]
  refine ⟨loaded, fresh, hload, hfresh, hrows, hindex ?_ ?_⟩
  · show List.Pairwise _ [({ id := 1, owner := 1, uuid := "a" } : Server), { id := 2, owner := 2, uuid := "b" }]
    rw [List.pairwise_pair]
    intro id hne ha hb
    cases ha
    exact absurd hb (by decide)
  · cases hload
    refine ⟨?_, ?_, ?_, ?_, ?_, ?_, trivial⟩
    · rintro row id ⟨⟩
    · rintro row id ⟨⟩ - ⟨⟩; rfl
    · rintro row id ⟨⟩
    · rintro row id ⟨⟩
    · rintro row id ⟨⟩
    · rintro row id ⟨⟩ - ⟨⟩; rfl

end WriteThrough

end FleetRoster
