/-
The index of identifiers after writes. An index entry always points to a row that carries its
identifier, and so a key gives its entry up whenever it is written or dropped: after any writes,
an identifier belongs to the key of the last row written with it, unless that key has been
written or dropped since.
-/
import FleetRoster.Proofs.Contents.Rows

namespace FleetRoster

open Std (ExtTreeMap)

variable {V κ : Type} [Key κ] [Entity V κ]

/-- Whom the identifier belongs to after the write, if it belonged to `old` before: a written row takes its own
identifier, and the keys written or dropped give up theirs. -/
def Write.onHolder (w : Write V κ) (id : String) (old : Option κ) : Option κ :=
  match w with
  | .put row =>
    if Entity.indexed? row = some id then some (Entity.key row) else old.filter (Entity.key row ≠ ·)
  | .drop keys => old.filter (!keys.contains ·)

theorem Entity.indexed?_eq_some_iff {row : V} {id : String} :
    Entity.indexed? row = some id ↔ id ≠ "" ∧ Entity.identifier? row = some id := by
  unfold Entity.indexed?
  rw [Option.filter_eq_some_iff]
  simp [and_comm]

namespace Contents

/-! ## Giving up and taking over -/

theorem getElem?_release (index : ExtTreeMap String κ) (id? : Option String) (key : κ) (id : String) :
    (release index id? key)[id]? =
      if id? = some id ∧ index[id]? = some key then none else index[id]? := by
  unfold release
  cases id? with
  | none => simp
  | some old =>
    by_cases ho : index[old]? = some key
    · simp only [if_pos ho, ExtTreeMap.getElem?_erase, Std.compare_eq_iff_eq, Option.some.injEq]
      by_cases h : old = id
      · subst h; simp [ho]
      · simp [h]
    · simp only [if_neg ho, Option.some.injEq]
      rw [if_neg]
      rintro ⟨rfl, h⟩; exact ho h

omit [Key κ] in
theorem getElem?_claim (index : ExtTreeMap String κ) (id? : Option String) (key : κ) (id : String) :
    (claim index id? key)[id]? = if id? = some id then some key else index[id]? := by
  unfold claim
  cases id? with
  | none => simp
  | some new => simp [ExtTreeMap.getElem?_insert]

theorem identifierOf?_put (c : Contents V κ) (row : V) (key : κ) :
    (c.put row).identifierOf? key =
      if Entity.key row = key then Entity.indexed? row else c.identifierOf? key := by
  show ((c.put row).get? key).bind _ = _
  rw [get?_put]
  split <;> rfl

theorem identifierOf?_remove (c : Contents V κ) (gone key : κ) :
    (c.remove gone).identifierOf? key = if gone = key then none else c.identifierOf? key := by
  show ((c.remove gone).get? key).bind _ = _
  rw [get?_remove]
  split <;> rfl

theorem identifierOf?_eq_some_iff {c : Contents V κ} {key : κ} {id : String} :
    c.identifierOf? key = some id ↔ ∃ row, c.get? key = some row ∧ Entity.indexed? row = some id :=
  Option.bind_eq_some_iff

/-- The identifier of a key is not empty, and the key's row carries it. -/
theorem identifierOf?_eq_some_iff_carried {c : Contents V κ} {key : κ} {id : String} :
    c.identifierOf? key = some id ↔
      id ≠ "" ∧ ∃ row, c.get? key = some row ∧ Entity.identifier? row = some id := by
  rw [identifierOf?_eq_some_iff]
  simp only [Entity.indexed?_eq_some_iff]
  constructor
  · rintro ⟨row, hrow, hne, hid⟩; exact ⟨hne, row, hrow, hid⟩
  · rintro ⟨hne, row, hrow, hid⟩; exact ⟨row, hrow, hne, hid⟩

/-! ## Index entries point to rows that carry them -/

/-- Every identifier of the index is carried by the row it points to. -/
def Backed (c : Contents V κ) : Prop := ∀ id key, c.holder? id = some key → c.identifierOf? key = some id

theorem backed_empty : Backed ({} : Contents V κ) := by
  intro id key h
  rw [show ({} : Contents V κ).holder? id = none from ExtTreeMap.getElem?_empty] at h
  cases h

/-- Who holds an identifier after a put: the new row's key, if the row carries it; else whoever held
it before, unless that is the key just written. -/
theorem Backed.holder?_put {c : Contents V κ} (hc : c.Backed) (row : V) (id : String) (key : κ) :
    (c.put row).holder? id = some key ↔
      Entity.indexed? row = some id ∧ Entity.key row = key ∨
      Entity.indexed? row ≠ some id ∧ Entity.key row ≠ key ∧ c.holder? id = some key := by
  unfold holder? put
  simp only [getElem?_claim, getElem?_release]
  by_cases hnew : Entity.indexed? row = some id
  · simp [hnew]
  · simp only [if_neg hnew]
    split
    · rename_i h
      simp [hnew, h.2]
    · rename_i h
      simp only [hnew, false_and, false_or, ne_eq, not_false_eq_true, true_and]
      refine ⟨fun hk => ⟨?_, hk⟩, fun hk => hk.2⟩
      -- a holder has a row that carries the identifier, which it would have given up
      rintro rfl
      exact h ⟨hc id _ hk, hk⟩

theorem Backed.holder?_remove {c : Contents V κ} (hc : c.Backed) (gone : κ) (id : String) (key : κ) :
    (c.remove gone).holder? id = some key ↔ gone ≠ key ∧ c.holder? id = some key := by
  unfold holder? remove
  simp only [getElem?_release]
  split
  · rename_i h
    simp [h.2]
  · rename_i h
    refine ⟨fun hk => ⟨?_, hk⟩, fun hk => hk.2⟩
    rintro rfl
    exact h ⟨hc id _ hk, hk⟩

theorem Backed.put {c : Contents V κ} (hc : c.Backed) (row : V) : (c.put row).Backed := by
  intro id key h
  rw [identifierOf?_put]
  rcases (hc.holder?_put row id key).1 h with ⟨hid, hk⟩ | ⟨-, hk, hold⟩
  · rw [if_pos hk]; exact hid
  · rw [if_neg hk]; exact hc id key hold

theorem Backed.remove {c : Contents V κ} (hc : c.Backed) (gone : κ) : (c.remove gone).Backed := by
  intro id key h
  obtain ⟨hk, hold⟩ := (hc.holder?_remove gone id key).1 h
  rw [identifierOf?_remove, if_neg hk]; exact hc id key hold

theorem Backed.apply {c : Contents V κ} (hc : c.Backed) (w : Write V κ) : (c.apply w).Backed :=
  apply_induction (fun _ row h => h.put row) (fun _ key h => h.remove key) hc w

theorem Backed.replay {c : Contents V κ} (hc : c.Backed) (writes : List (Write V κ)) :
    (c.replay writes).Backed :=
  replay_induction (fun _ w h => h.apply w) hc writes

theorem backed_ofList (rows : List V) : (ofList rows : Contents V κ).Backed := by
  rw [ofList_eq_replay]; exact backed_empty.replay _

theorem Backed.holder?_drop {c : Contents V κ} (hc : c.Backed) (keys : List κ) (id : String) (key : κ) :
    (c.apply (.drop keys)).holder? id = some key ↔ key ∉ keys ∧ c.holder? id = some key := by
  show (keys.foldl Contents.remove c).holder? id = some key ↔ _
  induction keys generalizing c with
  | nil => simp
  | cons gone keys ih =>
    rw [List.foldl_cons, ih (hc.remove gone), hc.holder?_remove, List.mem_cons]
    constructor
    · rintro ⟨h1, h2, h3⟩; exact ⟨by rintro (rfl | h); exacts [h2 rfl, h1 h], h3⟩
    · rintro ⟨h1, h2⟩; exact ⟨fun h => h1 (.inr h), fun h => h1 (.inl h.symm), h2⟩

theorem Backed.holder?_apply_eq {c : Contents V κ} (hc : c.Backed) (w : Write V κ) (id : String) :
    (c.apply w).holder? id = w.onHolder id (c.holder? id) := by
  apply Option.ext
  intro key
  cases w with
  | put row =>
    show (c.put row).holder? id = some key ↔ _
    rw [hc.holder?_put]
    unfold Write.onHolder
    by_cases hid : Entity.indexed? row = some id
    · simp [hid]
    · simp [hid, Option.filter_eq_some_iff, and_comm]
  | drop keys =>
    rw [hc.holder?_drop]
    simp [Write.onHolder, Option.filter_eq_some_iff, and_comm]

/-- A key holds one identifier at most, the one that its row carries. -/
theorem Backed.holder?_inj {c : Contents V κ} (hc : c.Backed) {id other : String} {key : κ}
    (h : c.holder? id = some key) (hother : c.holder? other = some key) : id = other :=
  Option.some.inj ((hc id key h).symm.trans (hc other key hother))

theorem Backed.holder?_empty {c : Contents V κ} (hc : c.Backed) : c.holder? "" = none := by
  cases h : c.holder? "" with
  | none => rfl
  | some key =>
    obtain ⟨row, -, hid⟩ := identifierOf?_eq_some_iff.1 (hc "" key h)
    exact absurd rfl (Entity.indexed?_eq_some_iff.1 hid).1

/-- The row an identifier belongs to, seen through the index. -/
theorem Backed.identified?_eq_some {c : Contents V κ} (hc : c.Backed) {id : String} {key : κ}
    (h : c.holder? id = some key) :
    ∃ row, c.identified? id = some row ∧ c.get? key = some row ∧ Entity.indexed? row = some id := by
  obtain ⟨row, hrow, hid⟩ := identifierOf?_eq_some_iff.1 (hc id key h)
  refine ⟨row, ?_, hrow, hid⟩
  unfold identified?
  rw [h]; exact hrow

end Contents

/-! ## The last write of an identifier -/

namespace Write

/-- The write installs a row that carries the identifier. -/
def Carries (id : String) : Write V κ → Prop
  | .put row => Entity.identifier? row = some id
  | .drop _ => False

/-- The write installs or removes the row of the key. -/
def Touches (key : κ) : Write V κ → Prop
  | .put row => Entity.key row = key
  | .drop keys => key ∈ keys

/-- The identifier is not empty, the last of the writes that carries it is for the key, and the key
is not written or dropped after it. -/
def LastClaim (writes : List (Write V κ)) (id : String) (key : κ) : Prop :=
  id ≠ "" ∧ ∃ before row after, writes = before ++ .put row :: after ∧
    Entity.identifier? row = some id ∧ Entity.key row = key ∧
    ∀ w ∈ after, ¬ w.Carries id ∧ ¬ w.Touches key

theorem not_lastClaim_nil (id : String) (key : κ) : ¬ LastClaim ([] : List (Write V κ)) id key := by
  rintro ⟨-, before, row, after, h, -⟩
  simp at h

/-- One more write either is the last claim itself or leaves it standing. -/
theorem lastClaim_concat (writes : List (Write V κ)) (w : Write V κ) (id : String) (key : κ) :
    LastClaim (writes ++ [w]) id key ↔
      (id ≠ "" ∧ w.Carries id ∧ ∃ row, w = .put row ∧ Entity.key row = key) ∨
      (¬ w.Carries id ∧ ¬ w.Touches key ∧ LastClaim writes id key) := by
  constructor
  · rintro ⟨hid, before, row, after, h, hrow, hkey, hafter⟩
    -- the new write is the claiming put, or comes after it
    rcases List.eq_nil_or_concat' after with rfl | ⟨after, last, rfl⟩
    · cases (List.append_inj' h rfl).2
      exact .inl ⟨hid, hrow, row, rfl, hkey⟩
    · rw [show before ++ Write.put row :: (after ++ [last]) =
        (before ++ .put row :: after) ++ [last] by simp] at h
      obtain ⟨rfl, hl⟩ := List.append_inj' h rfl
      cases hl
      obtain ⟨h1, h2⟩ := hafter w (by simp)
      exact .inr ⟨h1, h2, hid, before, row, after, rfl, hrow, hkey, fun v hv => hafter v (by simp [hv])⟩
  · rintro (⟨hid, hw, row, rfl, hkey⟩ | ⟨h1, h2, hid, before, row, after, rfl, hrow, hkey, hafter⟩)
    · exact ⟨hid, writes, row, [], rfl, hw, hkey, by simp⟩
    · refine ⟨hid, before, row, after ++ [w], by simp, hrow, hkey, ?_⟩
      intro v hv
      rcases List.mem_append.1 hv with hv | hv
      · exact hafter v hv
      · rw [List.mem_singleton.1 hv]; exact ⟨h1, h2⟩

end Write

namespace Contents

/-- One write changes the holder of an identifier as it changes the last claim to it. -/
theorem Backed.holder?_apply {c : Contents V κ} (hc : c.Backed) (w : Write V κ) (id : String) (key : κ) :
    (c.apply w).holder? id = some key ↔
      (id ≠ "" ∧ w.Carries id ∧ ∃ row, w = .put row ∧ Entity.key row = key) ∨
      (¬ w.Carries id ∧ ¬ w.Touches key ∧ c.holder? id = some key) := by
  cases w with
  | drop keys =>
    rw [hc.holder?_drop]
    simp [Write.Carries, Write.Touches]
  | put row =>
    show (c.put row).holder? id = some key ↔ _
    rw [hc.holder?_put, ne_eq, Entity.indexed?_eq_some_iff]
    simp only [Write.Carries, Write.Touches, Write.put.injEq, exists_eq_left']
    by_cases hid : id = ""
    · subst hid
      rw [hc.holder?_empty]; simp
    · simp [hid]

/-- An identifier belongs to the key that claimed it last. -/
theorem holder?_replay (writes : List (Write V κ)) (id : String) (key : κ) :
    (replay {} writes : Contents V κ).holder? id = some key ↔ Write.LastClaim writes id key := by
  induction writes using List.reverseRecOn with
  | nil =>
    refine iff_of_false ?_ (Write.not_lastClaim_nil id key)
    intro h
    obtain ⟨row, hrow, -⟩ := identifierOf?_eq_some_iff.1 (backed_empty id key h)
    rw [get?_empty] at hrow; cases hrow
  | append_singleton writes w ih =>
    rw [replay_concat, (backed_empty.replay writes).holder?_apply, Write.lastClaim_concat, ih]

end Contents

end FleetRoster
