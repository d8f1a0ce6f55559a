/-
The rows of a roster's contents after writes, as look-ups by key: a put sets the row of its own
key, a drop removes the rows of its keys, and every other key keeps its row. Contents that writes
have built from nothing hold every row under its own key.
-/
import FleetRoster.Contents
import Mathlib.Tactic

namespace FleetRoster

open Std (ExtTreeMap)

/-- What a key has after the write, if it had `old` before. -/
def Write.onRow {V κ : Type} [Key κ] [Entity V κ] (w : Write V κ) (key : κ) (old : Option V) : Option V :=
  match w with
  | .put row => if Entity.key row = key then some row else old
  | .drop keys => if key ∈ keys then none else old

namespace Contents

section

variable {V κ : Type} [Key κ]

theorem get?_empty (key : κ) : ({} : Contents V κ).get? key = none :=
  ExtTreeMap.getElem?_empty

theorem rows_ext {c d : Contents V κ} (h : ∀ key, c.get? key = d.get? key) : c.rows = d.rows :=
  ExtTreeMap.ext_getElem? h

theorem mem_toList (c : Contents V κ) (key : κ) (row : V) :
    (key, row) ∈ c.toList ↔ c.get? key = some row :=
  ExtTreeMap.mem_toList_iff_getElem?_eq_some

/-- The rows of a map, in the order of its keys. -/
theorem values_eq_map_toList (rows : ExtTreeMap κ V) : rows.values = rows.toList.map (·.2) := by
  have hv : rows.values = rows.foldr (fun _ row rest => row :: rest) [] := by
    obtain ⟨⟨m⟩⟩ := rows
    rfl
  rw [hv, ExtTreeMap.foldr_eq_foldr_toList]
  induction rows.toList with
  | nil => rfl
  | cons p rest ih => rw [List.foldr_cons, List.map_cons, ih]

theorem mem_values (c : Contents V κ) (row : V) :
    row ∈ c.rows.values ↔ ∃ key, c.get? key = some row := by
  rw [values_eq_map_toList, List.mem_map]
  constructor
  · rintro ⟨⟨key, other⟩, hmem, rfl⟩; exact ⟨key, (mem_toList c key other).1 hmem⟩
  · rintro ⟨key, hget⟩; exact ⟨(key, row), (mem_toList c key row).2 hget, rfl⟩

end

variable {V κ : Type} [Key κ] [Entity V κ]

/-! ## Look-ups after one write -/

theorem get?_put (c : Contents V κ) (row : V) (key : κ) :
    (c.put row).get? key = if Entity.key row = key then some row else c.get? key := by
  unfold get? put
  rw [ExtTreeMap.getElem?_insert]
  simp only [Std.compare_eq_iff_eq]

theorem get?_remove (c : Contents V κ) (gone key : κ) :
    (c.remove gone).get? key = if gone = key then none else c.get? key := by
  unfold get? remove
  rw [ExtTreeMap.getElem?_erase]
  simp only [Std.compare_eq_iff_eq]

theorem get?_drop (c : Contents V κ) (keys : List κ) (key : κ) :
    (c.apply (.drop keys)).get? key = if key ∈ keys then none else c.get? key := by
  show (keys.foldl remove c).get? key = _
  induction keys generalizing c with
  | nil => simp
  | cons gone keys ih =>
    rw [List.foldl_cons, ih, get?_remove]
    by_cases h : gone = key
    · subst h; simp
    · simp [h, Ne.symm h]

theorem get?_apply (c : Contents V κ) (w : Write V κ) (key : κ) :
    (c.apply w).get? key = w.onRow key (c.get? key) := by
  cases w with
  | put row => exact c.get?_put row key
  | drop keys => exact c.get?_drop keys key

theorem rows_drop (c : Contents V κ) (keys : List κ) :
    (c.apply (.drop keys)).rows = keys.foldl ExtTreeMap.erase c.rows := by
  show (keys.foldl remove c).rows = _
  induction keys generalizing c with
  | nil => rfl
  | cons key keys ih => exact ih (c.remove key)

/-- What a write makes of the rows does not depend on the index. -/
theorem rows_apply_congr {c d : Contents V κ} (h : c.rows = d.rows) (w : Write V κ) :
    (c.apply w).rows = (d.apply w).rows := by
  cases w with
  | put row =>
    show c.rows.insert (Entity.key row) row = d.rows.insert (Entity.key row) row
    rw [h]
  | drop keys => rw [rows_drop, rows_drop, h]

/-! ## Sequences of writes -/

/-- The contents after some writes. -/
def replay (c : Contents V κ) (writes : List (Write V κ)) : Contents V κ := writes.foldl apply c

theorem replay_append (c : Contents V κ) (writes more : List (Write V κ)) :
    c.replay (writes ++ more) = (c.replay writes).replay more :=
  List.foldl_append

theorem replay_concat (c : Contents V κ) (writes : List (Write V κ)) (w : Write V κ) :
    c.replay (writes ++ [w]) = (c.replay writes).apply w := by
  rw [replay_append]; rfl

theorem ofList_eq_replay (rows : List V) :
    (ofList rows : Contents V κ) = replay {} (rows.map .put) := by
  unfold ofList replay
  rw [List.foldl_map]; rfl

/-- What installing a row and removing a key keep, every write keeps. -/
theorem apply_induction {P : Contents V κ → Prop} (hput : ∀ c row, P c → P (c.put row))
    (hremove : ∀ c key, P c → P (c.remove key)) {c : Contents V κ} (hc : P c) (w : Write V κ) :
    P (c.apply w) := by
  cases w with
  | put row => exact hput c row hc
  | drop keys =>
    show P (keys.foldl remove c)
    induction keys generalizing c with
    | nil => exact hc
    | cons key keys ih => exact ih (hremove c key hc)

/-- What every write keeps, every sequence of writes keeps. -/
theorem replay_induction {P : Contents V κ → Prop} (happly : ∀ c w, P c → P (c.apply w))
    {c : Contents V κ} (hc : P c) (writes : List (Write V κ)) : P (c.replay writes) := by
  induction writes generalizing c with
  | nil => exact hc
  | cons w writes ih => exact ih (happly c w hc)

/-! ## Rows are held under their own keys -/

/-- Every row is held under its own key. -/
def Keyed (c : Contents V κ) : Prop := ∀ key row, c.get? key = some row → Entity.key row = key

theorem keyed_empty : Keyed ({} : Contents V κ) := by
  intro key row h
  rw [get?_empty] at h; cases h

theorem Keyed.put {c : Contents V κ} (hc : c.Keyed) (row : V) : (c.put row).Keyed := by
  intro key other h
  rw [get?_put] at h
  split at h
  · rename_i hk; cases h; exact hk
  · exact hc key other h

theorem Keyed.remove {c : Contents V κ} (hc : c.Keyed) (gone : κ) : (c.remove gone).Keyed := by
  intro key row h
  rw [get?_remove] at h
  split at h
  · cases h
  · exact hc key row h

theorem Keyed.apply {c : Contents V κ} (hc : c.Keyed) (w : Write V κ) : (c.apply w).Keyed :=
  apply_induction (fun _ row h => h.put row) (fun _ key h => h.remove key) hc w

theorem Keyed.replay {c : Contents V κ} (hc : c.Keyed) (writes : List (Write V κ)) :
    (c.replay writes).Keyed :=
  replay_induction (fun _ w h => h.apply w) hc writes

theorem keyed_ofList (rows : List V) : (ofList rows : Contents V κ).Keyed := by
  rw [ofList_eq_replay]; exact keyed_empty.replay _

theorem Keyed.of_rows_eq {c d : Contents V κ} (hc : c.Keyed) (h : d.rows = c.rows) : d.Keyed := by
  intro key row hget
  unfold get? at hget
  rw [h] at hget
  exact hc key row hget

/-- No two rows have the same key. -/
theorem Keyed.distinct_values {c : Contents V κ} (hc : c.Keyed) :
    c.rows.values.Pairwise fun a b => Entity.key a ≠ Entity.key b := by
  rw [values_eq_map_toList, List.pairwise_map]
  refine ExtTreeMap.distinct_keys_toList.imp_of_mem ?_
  rintro ⟨k, a⟩ ⟨l, b⟩ ha hb h
  rw [hc k a ((mem_toList c k a).1 ha), hc l b ((mem_toList c l b).1 hb)]
  simpa using h

theorem Keyed.distinct_of_perm {c : Contents V κ} (hc : c.Keyed) {rows : List V} (h : rows.Perm c.rows.values) :
    rows.Pairwise fun a b => Entity.key a ≠ Entity.key b :=
  (h.pairwise_iff fun {a b} (hab : Entity.key a ≠ Entity.key b) => hab.symm).2 hc.distinct_values

/-! ## Contents of a list of rows -/

theorem ofList_concat (rows : List V) (row : V) :
    (ofList (rows ++ [row]) : Contents V κ) = (ofList rows).put row := by
  unfold ofList; rw [List.foldl_append]; rfl

theorem mem_of_get?_ofList {rows : List V} {key : κ} {row : V}
    (h : (ofList rows : Contents V κ).get? key = some row) : row ∈ rows := by
  induction rows using List.reverseRecOn with
  | nil => rw [show (ofList [] : Contents V κ) = {} from rfl, get?_empty] at h; cases h
  | append_singleton rows last ih =>
    rw [ofList_concat, get?_put] at h
    split at h
    · cases h; simp
    · exact List.mem_append_left _ (ih h)

/-- A row is found under its key, if no later row of the list has that key. -/
theorem get?_ofList_of_mem {rows : List V} (hd : rows.Pairwise fun a b => Entity.key a ≠ Entity.key b)
    {row : V} (h : row ∈ rows) : (ofList rows : Contents V κ).get? (Entity.key row) = some row := by
  induction rows using List.reverseRecOn with
  | nil => cases h
  | append_singleton rows last ih =>
    obtain ⟨hrows, -, hlast⟩ := List.pairwise_append.1 hd
    rw [ofList_concat, get?_put]
    rcases List.mem_append.1 h with h | h
    · rw [if_neg (hlast row h last (List.mem_singleton_self last)).symm]
      exact ih hrows h
    · rw [List.mem_singleton.1 h, if_pos rfl]

/-- The rows of contents, listed in whatever order, make up the same rows again. -/
theorem Keyed.rows_ofList {c : Contents V κ} (hc : c.Keyed) {rows : List V} (h : rows.Perm c.rows.values) :
    (ofList rows : Contents V κ).rows = c.rows := by
  have hd := hc.distinct_of_perm h
  apply rows_ext
  intro key
  apply Option.ext
  intro row
  constructor
  · -- a row of the list is a row of `c`, under a key that can only be its own
    intro hget
    obtain ⟨other, hother⟩ := (mem_values c row).1 (h.mem_iff.1 (mem_of_get?_ofList hget))
    rw [← keyed_ofList rows key row hget, hc other row hother]
    exact hother
  · intro hget
    rw [← hc key row hget]
    exact get?_ofList_of_mem hd (h.mem_iff.2 ((mem_values c row).2 ⟨key, hget⟩))

end Contents

end FleetRoster
