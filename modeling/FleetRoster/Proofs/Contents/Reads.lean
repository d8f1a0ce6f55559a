/-
What is read of a roster's contents, all of it in terms of the look-up by key: going through the rows,
counting them, looking several keys up at once and asking whether a caller may act on them. And the look-up
itself in terms of the writes before it: the last write of a key decides what the key has.
-/
import FleetRoster.Proofs.Contents.Index

namespace FleetRoster

open Std (ExtTreeMap)

variable {V κ : Type} [Key κ] [Entity V κ]

/-! ## The last write of a key -/

namespace Write

/-- The writes install the row for the key, and none that comes later installs or removes the key's row. -/
def LastPut (writes : List (Write V κ)) (key : κ) (row : V) : Prop :=
  ∃ before after, writes = before ++ .put row :: after ∧ Entity.key row = key ∧ ∀ w ∈ after, ¬ w.Touches key

theorem not_lastPut_nil (key : κ) (row : V) : ¬ LastPut ([] : List (Write V κ)) key row := by
  rintro ⟨before, after, h, -⟩
  simp at h

/-- One more write either is the last put itself or leaves it standing. -/
theorem lastPut_concat (writes : List (Write V κ)) (w : Write V κ) (key : κ) (row : V) :
    LastPut (writes ++ [w]) key row ↔
      (w = .put row ∧ Entity.key row = key) ∨ (¬ w.Touches key ∧ LastPut writes key row) := by
  constructor
  · rintro ⟨before, after, h, hkey, hafter⟩
    rcases List.eq_nil_or_concat' after with rfl | ⟨after, last, rfl⟩
    · cases (List.append_inj' h rfl).2
      exact .inl ⟨rfl, hkey⟩
    · rw [← List.cons_append, ← List.append_assoc] at h
      obtain ⟨rfl, hlast⟩ := List.append_inj' h rfl
      cases hlast
      exact .inr ⟨hafter w (by simp), before, after, rfl, hkey, fun v hv => hafter v (by simp [hv])⟩
  · rintro (⟨rfl, hkey⟩ | ⟨hw, before, after, rfl, hkey, hafter⟩)
    · exact ⟨writes, [], rfl, hkey, by simp⟩
    · refine ⟨before, after ++ [w], by simp, hkey, ?_⟩
      rintro v hv
      rcases List.mem_append.1 hv with hv | hv
      · exact hafter v hv
      · rw [List.mem_singleton.1 hv]; exact hw

theorem onRow_eq_some_iff (w : Write V κ) (key : κ) (old : Option V) (row : V) :
    w.onRow key old = some row ↔ (w = .put row ∧ Entity.key row = key) ∨ (¬ w.Touches key ∧ old = some row) := by
  cases w with
  | put other =>
    unfold onRow Touches
    by_cases hkey : Entity.key other = key
    · simp only [hkey, if_true, Option.some.injEq, put.injEq, not_true_eq_false, false_and, or_false]
      constructor
      · rintro rfl; exact ⟨rfl, hkey⟩
      · rintro ⟨rfl, -⟩; rfl
    · simp only [put.injEq, hkey, if_false, not_false_eq_true, true_and]
      refine ⟨.inr, ?_⟩
      rintro (⟨rfl, h⟩ | h)
      · exact absurd h hkey
      · exact h
  | drop keys =>
    unfold onRow Touches
    by_cases hkey : key ∈ keys <;> simp [hkey]

end Write

namespace Contents

/-- A key has the row that was put for it last, unless it has been dropped since. -/
theorem get?_replay (writes : List (Write V κ)) (key : κ) (row : V) :
    (replay {} writes : Contents V κ).get? key = some row ↔ Write.LastPut writes key row := by
  induction writes using List.reverseRecOn with
  | nil =>
    refine iff_of_false ?_ (Write.not_lastPut_nil key row)
    rw [show (replay {} [] : Contents V κ) = {} from rfl, get?_empty]
    exact nofun
  | append_singleton writes w ih =>
    rw [replay_concat, get?_apply, Write.onRow_eq_some_iff, Write.lastPut_concat, ih]

end Contents

/-! ## Going through the rows -/

section

variable {V κ σ : Type}

/-- A visitor that does something with every row, and is never done. -/
def everyVisit (f : κ → V → σ → σ) : κ → V → σ → ForInStep σ :=
  fun key row s => .yield (f key row s)

/-- A visitor that does something with every row it visits, counts its visits, and is done at the `n`-th. -/
def visitUpTo (n : Nat) (f : κ → V → σ → σ) : κ → V → Nat × σ → ForInStep (Nat × σ) :=
  fun key row (visits, s) =>
    if visits + 1 = n then .done (visits + 1, f key row s) else .yield (visits + 1, f key row s)

namespace Contents

theorem visitAll_everyVisit (f : κ → V → σ → σ) (entries : List (κ × V)) (s : σ) :
    visitAll (everyVisit f) entries s = entries.foldl (fun s entry => f entry.1 entry.2 s) s := by
  induction entries generalizing s with
  | nil => rfl
  | cons entry entries ih => exact ih (f entry.1 entry.2 s)

theorem visitAll_visitUpTo (f : κ → V → σ → σ) (entries : List (κ × V)) {visits n : Nat}
    (h : visits < n) (s : σ) :
    visitAll (visitUpTo n f) entries (visits, s) =
      (min n (visits + entries.length),
        (entries.take (n - visits)).foldl (fun s entry => f entry.1 entry.2 s) s) := by
  induction entries generalizing visits s with
  | nil =>
    rw [List.take_nil, List.length_nil, Nat.add_zero, Nat.min_eq_right (Nat.le_of_lt h)]
    rfl
  | cons entry entries ih =>
    rw [visitAll, visitUpTo]
    by_cases hdone : visits + 1 = n
    · -- the last visit
      have hone : n - visits = 1 := by omega
      rw [if_pos hdone, hone, List.length_cons, Nat.min_eq_left (by omega), hdone]
      rfl
    · have hleft : n - visits = (n - (visits + 1)) + 1 := by omega
      have hvisits : visits + (entries.length + 1) = visits + 1 + entries.length := by omega
      rw [if_neg hdone, hleft, List.length_cons, hvisits, List.take_succ_cons]
      exact ih (by omega) (f entry.1 entry.2 s)

end Contents

end

namespace Contents

section

variable {V κ : Type} [Key κ]

/-! ## Counting the rows -/

theorem nodup_keys_toList (c : Contents V κ) : (c.toList.map (·.1)).Nodup := by
  rw [List.Nodup, List.pairwise_map]
  exact ExtTreeMap.distinct_keys_toList.imp fun h => by simpa using h

theorem length_toList (c : Contents V κ) : c.toList.length = c.size := ExtTreeMap.length_toList

/-- The size is the number of keys that have a row. -/
theorem encard_keys (c : Contents V κ) : {key | c.get? key ≠ none}.encard = c.size := by
  have hkeys : {key | c.get? key ≠ none} = ((c.toList.map (·.1)).toFinset : Set κ) := by
    ext key
    rw [Set.mem_ofPred_eq, Finset.mem_coe, List.mem_toFinset, List.mem_map, Option.ne_none_iff_exists']
    constructor
    · rintro ⟨row, hrow⟩; exact ⟨(key, row), (mem_toList c key row).2 hrow, rfl⟩
    · rintro ⟨⟨_, row⟩, hmem, rfl⟩; exact ⟨row, (mem_toList c _ row).1 hmem⟩
  rw [hkeys, Set.encard_coe_eq_coe_finsetCard, List.toFinset_card_of_nodup c.nodup_keys_toList, List.length_map,
    length_toList]

theorem isEmpty_iff (c : Contents V κ) : c.isEmpty = true ↔ ∀ key, c.get? key = none := by
  unfold isEmpty
  rw [decide_eq_true_iff, ← Nat.cast_inj (R := ℕ∞), ← encard_keys, Nat.cast_zero, Set.encard_eq_zero,
    Set.eq_empty_iff_forall_notMem]
  simp

/-! ## Several keys at once -/

theorem getMany_cons (c : Contents V κ) (key : κ) (keys : List κ) :
    c.getMany (key :: keys) =
      match c.get? key with
      | some row => (c.getMany keys).map (row :: ·)
      | none => .error (.missing (Key.number key)) := by
  rw [getMany, List.mapM_cons, ← getMany]
  cases c.get? key with
  | none => rfl
  | some row => cases c.getMany keys <;> rfl

/-- All the rows are found, or the first key that has none is reported. -/
theorem getMany_cases (c : Contents V κ) (keys : List κ) :
    (∃ rows, keys.map c.get? = rows.map some ∧ c.getMany keys = .ok rows) ∨
      ∃ before key after, keys = before ++ key :: after ∧ (∀ other ∈ before, c.get? other ≠ none) ∧
        c.get? key = none ∧ c.getMany keys = .error (.missing (Key.number key)) := by
  induction keys with
  | nil => exact .inl ⟨[], rfl, rfl⟩
  | cons key keys ih =>
    rw [getMany_cons]
    cases hkey : c.get? key with
    | none => exact .inr ⟨[], key, keys, rfl, by simp, hkey, rfl⟩
    | some row =>
      rcases ih with ⟨rows, hrows, hall⟩ | ⟨before, missing, after, rfl, hbefore, hmissing, herror⟩
      · rw [hall]
        exact .inl ⟨row :: rows, by simp [hkey, hrows], rfl⟩
      · rw [herror]
        refine .inr ⟨key :: before, missing, after, rfl, ?_, hmissing, rfl⟩
        refine List.forall_mem_cons.2 ⟨?_, hbefore⟩
        rw [hkey]; exact Option.some_ne_none row

end

/-- A caller is permitted unless one of the keys has a row that does not grant it. -/
theorem permits_iff {c : Contents V κ} {caller : Caller} {keys : List κ} :
    c.permits caller keys = true ↔ ∀ key ∈ keys, ∀ row, c.get? key = some row → Entity.grants row caller = true := by
  unfold permits
  rw [List.all_eq_true]
  refine forall₂_congr fun key _ => ?_
  cases c.get? key <;> simp

end Contents

end FleetRoster
