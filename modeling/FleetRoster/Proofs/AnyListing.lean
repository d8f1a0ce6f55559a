/-
Snapshots that have the rows in any order. A roster keeps its rows in no order of its own, and whoever copies
them may come across them in another one each time. The copy is sorted before it is published, and no two of
its rows tie, so the order is lost: calls that overlap, scripts, and requests to a collection all leave what
they leave if every snapshot has its rows by ascending key, and what is known of the one is known of the other.
-/
import FleetRoster.Proofs.Roster.Stepwise
import FleetRoster.Proofs.Store.InStep

namespace FleetRoster

open Std (TransCmp)

/-! ## Steps that may lead to several states -/

section

variable {S A : Type} {leads : S → A → S → Prop} {step : S → A → S}

/-- Some actions, taken one after the other, may lead from one state to another. -/
inductive InTurn (leads : S → A → S → Prop) : S → List A → S → Prop
  | nil (s : S) : InTurn leads s [] s
  | cons {s t u : S} {action : A} {actions : List A} (h : leads s action t) (hrest : InTurn leads t actions u) :
    InTurn leads s (action :: actions) u

theorem inTurn_foldl (h : ∀ s action, leads s action (step s action)) (s : S) (actions : List A) :
    InTurn leads s actions (actions.foldl step s) := by
  induction actions generalizing s with
  | nil => exact .nil s
  | cons action actions ih => exact .cons (h s action) (ih (step s action))

/-- If each action leads to one state while an invariant holds, so do all of them together. -/
theorem InTurn.eq_foldl {P : S → Prop} (hkeep : ∀ s action, P s → P (step s action))
    (hstep : ∀ {s action t}, P s → leads s action t → t = step s action) {s t : S} {actions : List A} (hs : P s)
    (h : InTurn leads s actions t) : t = actions.foldl step s := by
  induction h with
  | nil s => rfl
  | cons hleads _ ih =>
    obtain rfl := hstep hs hleads
    exact ih (hkeep _ _ hs)

end

variable {V κ : Type} [Key κ] [Entity V κ] {order : ViewOrder V}

/-! ## Writes one after the other -/

namespace Roster

theorem inTurn_leads_iff [TransCmp order.compare] {r r' : Roster order} (hr : r.toContents.Keyed)
    {writes : List (Write V κ)} : InTurn Leads r writes r' ↔ r' = r.run writes := by
  constructor
  · exact InTurn.eq_foldl (P := fun r => r.toContents.Keyed) (fun _ w hk => keyed_write hk w)
      (fun hk h => h.eq_write hk) hr
  · rintro rfl
    exact inTurn_foldl leads_write r writes

end Roster

/-! ## Calls that overlap -/

namespace Traffic

/-- A step of some call may lead from `t` to `t'`: a snapshot has the rows of its moment, in any order
whatsoever. -/
inductive Leads (t : Traffic order) : Move V κ → Traffic order → Prop
  | change {w : Write V κ} {t' : Traffic order} (h : t.move? (.change w) = some t') : Leads t (.change w) t'
  | snapshot {i : Nat} {call : Call V κ} {listed : List V} (hi : t.calls[i]? = some call)
    (hphase : call.phase = .changed) (h : listed.Perm t.roster.rows.values) :
    Leads t (.snapshot i) { t with calls := t.calls.set i { call with phase := .sorting ⟨t.roster.stamp, listed⟩ } }
  | publish {i : Nat} {t' : Traffic order} (h : t.move? (.publish i) = some t') : Leads t (.publish i) t'

theorem leads_of_move? {t t' : Traffic order} {m : Move V κ} (h : t.move? m = some t') : t.Leads m t' := by
  cases m with
  | change w => exact .change h
  | snapshot i =>
    obtain ⟨call, hi, hphase, rfl⟩ := move?_snapshot h
    exact .snapshot hi hphase (List.Perm.refl _)
  | publish i => exact .publish h

/-- Listing the rows by ascending key is one of the ways. -/
theorem inTurn_of_run? {t t' : Traffic order} {moves : List (Move V κ)} (h : t.run? moves = some t') :
    InTurn Leads t moves t' := by
  induction moves generalizing t with
  | nil => cases h; exact .nil _
  | cons m moves ih =>
    obtain ⟨u, hu, hrest⟩ := Option.bind_eq_some_iff.1 h
    exact .cons (leads_of_move? hu) (ih hrest)

end Traffic

/-! ## The same calls with each snapshot by ascending key -/

/-- The phases are the same, but for the order of the rows of a snapshot. -/
inductive Phase.Alike : Phase V → Phase V → Prop
  | changed : Alike .changed .changed
  | sorting {stamp : Nat} {listed rows : List V} (h : listed.Perm rows) :
    Alike (.sorting ⟨stamp, listed⟩) (.sorting ⟨stamp, rows⟩)
  | finished : Alike .finished .finished

theorem Phase.Alike.eq_changed {phase : Phase V} (h : Phase.changed.Alike phase) : phase = .changed := by
  cases h; rfl

theorem Phase.Alike.eq_sorting {taken : Snapshot V} {phase : Phase V} (h : (Phase.sorting taken).Alike phase) :
    ∃ rows, taken.rows.Perm rows ∧ phase = .sorting ⟨taken.stamp, rows⟩ := by
  cases h with
  | sorting h => exact ⟨_, h, rfl⟩

structure Call.Alike (call other : Call V κ) : Prop where
  write : call.write = other.write
  stamp : call.stamp = other.stamp
  phase : call.phase.Alike other.phase

namespace Traffic

/-- The traffics are the same, but for the order of the rows of snapshots on their way. -/
structure Alike (t u : Traffic order) : Prop where
  roster : t.roster = u.roster
  history : t.history = u.history
  calls : List.Forall₂ Call.Alike t.calls u.calls

theorem Alike.call? {t u : Traffic order} (h : t.Alike u) {i : Nat} {call : Call V κ} (hi : t.calls[i]? = some call) :
    ∃ other, u.calls[i]? = some other ∧ call.Alike other := by
  obtain ⟨hlt, rfl⟩ := List.getElem?_eq_some_iff.1 hi
  have hlt' : i < u.calls.length := h.calls.length_eq ▸ hlt
  exact ⟨u.calls[i], List.getElem?_eq_getElem hlt', h.calls.get hlt hlt'⟩

omit [Entity V κ] in
theorem forall₂_set {calls others : List (Call V κ)} (h : List.Forall₂ Call.Alike calls others) (i : Nat)
    {call other : Call V κ} (hcall : call.Alike other) :
    List.Forall₂ Call.Alike (calls.set i call) (others.set i other) := by
  induction h generalizing i with
  | nil => exact .nil
  | cons hfirst hrest ih =>
    cases i with
    | zero => exact .cons hcall hrest
    | succ i => exact .cons hfirst (ih i)

theorem Alike.change {t u : Traffic order} (h : t.Alike u) {w : Write V κ} {t' : Traffic order}
    (hm : t.move? (.change w) = some t') : ∃ u', u.move? (.change w) = some u' ∧ t'.Alike u' := by
  cases hm
  refine ⟨_, rfl, by rw [h.roster], by rw [h.roster, h.history], ?_⟩
  exact List.rel_append h.calls (.cons ⟨rfl, by rw [h.roster], .changed⟩ .nil)

theorem Alike.snapshot {t u : Traffic order} (h : t.Alike u) {i : Nat} {call : Call V κ} {listed : List V}
    (hi : t.calls[i]? = some call) (hphase : call.phase = .changed) (hlisted : listed.Perm t.roster.rows.values) :
    ∃ u', u.move? (.snapshot i) = some u' ∧
      Alike { t with calls := t.calls.set i { call with phase := .sorting ⟨t.roster.stamp, listed⟩ } } u' := by
  obtain ⟨other, hi', hwrite, hstamp, halike⟩ := h.call? hi
  rw [hphase] at halike
  refine ⟨_, move?_snapshot_of hi' halike.eq_changed, h.roster, h.history, forall₂_set h.calls i ⟨hwrite, hstamp, ?_⟩⟩
  rw [h.roster] at hlisted ⊢
  exact .sorting hlisted

/-- What is published is the same, because snapshots have the rows of contents that once were. -/
theorem Alike.publish [TransCmp order.compare] {t u : Traffic order} (h : t.Alike u) (hu : u.Sound) {i : Nat}
    {t' : Traffic order} (hm : t.move? (.publish i) = some t') :
    ∃ u', u.move? (.publish i) = some u' ∧ t'.Alike u' := by
  obtain ⟨call, taken, hi, hphase, rfl⟩ := move?_publish hm
  obtain ⟨other, hi', hwrite, hstamp, halike⟩ := h.call? hi
  rw [hphase] at halike
  obtain ⟨rows, hlisted, hphase'⟩ := halike.eq_sorting
  obtain ⟨-, c, hc, rfl⟩ := (hu.calls i other hi').taken _ hphase'
  have hk : c.Keyed := hu.keyed c (List.mem_of_getElem? hc)
  refine ⟨_, move?_publish_of hi' hphase', ?_, h.history, forall₂_set h.calls i ⟨hwrite, hstamp, .finished⟩⟩
  show t.roster.publish taken = u.roster.publish ⟨taken.stamp, c.rows.values⟩
  rw [h.roster]
  exact u.roster.publish_of_perm hk taken.stamp hlisted

theorem Leads.alike [TransCmp order.compare] {t t' u : Traffic order} {m : Move V κ} (hm : t.Leads m t')
    (hu : u.Sound) (h : t.Alike u) : ∃ u', u.move? m = some u' ∧ t'.Alike u' := by
  cases hm with
  | change hm => exact h.change hm
  | snapshot hi hphase hlisted => exact h.snapshot hi hphase hlisted
  | publish hm => exact h.publish hu hm

theorem alike_of_inTurn [TransCmp order.compare] {t t' u : Traffic order} {moves : List (Move V κ)}
    (hmoves : InTurn Leads t moves t') (hu : u.Sound) (h : t.Alike u) :
    ∃ u', u.run? moves = some u' ∧ t'.Alike u' := by
  induction hmoves generalizing u with
  | nil t => exact ⟨u, rfl, h⟩
  | cons hm _ ih =>
    obtain ⟨v, hv, hnext⟩ := hm.alike hu h
    obtain ⟨u', hu', halike⟩ := ih (hu.move hv) hnext
    exact ⟨u', Option.bind_eq_some_iff.2 ⟨v, hv, hu'⟩, halike⟩

/-- Build a roster from rows in any order, and let calls overlap on it whose snapshots have the rows in any
order. The same steps can be taken with all of them by ascending key, and leave the same roster, after the
same history, with each call as far. -/
theorem run?_of_inTurn [TransCmp order.compare] {rows : List V} {r : Roster order} (hr : r.Attained rows [])
    {moves : List (Move V κ)} {t : Traffic order} (h : InTurn Leads (ofRoster r) moves t) :
    ∃ u, (start order rows).run? moves = some u ∧ t.Alike u := by
  obtain rfl := hr.eq_run
  exact alike_of_inTurn h (sound_start rows) ⟨rfl, rfl, .nil⟩

/-- So what is known of rosters that calls have left is known of these. -/
theorem reached_of_inTurn [TransCmp order.compare] {rows : List V} {r : Roster order} (hr : r.Attained rows [])
    {moves : List (Move V κ)} {t : Traffic order} (h : InTurn Leads (ofRoster r) moves t) : t.roster.Reached := by
  obtain ⟨u, hu, halike⟩ := run?_of_inTurn hr h
  exact ⟨rows, moves, u, hu, halike.roster.symm⟩

end Traffic

/-! ## Steps within steps -/

namespace Script

/-- Playing a script may give these answers and leave this roster: the snapshot of each write has the rows of
its moment, in any order whatsoever. With no rows to sort, nothing is done meanwhile. -/
inductive Plays : Script V κ → Roster order → List (Answer V κ) → Roster order → Prop
  | done (r : Roster order) : Plays .done r [] r
  | ask {question : Question V κ} {rest : Script V κ} {r r' : Roster order} {answers : List (Answer V κ)}
    (hrest : Plays rest r answers r') : Plays (.ask question rest) r (r.answer question :: answers) r'
  | write {w : Write V κ} {meanwhile rest : Script V κ} {r later r' : Roster order}
    {inner answers : List (Answer V κ)} {listed : List V} (h : listed.Perm (r.change w).rows.values)
    (hinner : Plays (if listed.isEmpty then .done else meanwhile) (r.change w) inner later)
    (hrest : Plays rest (later.publish ⟨(r.change w).stamp, listed⟩) answers r') :
    Plays (.write w meanwhile rest) r (inner ++ answers) r'

theorem plays_play (script : Script V κ) (r : Roster order) : script.Plays r (script.play r).1 (script.play r).2 := by
  induction script generalizing r with
  | done => exact .done r
  | ask question rest ih => exact .ask (ih r)
  | write w meanwhile rest ihm ihr =>
    have hinner : ∀ inner : Script V κ, inner = .done ∨ inner = meanwhile →
        inner.Plays (r.change w) (inner.play (r.change w)).1 (inner.play (r.change w)).2 := by
      rintro inner (rfl | rfl)
      · exact .done _
      · exact ihm _
    rw [play_write]
    exact .write (List.Perm.refl _) (hinner _ (ite_eq_or_eq _ _ _)) (ihr _)

/-- Nor do the answers depend on the order: they are given by the contents and by listings that were published. -/
theorem Plays.eq_play [TransCmp order.compare] {script : Script V κ} {r r' : Roster order}
    {answers : List (Answer V κ)} (h : script.Plays r answers r') (hr : r.toContents.Keyed) :
    script.play r = (answers, r') ∧ r'.toContents.Keyed := by
  induction h with
  | done r => exact ⟨rfl, hr⟩
  | ask _ ih =>
    obtain ⟨hplay, hkeyed⟩ := ih hr
    refine ⟨?_, hkeyed⟩
    rw [play, hplay]
  | @write w meanwhile rest r later r' inner answers listed hlisted _ _ ihinner ihrest =>
    have hchange : (r.change w).toContents.Keyed := hr.apply w
    obtain ⟨hinner, hlater⟩ := ihinner hchange
    have hpublished : (later.publish ⟨(r.change w).stamp, listed⟩).toContents.Keyed := by
      rw [(later.publish_cases _).1]; exact hlater
    obtain ⟨hrest, hkeyed⟩ := ihrest hpublished
    refine ⟨?_, hkeyed⟩
    -- the order is told neither by whether there is anything to sort nor by what is published of it
    rw [hlisted.isEmpty_eq] at hinner
    rw [later.publish_of_perm hchange _ hlisted] at hrest
    rw [play_write]
    unfold Roster.snapshot
    rw [hinner]
    dsimp only
    rw [hrest]

/-- So there is one way in which a script can be played. -/
theorem plays_iff [TransCmp order.compare] {script : Script V κ} {r r' : Roster order} {answers : List (Answer V κ)}
    (hr : r.toContents.Keyed) : script.Plays r answers r' ↔ script.play r = (answers, r') := by
  constructor
  · intro h
    exact (h.eq_play hr).1
  · intro h
    have hplays := script.plays_play r
    rw [h] at hplays
    exact hplays

end Script

/-! ## Writing through -/

namespace WriteThrough

/-- What may come of a call once the collection has decided on its write: the snapshot of the roster has the
rows of its moment, in any order whatsoever. -/
inductive Follows {σ : Type} (w : WriteThrough σ order) (write : Write V κ) :
    Except Fault Unit × σ → Except Fault Unit × WriteThrough σ order → Prop
  | made {store : σ} {roster : Roster order} (h : w.roster.Leads write roster) :
    Follows w write (.ok (), store) (.ok (), ⟨store, roster⟩)
  | kept {fault : Fault} {store : σ} : Follows w write (.error fault, store) (.error fault, ⟨store, w.roster⟩)

theorem follows_follow {σ : Type} (w : WriteThrough σ order) (write : Write V κ) (decided : Except Fault Unit × σ) :
    w.Follows write decided (w.follow write decided) := by
  obtain ⟨_ | ⟨⟩, store⟩ := decided
  · exact .kept
  · exact .made (w.roster.leads_write write)

theorem Follows.eq_follow [TransCmp order.compare] {σ : Type} {w : WriteThrough σ order} {write : Write V κ}
    {decided : Except Fault Unit × σ} {outcome : Except Fault Unit × WriteThrough σ order}
    (h : w.Follows write decided outcome) (hw : w.roster.toContents.Keyed) : outcome = w.follow write decided := by
  cases h with
  | made h =>
    rw [h.eq_write hw]; rfl
  | kept => rfl

/-- What a request may leave of the collection and its roster. -/
inductive Leads (w : WriteThrough (MemoryStore V κ) order) :
    Request V κ → WriteThrough (MemoryStore V κ) order → Prop
  | save {row : V} {outcome : Except Fault Unit × WriteThrough (MemoryStore V κ) order}
    (h : w.Follows (.put row) (w.store.save row) outcome) : Leads w (.save row) outcome.2
  | delete {caller : Caller} {keys : List κ} {outcome : Except Fault Unit × WriteThrough (MemoryStore V κ) order}
    (hpermits : w.roster.permits caller keys = true) (h : w.Follows (.drop keys) (w.store.delete keys) outcome) :
    Leads w (.delete caller keys) outcome.2
  | denied {caller : Caller} {keys : List κ} (hpermits : w.roster.permits caller keys = false) :
    Leads w (.delete caller keys) w
  | setReadOnly {readOnly : Bool} : Leads w (.setReadOnly readOnly) { w with store := { w.store with readOnly } }

theorem leads_handle (w : WriteThrough (MemoryStore V κ) order) (request : Request V κ) :
    w.Leads request (w.handle request) := by
  cases request with
  | save row =>
    show w.Leads _ (w.save row).2
    rw [save_eq_follow]
    exact .save (w.follows_follow _ _)
  | delete caller keys =>
    show w.Leads _ (w.delete caller keys).2
    cases hpermits : w.roster.permits caller keys with
    | false =>
      rw [delete_eq_denied hpermits]
      exact .denied hpermits
    | true =>
      rw [delete_eq_follow hpermits]
      exact .delete hpermits (w.follows_follow _ _)
  | setReadOnly readOnly => exact .setReadOnly

theorem Leads.eq_handle [TransCmp order.compare] {w w' : WriteThrough (MemoryStore V κ) order} {request : Request V κ}
    (h : w.Leads request w') (hw : w.roster.toContents.Keyed) : w' = w.handle request := by
  cases h with
  | save h =>
    rw [h.eq_follow hw]
    exact congrArg (·.2) (w.save_eq_follow _).symm
  | delete hpermits h =>
    rw [h.eq_follow hw]
    exact congrArg (·.2) (delete_eq_follow hpermits).symm
  | denied hpermits => exact congrArg (·.2) (delete_eq_denied hpermits).symm
  | setReadOnly => rfl

/-- Requests to a collection and its roster that are in step leave the same two. -/
theorem InStep.inTurn_leads_iff [TransCmp order.compare] {w w' : WriteThrough (MemoryStore V κ) order} (hw : w.InStep)
    {requests : List (Request V κ)} : InTurn Leads w requests w' ↔ w' = w.run requests := by
  constructor
  · exact InTurn.eq_foldl (fun _ request h => h.handle request) (fun h hleads => hleads.eq_handle h.keyed) hw
  · rintro rfl
    exact inTurn_foldl leads_handle w requests

end WriteThrough

end FleetRoster
