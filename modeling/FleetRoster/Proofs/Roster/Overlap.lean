/-
Writes that overlap. A call changes the contents, takes a snapshot and publishes it, and between
these steps any number of other calls may take theirs. Whatever the order of the steps, the
published listing shows the contents of one moment, never of an earlier one than before, and a
call that has published is reflected in it from then on; once no call is on its way, the listing
shows the contents as they are.

The proof is one invariant over the steps: the stamp of a moment is its place in the history of
the contents, and every snapshot on its way is a moment no earlier than the change of its own
call. A dropped snapshot is therefore older than what is published, and nothing is lost with it.
-/
import FleetRoster.Proofs.Roster.Writes

namespace FleetRoster

open Std (TransCmp)

variable {V κ : Type} [Key κ] [Entity V κ]

/-! ## Calls and their steps -/

/-- How far a call has come. -/
inductive Phase (V : Type) where
  /-- The contents are changed. -/
  | changed
  /-- A snapshot is taken, and still to be sorted and published. -/
  | sorting (taken : Snapshot V)
  | finished

/-- A write on its way or finished. -/
structure Call (V κ : Type) [Key κ] where
  write : Write V κ
  /-- The stamp the roster had right after the change. -/
  stamp : Nat
  phase : Phase V

/-- A roster under writes that overlap. -/
structure Traffic (order : ViewOrder V) where
  roster : Roster order
  /-- The contents at the start and right after every change. -/
  history : List (Contents V κ)
  /-- Every call so far, in the order of their changes. -/
  calls : List (Call V κ)

/-- A step of some call. A call begins whenever it likes, so this is what any number of writers can
do between them. -/
inductive Move (V κ : Type) [Key κ] where
  /-- A new call changes the contents. -/
  | change (w : Write V κ)
  | snapshot (call : Nat)
  | publish (call : Nat)

namespace Traffic

variable {order : ViewOrder V}

/-- A roster of some rows that nobody has written yet. -/
def start (order : ViewOrder V) (rows : List V) : Traffic order where
  roster := .ofList rows
  history := [.ofList rows]
  calls := []

/-- The traffic after a step, if the call has come as far as that. -/
def move? (t : Traffic order) : Move V κ → Option (Traffic order)
  | .change w =>
    let changed := t.roster.change w
    some { roster := changed, history := t.history ++ [changed.toContents],
           calls := t.calls ++ [{ write := w, stamp := changed.stamp, phase := .changed }] }
  | .snapshot i =>
    match t.calls[i]? with
    | some { write, stamp, phase := .changed } =>
      some { t with calls := t.calls.set i { write, stamp, phase := .sorting t.roster.snapshot } }
    | _ => none
  | .publish i =>
    match t.calls[i]? with
    | some { write, stamp, phase := .sorting taken } =>
      some { t with roster := t.roster.publish taken
                    calls := t.calls.set i { write, stamp, phase := .finished } }
    | _ => none

/-- The traffic after some steps, if each of them can be taken in its turn. -/
def run? (t : Traffic order) : List (Move V κ) → Option (Traffic order)
  | [] => some t
  | m :: moves => (t.move? m).bind (run? · moves)

/-! ## What a step does -/

theorem move?_snapshot {t t' : Traffic order} {i : Nat} (h : t.move? (.snapshot i) = some t') :
    ∃ call, t.calls[i]? = some call ∧ call.phase = .changed ∧
      t' = { t with calls := t.calls.set i { call with phase := .sorting t.roster.snapshot } } := by
  simp only [move?] at h
  split at h
  · rename_i write stamp hc
    cases h; exact ⟨_, hc, rfl, rfl⟩
  · cases h

theorem move?_publish {t t' : Traffic order} {i : Nat} (h : t.move? (.publish i) = some t') :
    ∃ call taken, t.calls[i]? = some call ∧ call.phase = .sorting taken ∧
      t' = { t with roster := t.roster.publish taken
                    calls := t.calls.set i { call with phase := .finished } } := by
  simp only [move?] at h
  split at h
  · rename_i write stamp taken hc
    cases h; exact ⟨_, taken, hc, rfl, rfl⟩
  · cases h

theorem move?_snapshot_of {t : Traffic order} {i : Nat} {call : Call V κ} (hi : t.calls[i]? = some call)
    (hphase : call.phase = .changed) : t.move? (.snapshot i) =
      some { t with calls := t.calls.set i { call with phase := .sorting t.roster.snapshot } } := by
  obtain ⟨write, stamp, phase⟩ := call
  cases hphase
  simp only [move?, hi]

theorem move?_publish_of {t : Traffic order} {i : Nat} {call : Call V κ} {taken : Snapshot V}
    (hi : t.calls[i]? = some call) (hphase : call.phase = .sorting taken) : t.move? (.publish i) =
      some { t with roster := t.roster.publish taken
                    calls := t.calls.set i { call with phase := .finished } } := by
  obtain ⟨write, stamp, phase⟩ := call
  cases hphase
  simp only [move?, hi]

/-! ## The invariant -/

/-- What is known of the `i`-th call. -/
structure CallSound (t : Traffic order) (i : Nat) (call : Call V κ) : Prop where
  stamp : call.stamp = i + 1
  applied : ∃ c, t.history[i]? = some c ∧ t.history[i + 1]? = some (c.apply call.write)
  taken : ∀ s, call.phase = .sorting s →
    call.stamp ≤ s.stamp ∧ ∃ c, t.history[s.stamp]? = some c ∧ s.rows = c.rows.values
  finished : call.phase = .finished → call.stamp ≤ t.roster.listing.stamp

/-- The stamps of the roster, of its listing and of every snapshot are moments of the history. -/
structure Sound (t : Traffic order) : Prop where
  stamp : t.roster.stamp = t.calls.length
  length : t.history.length = t.calls.length + 1
  now : t.history[t.roster.stamp]? = some t.roster.toContents
  keyed : ∀ c ∈ t.history, c.Keyed
  shown : ∃ c, t.history[t.roster.listing.stamp]? = some c ∧ t.roster.listing.Shows order c.rows.values
  calls : ∀ i call, t.calls[i]? = some call → t.CallSound i call

/-- A moment of the history stays where it is. -/
theorem history_of_prefix {t t' : Traffic order} (h : t.history <+: t'.history) {j : Nat}
    {c : Contents V κ} (hj : t.history[j]? = some c) : t'.history[j]? = some c := by
  obtain ⟨more, hmore⟩ := h
  rw [← hmore, List.getElem?_append_left (List.getElem?_eq_some_iff.1 hj).1]
  exact hj

/-- What is known of a call stays true while the history grows and newer listings are published. -/
theorem CallSound.mono {t t' : Traffic order} {i : Nat} {call : Call V κ} (h : t.CallSound i call)
    (hh : t.history <+: t'.history) (hl : t.roster.listing.stamp ≤ t'.roster.listing.stamp) :
    t'.CallSound i call := by
  obtain ⟨c, h1, h2⟩ := h.applied
  refine ⟨h.stamp, ⟨c, history_of_prefix hh h1, history_of_prefix hh h2⟩, ?_,
    fun hf => le_trans (h.finished hf) hl⟩
  intro s hs
  obtain ⟨hle, d, hd, hrows⟩ := h.taken s hs
  exact ⟨hle, d, history_of_prefix hh hd, hrows⟩

theorem sound_start [TransCmp order.compare] (rows : List V) : (start order rows).Sound where
  stamp := rfl
  length := rfl
  now := rfl
  keyed c hc := by
    rw [List.mem_singleton.1 hc]; exact Contents.keyed_ofList rows
  shown := ⟨_, rfl, Listing.shows_ofRows 0 (Contents.keyed_ofList rows).distinct_values⟩
  calls i call h := by cases h

theorem Sound.change {t t' : Traffic order} (h : t.Sound) (w : Write V κ)
    (hm : t.move? (.change w) = some t') : t'.Sound := by
  cases hm
  have hnow : (t.history ++ [(t.roster.change w).toContents])[t.roster.stamp + 1]? =
      some (t.roster.change w).toContents := by
    rw [h.stamp, ← h.length, List.getElem?_concat_length]
  have hold : ∀ {j : Nat} {c}, t.history[j]? = some c →
      (t.history ++ [(t.roster.change w).toContents])[j]? = some c := by
    intro j c hj
    rw [List.getElem?_append_left (List.getElem?_eq_some_iff.1 hj).1]; exact hj
  have hk : t.roster.toContents.Keyed := h.keyed _ (List.mem_of_getElem? h.now)
  refine ⟨?_, ?_, hnow, ?_, ?_, ?_⟩
  · show t.roster.stamp + 1 = _
    rw [h.stamp]; simp
  · show (t.history ++ [_]).length = (t.calls ++ [_]).length + 1
    simp [h.length]
  · intro c hc
    rcases List.mem_append.1 hc with hc | hc
    · exact h.keyed c hc
    · rw [List.mem_singleton.1 hc]; exact hk.apply w
  · obtain ⟨c, hc, hs⟩ := h.shown
    exact ⟨c, hold hc, hs⟩
  · intro i call hi
    by_cases hlt : i < t.calls.length
    · rw [List.getElem?_append_left hlt] at hi
      exact (h.calls i call hi).mono (List.prefix_append _ _) le_rfl
    · -- the new call itself
      have hlen : i = t.calls.length := by
        have := (List.getElem?_eq_some_iff.1 hi).1
        simp only [List.length_append, List.length_singleton] at this
        omega
      subst hlen
      rw [List.getElem?_concat_length] at hi
      cases hi
      refine ⟨by show t.roster.stamp + 1 = _; rw [h.stamp], ?_, fun s hs => (by cases hs), fun hf => (by cases hf)⟩
      rw [← h.stamp]
      exact ⟨t.roster.toContents, hold h.now, hnow⟩

/-- Everything but the calls is as before, and so is every call but the `i`-th, whose step `call'`
is sound. -/
theorem Sound.set_call {t : Traffic order} (h : t.Sound) {i : Nat} {call call' : Call V κ}
    (hi : t.calls[i]? = some call) (r : Roster order) (hc : r.toContents = t.roster.toContents)
    (hs : r.stamp = t.roster.stamp) (hl : t.roster.listing.stamp ≤ r.listing.stamp)
    (hshown : ∃ c, t.history[r.listing.stamp]? = some c ∧ r.listing.Shows order c.rows.values)
    (hcall : CallSound { t with roster := r, calls := t.calls.set i call' } i call') :
    Sound { t with roster := r, calls := t.calls.set i call' } := by
  refine ⟨by simpa [hs] using h.stamp, by simpa using h.length, ?_, h.keyed, hshown, ?_⟩
  · show t.history[r.stamp]? = some r.toContents
    rw [hs, hc]; exact h.now
  · intro j other hj
    by_cases hij : i = j
    · subst hij
      have hlt := (List.getElem?_eq_some_iff.1 hi).1
      rw [List.getElem?_set_self hlt] at hj
      cases hj; exact hcall
    · rw [List.getElem?_set_ne hij] at hj
      exact (h.calls j other hj).mono (List.prefix_refl _) hl

theorem Sound.snapshot {t t' : Traffic order} (h : t.Sound) {i : Nat}
    (hm : t.move? (.snapshot i) = some t') : t'.Sound := by
  obtain ⟨call, hi, -, rfl⟩ := move?_snapshot hm
  have hcall := h.calls i call hi
  apply h.set_call hi t.roster rfl rfl le_rfl h.shown
  refine ⟨hcall.stamp, hcall.applied, ?_, fun hf => (by cases hf)⟩
  intro s hs
  cases hs
  refine ⟨?_, t.roster.toContents, h.now, rfl⟩
  have hlt := (List.getElem?_eq_some_iff.1 hi).1
  show call.stamp ≤ t.roster.stamp
  rw [hcall.stamp, h.stamp]; omega

theorem Sound.publish [TransCmp order.compare] {t t' : Traffic order} (h : t.Sound) {i : Nat}
    (hm : t.move? (.publish i) = some t') : t'.Sound := by
  obtain ⟨call, taken, hi, hphase, rfl⟩ := move?_publish hm
  have hcall := h.calls i call hi
  obtain ⟨hle, c, hc, hrows⟩ := hcall.taken taken hphase
  obtain ⟨hcontents, hstamp, hlisting⟩ := t.roster.publish_cases taken
  rcases hlisting with ⟨hold, hl⟩ | ⟨hnew, hl⟩
  · -- dropped: what is published is as recent as the snapshot, which is as recent as the change
    apply h.set_call hi _ hcontents hstamp (by rw [hl]) (by rw [hl]; exact h.shown)
    refine ⟨hcall.stamp, hcall.applied, fun s hs => (by cases hs), fun _ => ?_⟩
    show call.stamp ≤ (t.roster.publish taken).listing.stamp
    rw [hl]; omega
  · have hk : c.Keyed := h.keyed c (List.mem_of_getElem? hc)
    have hst : (t.roster.publish taken).listing.stamp = taken.stamp := by rw [hl]; rfl
    apply h.set_call hi _ hcontents hstamp (by omega)
    · refine ⟨c, by rw [hst]; exact hc, ?_⟩
      rw [hl, hrows]
      exact Listing.shows_ofRows _ hk.distinct_values
    · refine ⟨hcall.stamp, hcall.applied, fun s hs => (by cases hs), fun _ => ?_⟩
      show call.stamp ≤ (t.roster.publish taken).listing.stamp
      omega

theorem Sound.move [TransCmp order.compare] {t t' : Traffic order} (h : t.Sound) {m : Move V κ}
    (hm : t.move? m = some t') : t'.Sound := by
  cases m with
  | change w => exact h.change w hm
  | snapshot i => exact h.snapshot hm
  | publish i => exact h.publish hm

theorem Sound.run [TransCmp order.compare] {t t' : Traffic order} (h : t.Sound) {moves : List (Move V κ)}
    (hr : t.run? moves = some t') : t'.Sound := by
  induction moves generalizing t with
  | nil => cases hr; exact h
  | cons m moves ih =>
    obtain ⟨u, hu, hr⟩ := Option.bind_eq_some_iff.1 hr
    exact ih (h.move hu) hr

/-! ## Nothing goes back -/

theorem move?_history {t t' : Traffic order} {m : Move V κ} (hm : t.move? m = some t') :
    t.history <+: t'.history := by
  cases m with
  | change w => cases hm; exact List.prefix_append _ _
  | snapshot i =>
    obtain ⟨call, -, -, rfl⟩ := move?_snapshot hm
    exact List.prefix_refl _
  | publish i =>
    obtain ⟨call, taken, -, -, rfl⟩ := move?_publish hm
    exact List.prefix_refl _

theorem run?_history {t t' : Traffic order} {moves : List (Move V κ)} (hr : t.run? moves = some t') :
    t.history <+: t'.history := by
  induction moves generalizing t with
  | nil => cases hr; exact List.prefix_refl _
  | cons m moves ih =>
    obtain ⟨u, hu, hr⟩ := Option.bind_eq_some_iff.1 hr
    exact (move?_history hu).trans (ih hr)

theorem move?_stamp_le {t t' : Traffic order} {m : Move V κ} (hm : t.move? m = some t') :
    t.roster.listing.stamp ≤ t'.roster.listing.stamp := by
  cases m with
  | change w => cases hm; exact le_rfl
  | snapshot i =>
    obtain ⟨call, -, -, rfl⟩ := move?_snapshot hm
    exact le_rfl
  | publish i =>
    obtain ⟨call, taken, -, -, rfl⟩ := move?_publish hm
    rcases (t.roster.publish_cases taken).2.2 with ⟨-, hl⟩ | ⟨hlt, hl⟩
    · exact le_of_eq (by rw [hl])
    · show _ ≤ (t.roster.publish taken).listing.stamp
      rw [hl]; exact le_of_lt hlt

theorem run?_stamp_le {t t' : Traffic order} {moves : List (Move V κ)} (hr : t.run? moves = some t') :
    t.roster.listing.stamp ≤ t'.roster.listing.stamp := by
  induction moves generalizing t with
  | nil => cases hr; exact le_rfl
  | cons m moves ih =>
    obtain ⟨u, hu, hr⟩ := Option.bind_eq_some_iff.1 hr
    exact le_trans (move?_stamp_le hu) (ih hr)

/-- With no call on its way, the listing is as recent as the contents. -/
theorem Sound.stamp_eq_of_finished {t : Traffic order} (h : t.Sound)
    (hf : ∀ call ∈ t.calls, call.phase = .finished) : t.roster.listing.stamp = t.roster.stamp := by
  have hle : t.roster.listing.stamp ≤ t.roster.stamp := by
    obtain ⟨c, hc, -⟩ := h.shown
    have := (List.getElem?_eq_some_iff.1 hc).1
    rw [h.length] at this
    rw [h.stamp]; omega
  -- the last call has published, and its change is the last one
  rcases Nat.eq_zero_or_pos t.calls.length with h0 | hpos
  · rw [h.stamp, h0] at hle ⊢; omega
  · have hlast := List.getElem?_eq_getElem (l := t.calls) (i := t.calls.length - 1) (by omega)
    have hcall := h.calls _ _ hlast
    have := hcall.finished (hf _ (List.mem_of_getElem? hlast))
    rw [hcall.stamp] at this
    rw [h.stamp] at hle ⊢; omega

/-! ## Every interleaving -/

/-- From a moment `s` of any interleaving of calls to a later moment `t`: stamps are places in the
history of the contents, and each call is a write of its own in it; the listing shows the
contents as they were at its stamp; the stamp of the listing does not fall; a call finished by `s`
is no longer missed at `t`; and with no call on its way the listing shows the contents as they
are. -/
theorem overlap_converges [TransCmp order.compare] (rows : List V) (before after : List (Move V κ))
    (s t : Traffic order) (hs : (start order rows).run? before = some s) (ht : s.run? after = some t) :
    (t.roster.stamp = t.calls.length ∧ t.history[s.roster.stamp]? = some s.roster.toContents ∧
      ∀ i call, t.calls[i]? = some call → call.stamp = i + 1 ∧
        ∃ c, t.history[i]? = some c ∧ t.history[call.stamp]? = some (c.apply call.write)) ∧
    (∃ c, t.history[t.roster.listing.stamp]? = some c ∧
      t.roster.listing.Shows order c.rows.values) ∧
    s.roster.listing.stamp ≤ t.roster.listing.stamp ∧
    (∀ call ∈ s.calls, call.phase = .finished → call.stamp ≤ t.roster.listing.stamp) ∧
    ((∀ call ∈ t.calls, call.phase = .finished) →
      t.roster.listing.Shows order t.roster.rows.values) := by
  have hsound : s.Sound := (sound_start rows).run hs
  have tsound : t.Sound := hsound.run ht
  have hle := run?_stamp_le ht
  refine ⟨⟨tsound.stamp, history_of_prefix (run?_history ht) hsound.now, ?_⟩, tsound.shown, hle, ?_, ?_⟩
  · intro i call hi
    have hcall := tsound.calls i call hi
    refine ⟨hcall.stamp, ?_⟩
    rw [hcall.stamp]; exact hcall.applied
  · intro call hmem hf
    obtain ⟨i, hi⟩ := List.getElem?_of_mem hmem
    exact le_trans ((hsound.calls i call hi).finished hf) hle
  · intro hf
    obtain ⟨c, hc, hshows⟩ := tsound.shown
    rw [tsound.stamp_eq_of_finished hf, tsound.now] at hc
    cases hc; exact hshows

/-- Two writers, the later of which publishes first: the other's listing is dropped. -/
theorem overlap_converges_when_overtaken :
    ∃ s t : Traffic Server.order,
      (start Server.order [{ id := 1, rank := 5 }, { id := 2, rank := 5 }]).run?
        [.change (.put { id := 1, rank := -5 }), .snapshot 0, .change (.drop [2, 7]), .snapshot 1,
          .publish 1] = some s ∧
      s.run? [.publish 0] = some t ∧ s.roster.listing.stamp ≤ t.roster.listing.stamp ∧
      t.roster.listing.Shows Server.order t.roster.rows.values := by
  obtain ⟨s, hs, t, ht, hf⟩ : ∃ s : Traffic Server.order,
      (start Server.order [{ id := 1, rank := 5 }, { id := 2, rank := 5 }]).run?
        [.change (.put { id := 1, rank := -5 }), .snapshot 0, .change (.drop [2, 7]), .snapshot 1,
          .publish 1] = some s ∧
      ∃ t, s.run? [.publish 0] = some t ∧ ∀ call ∈ t.calls, call.phase = .finished :=
    ⟨_, rfl, _, rfl, List.forall_mem_cons.2 ⟨rfl, List.forall_mem_cons.2 ⟨rfl, by simp⟩⟩⟩
  obtain ⟨-, -, hle, -, hnow⟩ := overlap_converges _ _ _ s t hs ht
  exact ⟨s, t, hs, ht, hle, hnow hf⟩

end Traffic

end FleetRoster
