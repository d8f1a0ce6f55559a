/-
Writes within writes. While a write sorts its snapshot, others may read and write the same roster to
their end, and within these writes others again, to any depth. A write that has had others inside it
resumes with a snapshot that is out of date; it drops its listing then, and publishes it if there
were none. So the roster ends up just as if every step had waited for the one before it, in the
order in which they started, and everything that was read of the contents is what is read then.
-/
import FleetRoster.Proofs.Roster.Overlap
import FleetRoster.Record.Server

namespace FleetRoster

variable {V κ : Type} [Key κ] [Entity V κ] {order : ViewOrder V}

/-! ## Questions -/

/-- What can be asked of a roster. -/
inductive Question (V κ : Type) where
  | row (key : κ)
  | rows
  | rowsOf (keys : List κ)
  /-- Visit keys and rows until those visited so far are enough. -/
  | visit (enough : List (κ × V) → Bool)
  | size
  | permits (caller : Caller) (keys : List κ)
  | holder (id : String)
  | identified (id : String)
  | ensureFree (id : String) (key : κ)
  /-- The listing and its public part, as published. -/
  | listing

inductive Answer (V κ : Type) where
  | row (row? : Option V)
  | rows (rows : List (κ × V))
  | rowsOf (result : Except Fault (List V))
  | visited (rows : List (κ × V))
  | size (n : Nat)
  | permits (granted : Bool)
  | holder (key? : Option κ)
  | ensureFree (result : Except Fault Unit)
  | listing (sorted visible : List V)

/-- The answers are the same, or both show a listing. -/
def Answer.Agrees (a b : Answer V κ) : Prop :=
  match a, b with
  | .listing _ _, .listing _ _ => True
  | _, _ => a = b

namespace Roster

def answer (r : Roster order) : Question V κ → Answer V κ
  | .row key => .row (r.get? key)
  | .rows => .rows r.toList
  | .rowsOf keys => .rowsOf (r.getMany keys)
  | .visit enough =>
    .visited (r.visit (fun key row seen =>
      let seen := seen ++ [(key, row)]
      if enough seen then .done seen else .yield seen) [])
  | .size => .size r.size
  | .permits caller keys => .permits (r.permits caller keys)
  | .holder id => .holder (r.holder? id)
  | .identified id => .row (r.identified? id)
  | .ensureFree id key => .ensureFree (r.ensureFree id key)
  | .listing => .listing r.sorted r.visible

/-- Everything but the listing is read off the contents. -/
theorem answer_agrees {r s : Roster order} (h : r.toContents = s.toContents) (question : Question V κ) :
    (r.answer question).Agrees (s.answer question) := by
  cases question with
  | listing => trivial
  | _ =>
    unfold answer
    rw [h]
    rfl

end Roster

/-! ## Steps one after the other -/

inductive Step (V κ : Type) where
  | ask (question : Question V κ)
  | write (w : Write V κ)

/-- The writes among some steps. -/
def Step.writes (steps : List (Step V κ)) : List (Write V κ) :=
  steps.filterMap fun
    | .ask _ => none
    | .write w => some w

namespace Roster

/-- Takes steps one after the other: the answers given, and the roster afterwards. -/
def inTurn (r : Roster order) : List (Step V κ) → List (Answer V κ) × Roster order
  | [] => ([], r)
  | .ask question :: steps => (r.answer question :: (r.inTurn steps).1, (r.inTurn steps).2)
  | .write w :: steps => (r.write w).inTurn steps

theorem inTurn_append (r : Roster order) (steps more : List (Step V κ)) :
    r.inTurn (steps ++ more) =
      ((r.inTurn steps).1 ++ ((r.inTurn steps).2.inTurn more).1, ((r.inTurn steps).2.inTurn more).2) := by
  induction steps generalizing r with
  | nil => rfl
  | cons step steps ih =>
    cases step with
    | ask question =>
      show (r.answer question :: (r.inTurn (steps ++ more)).1, (r.inTurn (steps ++ more)).2) = _
      rw [ih]; rfl
    | write w => exact ih (r.write w)

theorem inTurn_snd (r : Roster order) (steps : List (Step V κ)) : (r.inTurn steps).2 = r.run (Step.writes steps) := by
  induction steps generalizing r with
  | nil => rfl
  | cons step steps ih =>
    cases step with
    | ask question => exact ih r
    | write w => exact ih (r.write w)

end Roster

/-! ## Steps within steps -/

/-- Steps to be taken, some of them while an earlier one is on its way. -/
inductive Script (V κ : Type) where
  | done
  | ask (question : Question V κ) (rest : Script V κ)
  /-- A write, the steps to be taken while it sorts, and those after it. -/
  | write (w : Write V κ) (meanwhile rest : Script V κ)

namespace Script

/-- All the steps, in the order in which they start. -/
def steps : Script V κ → List (Step V κ)
  | .done => []
  | .ask question rest => .ask question :: rest.steps
  | .write w meanwhile rest => .write w :: (meanwhile.steps ++ rest.steps)

/-- Plays a script: the answers in the order of the questions, and the roster at the end. -/
def play : Script V κ → Roster order → List (Answer V κ) × Roster order
  | .done, r => ([], r)
  | .ask question rest, r => (r.answer question :: (rest.play r).1, (rest.play r).2)
  | .write w meanwhile rest, r =>
    let written := r.writeAround w meanwhile.play
    (written.1.getD [] ++ (rest.play written.2).1, (rest.play written.2).2)

/-- Each write that has steps inside it leaves some rows to be sorted. -/
def Fits : Script V κ → Contents V κ → Prop
  | .done, _ => True
  | .ask _ rest, c => rest.Fits c
  | .write w meanwhile rest, c =>
    (meanwhile ≠ .done → ¬ (c.apply w).isEmpty) ∧ meanwhile.Fits (c.apply w) ∧
      rest.Fits ((c.apply w).replay (Step.writes meanwhile.steps))

end Script

/-! ## A write resumed after others -/

namespace Contents

omit [Entity V κ] in
theorem isEmpty_values (c : Contents V κ) : c.rows.values.isEmpty = c.isEmpty := by
  rw [values_eq_map_toList, Bool.eq_iff_iff, List.isEmpty_iff_length_eq_zero, List.length_map]
  unfold isEmpty size
  rw [Std.ExtTreeMap.length_toList, decide_eq_true_iff]

end Contents

namespace Roster

/-- Publishing the snapshot of a write late, after other writes, makes no difference: if there were any,
they have published later ones. -/
theorem publish_after_run {r : Roster order} (hr : r.listing.stamp ≤ r.stamp) (w : Write V κ)
    (writes : List (Write V κ)) :
    ((r.change w).run writes).publish (r.change w).snapshot = (r.write w).run writes := by
  cases writes with
  | nil => rfl
  | cons first writes =>
    have hchange : (r.change w).listing.stamp ≤ (r.change w).stamp := Nat.le_succ_of_le hr
    have hfirst : (r.change w).write first = (r.write w).write first := by
      refine (settled_write hchange first).eq ((settled_write hr w).write first) ?_ ?_
      · rw [toContents_write, toContents_write, toContents_write]; rfl
      · rw [stamp_write, stamp_write, stamp_write]; rfl
    have hrun : (r.change w).run (first :: writes) = (r.write w).run (first :: writes) :=
      congrArg (fun s : Roster order => s.run writes) hfirst
    have hsettled : ((r.write w).run (first :: writes)).Settled := (settled_write hr w).run _
    have hle : (r.change w).snapshot.stamp ≤ ((r.write w).run (first :: writes)).listing.stamp := by
      rw [hsettled.stamp, stamp_run, stamp_write]
      exact Nat.le_add_right _ _
    rw [hrun]
    unfold publish
    rw [if_pos hle]

end Roster

namespace Script

/-- The steps inside a write are taken if it leaves rows to be sorted. -/
theorem play_write (w : Write V κ) (meanwhile rest : Script V κ) (r : Roster order) :
    (Script.write w meanwhile rest).play r =
      let inner := (if (r.change w).snapshot.rows.isEmpty then .done else meanwhile).play (r.change w)
      let after := rest.play (inner.2.publish (r.change w).snapshot)
      (inner.1 ++ after.1, after.2) := by
  have hround : r.writeAround w meanwhile.play =
      if (r.change w).snapshot.rows.isEmpty then (none, (r.change w).publish (r.change w).snapshot)
      else (some (meanwhile.play (r.change w)).1,
        (meanwhile.play (r.change w)).2.publish (r.change w).snapshot) := rfl
  rw [play, hround]
  split <;> rfl

/-- So they are taken in any case, if there are none without rows. -/
theorem play_write_of_rows {r : Roster order} {w : Write V κ} {meanwhile : Script V κ}
    (hrows : meanwhile ≠ .done → ¬ (r.apply w).isEmpty) (rest : Script V κ) :
    (Script.write w meanwhile rest).play r =
      let inner := meanwhile.play (r.change w)
      let after := rest.play (inner.2.publish (r.change w).snapshot)
      (inner.1 ++ after.1, after.2) := by
  rw [play_write]
  split
  · rename_i hempty
    have hdone : meanwhile = .done := by
      by_contra hne
      refine hrows hne ?_
      rw [← Contents.isEmpty_values]; exact hempty
    rw [hdone]
  · rfl

/-- Playing a script leaves the roster that its writes leave one after the other, and its answers agree
with those of its steps taken one after the other from any roster of the same contents. -/
theorem play_in_turn {r : Roster order} (hr : r.listing.stamp ≤ r.stamp) {script : Script V κ}
    (hfits : script.Fits r.toContents) :
    (script.play r).2 = r.run (Step.writes script.steps) ∧
      ∀ s : Roster order, r.toContents = s.toContents →
        List.Forall₂ Answer.Agrees (script.play r).1 (s.inTurn script.steps).1 := by
  induction script generalizing r with
  | done => exact ⟨rfl, fun _ _ => .nil⟩
  | ask question rest ih =>
    obtain ⟨hstate, hanswers⟩ := ih hr hfits
    exact ⟨hstate, fun s hs => .cons (Roster.answer_agrees hs question) (hanswers s hs)⟩
  | write w meanwhile rest ihm ihr =>
    obtain ⟨hrows, hmeanwhile, hrest⟩ := hfits
    -- the steps inside start from the change alone, those after it from the roster that it all leaves
    obtain ⟨hplay, hinner⟩ := ihm (r := r.change w) (Nat.le_succ_of_le hr) hmeanwhile
    have hlate := Roster.publish_after_run hr w (Step.writes meanwhile.steps)
    rw [← hplay] at hlate
    have hsettled : ((r.write w).run (Step.writes meanwhile.steps)).Settled := (Roster.settled_write hr w).run _
    have hcontents : ((r.write w).run (Step.writes meanwhile.steps)).toContents =
        (r.apply w).replay (Step.writes meanwhile.steps) := by
      rw [Roster.toContents_run, Roster.toContents_write]
    rw [← hcontents] at hrest
    obtain ⟨hstate, hanswers⟩ := ihr (le_of_eq hsettled.stamp) hrest
    rw [play_write_of_rows hrows]
    dsimp only
    rw [hlate]
    constructor
    · show (rest.play ((r.write w).run (Step.writes meanwhile.steps))).2 =
        (r.write w).run (Step.writes (meanwhile.steps ++ rest.steps))
      rw [hstate, ← Roster.run_append]
      exact congrArg _ List.filterMap_append.symm
    · intro s hs
      have hwritten : (r.change w).toContents = (s.write w).toContents := by
        rw [Roster.toContents_write, ← hs]; rfl
      have hlater : ((r.write w).run (Step.writes meanwhile.steps)).toContents =
          ((s.write w).inTurn meanwhile.steps).2.toContents := by
        rw [hcontents, Roster.inTurn_snd, Roster.toContents_run, ← hwritten]; rfl
      show List.Forall₂ _
        ((meanwhile.play (r.change w)).1 ++ (rest.play ((r.write w).run (Step.writes meanwhile.steps))).1)
        ((s.write w).inTurn (meanwhile.steps ++ rest.steps)).1
      rw [Roster.inTurn_append]
      exact List.rel_append (hinner (s.write w) hwritten) (hanswers _ hlater)

end Script

/-! ## Rosters under writes that overlap -/

namespace Traffic

/-- Neither what is published nor a snapshot on its way is ahead of the contents. -/
structure Timely (t : Traffic order) : Prop where
  listing : t.roster.listing.stamp ≤ t.roster.stamp
  taken : ∀ call ∈ t.calls, ∀ s, call.phase = .sorting s → s.stamp ≤ t.roster.stamp

theorem timely_start (rows : List V) : (start order rows).Timely := ⟨Nat.le_refl 0, by rintro call ⟨⟩⟩

theorem Timely.move {t t' : Traffic order} (ht : t.Timely) {m : Move V κ} (hm : t.move? m = some t') : t'.Timely := by
  cases m with
  | change w =>
    cases hm
    refine ⟨Nat.le_succ_of_le ht.listing, fun call hcall s hs => ?_⟩
    rcases List.mem_append.1 hcall with hcall | hcall
    · exact Nat.le_succ_of_le (ht.taken call hcall s hs)
    · rw [List.mem_singleton.1 hcall] at hs; cases hs
  | snapshot i =>
    obtain ⟨call, -, -, rfl⟩ := move?_snapshot hm
    refine ⟨ht.listing, fun other hother s hs => ?_⟩
    rcases List.mem_or_eq_of_mem_set hother with hother | rfl
    · exact ht.taken other hother s hs
    · cases hs; exact Nat.le_refl _
  | publish i =>
    obtain ⟨call, taken, hi, hphase, rfl⟩ := move?_publish hm
    obtain ⟨-, hstamp, hlisting⟩ := t.roster.publish_cases taken
    have htaken := ht.taken call (List.mem_of_getElem? hi) taken hphase
    refine ⟨?_, fun other hother s hs => ?_⟩
    · show (t.roster.publish taken).listing.stamp ≤ (t.roster.publish taken).stamp
      rw [hstamp]
      rcases hlisting with ⟨-, hl⟩ | ⟨-, hl⟩
      · rw [hl]; exact ht.listing
      · rw [hl]; exact htaken
    · show s.stamp ≤ (t.roster.publish taken).stamp
      rw [hstamp]
      rcases List.mem_or_eq_of_mem_set hother with hother | rfl
      · exact ht.taken other hother s hs
      · cases hs

theorem Timely.run {t t' : Traffic order} (ht : t.Timely) {moves : List (Move V κ)} (hr : t.run? moves = some t') :
    t'.Timely := by
  induction moves generalizing t with
  | nil => cases hr; exact ht
  | cons m moves ih =>
    obtain ⟨u, hu, hr⟩ := Option.bind_eq_some_iff.1 hr
    exact ih (ht.move hu) hr

end Traffic

namespace Script

/-- Take a roster as any interleaving of calls may have left it, with some of them still on their way,
and a write with steps inside it, some of them writes with steps inside, each of which leaves some
rows. The roster ends up as it would with all the steps taken one after the other in the order in
which they start, and every answer but those that show a listing is the same. -/
theorem play_eq_in_turn {rows : List V} {before : List (Move V κ)} {t : Traffic order}
    (ht : (Traffic.start order rows).run? before = some t) {w : Write V κ} {inner : Script V κ}
    (hfits : (Script.write w inner .done).Fits t.roster.toContents) :
    let overlapped := (Script.write w inner .done).play t.roster
    let inTurn := t.roster.inTurn (.write w :: inner.steps)
    overlapped.2 = inTurn.2 ∧ List.Forall₂ Answer.Agrees overlapped.1 inTurn.1 := by
  have hr := ((Traffic.timely_start rows).run ht).listing
  obtain ⟨hstate, hanswers⟩ := play_in_turn hr hfits
  have hsteps : (Script.write w inner .done).steps = .write w :: inner.steps := by
    show _ :: (inner.steps ++ []) = _
    rw [List.append_nil]
  rw [hsteps] at hstate hanswers
  refine ⟨?_, hanswers t.roster rfl⟩
  rw [Roster.inTurn_snd]; exact hstate

/-- With a call already on its way: a write, inside it a deletion, and inside that a server that takes over
the agent of the deleted one. -/
theorem play_eq_in_turn_twice_nested :
    let inner : Script Server UInt64 :=
      .ask (.holder "a") (.write (.drop [1, 9])
        (.write (.put { id := 3, uuid := "a" }) .done (.ask .listing (.ask (.identified "a") .done)))
        (.ask .size .done))
    ∃ t : Traffic Server.order,
      (Traffic.start Server.order [{ id := 1, uuid := "a" }]).run? [.change (.put { id := 2 }), .snapshot 0] = some t ∧
      (Script.write (.put { id := 4, rank := 1 }) inner .done).Fits t.roster.toContents ∧
      ((Script.write (.put { id := 4, rank := 1 }) inner .done).play t.roster).2 =
        (t.roster.inTurn (.write (.put { id := 4, rank := 1 }) :: inner.steps)).2 := by
  intro inner
  obtain ⟨t, ht, hfits⟩ : ∃ t : Traffic Server.order,
      (Traffic.start Server.order [{ id := 1, uuid := "a" }]).run? [.change (.put { id := 2 }), .snapshot 0] = some t ∧
      (Script.write (.put { id := 4, rank := 1 }) inner .done).Fits t.roster.toContents :=
    ⟨_, rfl, fun _ => by decide, ⟨fun _ => by decide, ⟨fun h => absurd rfl h, trivial, trivial⟩, trivial⟩, trivial⟩
  exact ⟨t, ht, hfits, (play_eq_in_turn ht hfits).1⟩

end Script

end FleetRoster
