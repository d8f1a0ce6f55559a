/-
The passes of a schedule. An event first makes the passes that fall due in it, one after the other,
and then has an effect of its own; so the passes of a whole script can be listed, each with the
servers it was made over and whether it went through. Once a schedule is stopped, no event makes a
pass any more.
-/
import FleetRoster.Meter.Schedule
import FleetRoster.Proofs.Meter.Ledger

namespace FleetRoster

open Metering (Pass)

instance : KeepingSink Outlet where
  records := Outlet.records
  accepted {outlet later batch} h := by
    simp only [Sink.offer] at h
    split at h <;> cases h
    rfl
  refused {outlet later batch e} h := by
    simp only [Sink.offer] at h
    split at h <;> cases h
    all_goals rfl

namespace Schedule

variable (clock : Nat → UInt64)

/-! ## An event is its passes and its effect -/

/-- The seconds at which an event makes passes. -/
def due (s : Schedule) : Event → List Nat
  | .wait seconds => if s.running then ticks s.period s.elapsed seconds else []
  | .write _ => []
  | .setMode _ => []
  | .stop => if s.running && s.passOnStop then [s.elapsed] else []

/-- The schedule after passes at some seconds. -/
def passAll (s : Schedule) (seconds : List Nat) : Schedule :=
  seconds.foldl (fun s second => s.pass (clock second)) s

/-- What an event does once its passes are made. -/
def effect (s : Schedule) : Event → Schedule
  | .wait seconds => { s with elapsed := s.elapsed + seconds }
  | .write w => { s with servers := s.servers.write w }
  | .setMode mode => { s with outlet := { s.outlet with mode } }
  | .stop => { s with running := false }

theorem meter_effect (s : Schedule) (event : Event) : (s.effect event).meter = s.meter := by
  cases event <;> rfl

theorem records_effect (s : Schedule) (event : Event) : (s.effect event).outlet.records = s.outlet.records := by
  cases event <;> rfl

/-- Passes change the meter and the outlet only. -/
theorem passAll_frame (s : Schedule) (seconds : List Nat) :
    s.passAll clock seconds =
      { s with meter := (s.passAll clock seconds).meter, outlet := (s.passAll clock seconds).outlet } := by
  induction seconds generalizing s with
  | nil => rfl
  | cons second seconds ih =>
    show (s.pass (clock second)).passAll clock seconds = _
    rw [ih]
    rfl

theorem step_eq (s : Schedule) (event : Event) :
    s.step clock event = (s.passAll clock (s.due event)).effect event := by
  cases event with
  | wait seconds =>
    show s.wait clock seconds = _
    unfold wait due passAll effect
    rfl
  | write w => rfl
  | setMode mode => rfl
  | stop =>
    show s.stop clock = _
    unfold stop due
    cases hrunning : s.running
    · show s = { s with running := false }
      rw [← hrunning]
    · cases s.passOnStop <;> rfl

theorem servers_step (s : Schedule) (event : Event) :
    (s.step clock event).servers =
      match event with
      | .write w => s.servers.write w
      | _ => s.servers := by
  rw [step_eq, passAll_frame]
  cases event <;> rfl

/-! ## Stopping -/

theorem passOnStop_step (s : Schedule) (event : Event) : (s.step clock event).passOnStop = s.passOnStop := by
  rw [step_eq, passAll_frame]
  cases event <;> rfl

theorem running_step (s : Schedule) {event : Event} (h : event ≠ .stop) :
    (s.step clock event).running = s.running := by
  rw [step_eq, passAll_frame]
  cases event with
  | stop => exact absurd rfl h
  | _ => rfl

/-- A script without a stop leaves the schedule running or not, as it was, and as ready for a last pass. -/
theorem running_run (s : Schedule) {events : List Event} (h : Event.stop ∉ events) :
    (s.run clock events).running = s.running ∧ (s.run clock events).passOnStop = s.passOnStop := by
  induction events generalizing s with
  | nil => exact ⟨rfl, rfl⟩
  | cons event events ih =>
    rw [List.mem_cons, not_or] at h
    obtain ⟨hrunning, hpass⟩ := ih (s.step clock event) h.2
    exact ⟨hrunning.trans (s.running_step clock (Ne.symm h.1)), hpass.trans (s.passOnStop_step clock event)⟩

/-- A schedule that does not run makes no passes, whatever happens, and stays stopped. -/
theorem run_of_stopped {s : Schedule} (h : s.running = false) (events : List Event) :
    (s.run clock events).running = false ∧ (s.run clock events).outlet.records = s.outlet.records := by
  induction events generalizing s with
  | nil => exact ⟨h, rfl⟩
  | cons event events ih =>
    have hdue : s.due event = [] := by
      cases event <;> simp [due, h]
    have hstep : s.step clock event = s.effect event := by
      rw [step_eq, hdue]; rfl
    have hnext : (s.step clock event).running = false ∧ (s.step clock event).outlet.records = s.outlet.records := by
      rw [hstep]
      refine ⟨?_, s.records_effect event⟩
      cases event with
      | stop => rfl
      | _ => exact h
    obtain ⟨hrunning, hrecords⟩ := ih hnext.1
    exact ⟨hrunning, hrecords.trans hnext.2⟩

/-! ## The passes of a script -/

/-- The pass that is made at a moment. -/
def passAt (s : Schedule) (now : UInt64) : Pass :=
  ⟨now, s.servers, (s.meter.record s.servers s.outlet now).1.isOk⟩

@[simp]
theorem counters?_passAt (s : Schedule) (now : UInt64) (id : UInt64) :
    (s.passAt now).counters? id = (s.servers.get? id).map (·.counters) := rfl

/-- The passes at some seconds, one after the other. -/
def passesAt (s : Schedule) : List Nat → List Pass
  | [] => []
  | second :: seconds => s.passAt (clock second) :: (s.pass (clock second)).passesAt seconds

/-- The passes that the events of a script make. -/
def passes (s : Schedule) : List Event → List Pass
  | [] => []
  | event :: events => s.passesAt clock (s.due event) ++ (s.step clock event).passes events

theorem passes_append (s : Schedule) (events more : List Event) :
    s.passes clock (events ++ more) = s.passes clock events ++ (s.run clock events).passes clock more := by
  induction events generalizing s with
  | nil => rfl
  | cons event events ih =>
    show s.passesAt clock (s.due event) ++ (s.step clock event).passes clock (events ++ more) = _
    rw [ih, ← List.append_assoc]; rfl

/-- A schedule before its first pass. -/
def ready (settings : Settings) (servers : ServerRoster) : Schedule where
  period := settings.period
  passOnStop := settings.passOnStop
  servers := servers

/-- Every pass of metering that is started and then follows a script, the one at the start included. -/
def allPasses (settings : Settings) (servers : ServerRoster) (events : List Event) : List Pass :=
  (ready settings servers).passAt (clock 0) :: (start settings servers clock).passes clock events

theorem allPasses_append (settings : Settings) (servers : ServerRoster) (events more : List Event) :
    allPasses clock settings servers (events ++ more) =
      allPasses clock settings servers events ++ ((start settings servers clock).run clock events).passes clock more := by
  unfold allPasses
  rw [passes_append]; rfl

/-- A schedule that is to make a last pass makes it when it is stopped. -/
theorem passes_stop {s : Schedule} (hrunning : s.running = true) (hready : s.passOnStop = true) :
    s.passes clock [.stop] = [s.passAt (clock s.elapsed)] := by
  have hdue : s.due .stop = [s.elapsed] := by
    unfold due
    rw [hrunning, hready]; rfl
  show s.passesAt clock (s.due .stop) ++ [] = _
  rw [hdue]; rfl

/-- A pass goes through, and then the meter has caught up and the outlet has the records; or it fails, and
what the meter knows of the servers there are is what it knew. -/
theorem pass_cases (s : Schedule) (now : UInt64) :
    ((s.passAt now).good = true ∧
      (∀ id, (s.pass now).meter.baselines[id]? = (s.servers.get? id).map (·.counters)) ∧
      (s.pass now).outlet.records = s.outlet.records ++ s.meter.batch s.servers.toList (hourOf now)) ∨
    ((s.passAt now).good = false ∧ (s.pass now).outlet.records = s.outlet.records ∧
      ∀ id, (s.pass now).meter.baselines[id]? =
        if (s.servers.get? id).isSome then s.meter.baselines[id]? else none) := by
  obtain ⟨result, meter, later, h, houtcome⟩ := s.meter.record_cases s.servers s.outlet now
  have hpass : s.pass now = { s with meter, outlet := later } := by
    unfold pass
    rw [h]
  have hgood : (s.passAt now).good = result.isOk := by
    unfold passAt
    rw [h]
  rw [hpass, hgood]
  exact houtcome

/-- An outlet that accepts batches lets every pass through. -/
theorem good_of_accepting {s : Schedule} (h : s.outlet.mode = .accepting) (now : UInt64) :
    (s.passAt now).good = true := by
  show (s.meter.pass s.servers.toList s.outlet now).1.isOk = true
  rcases s.meter.pass_cases s.servers.toList s.outlet now with ⟨-, hp⟩ | ⟨-, ⟨later, -, hp⟩ | ⟨e, later, hoffer, -⟩⟩
  · rw [hp]; rfl
  · rw [hp]; rfl
  · simp only [Sink.offer, h] at hoffer
    cases hoffer

end Schedule

end FleetRoster
