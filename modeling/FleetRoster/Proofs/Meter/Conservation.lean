/-
Nothing that is transferred gets lost or is reported twice. For a server that stays in the fleet and
whose counters only climb, what has been reported is at any time what its counters have gained from
the start to the last pass that went through, whatever the period, the waits, the other servers and
the passes that failed. With a last pass on stopping that goes through, that is all of it.
-/
import FleetRoster.Proofs.Meter.Passes

namespace FleetRoster

open Metering (Pass)

namespace Counters

/-- Neither counter is above the other's. -/
def AtMost (a b : Counters) : Prop := a.inbound ≤ b.inbound ∧ a.outbound ≤ b.outbound

theorem AtMost.refl (a : Counters) : a.AtMost a := ⟨UInt64.le_refl _, UInt64.le_refl _⟩

theorem AtMost.trans {a b c : Counters} (hab : a.AtMost b) (hbc : b.AtMost c) : a.AtMost c :=
  ⟨UInt64.le_trans hab.1 hbc.1, UInt64.le_trans hab.2 hbc.2⟩

end Counters

/-! ## The last pass that went through -/

/-- The last of the passes that went through found the server with these counters. -/
def LastGood (passes : List Pass) (id : UInt64) (counters : Counters) : Prop :=
  ∃ p, (passes.filter (·.good)).getLast? = some p ∧ p.counters? id = some counters

theorem lastGood_concat_of_good {passes : List Pass} {p : Pass} {id : UInt64} {counters : Counters}
    (h : p.good = true) : LastGood (passes ++ [p]) id counters ↔ p.counters? id = some counters := by
  unfold LastGood
  rw [List.filter_append, List.filter_singleton, h]
  simp

theorem lastGood_concat_of_failed {passes : List Pass} {p : Pass} {id : UInt64} {counters : Counters}
    (h : p.good = false) : LastGood (passes ++ [p]) id counters ↔ LastGood passes id counters := by
  unfold LastGood
  rw [List.filter_append, List.filter_singleton, h]
  simp

namespace Schedule

variable {clock : Nat → UInt64} {id : UInt64}

/-! ## The account of one server -/

/-- After some passes: the meter stands at what the last good one found, the server has not fallen below
it, and what has been reported is what the counters gained up to it from `first` on. -/
structure Accounted (id : UInt64) (first base : Counters) (passes : List Pass) (s : Schedule) : Prop where
  last : LastGood passes id base
  baseline : s.meter.baselines[id]? = some base
  current : ∃ server, s.servers.get? id = some server ∧ base.AtMost server.counters
  inbound : first.inbound.toNat + reported s.outlet.records id (·.inbound) = base.inbound.toNat
  outbound : first.outbound.toNat + reported s.outlet.records id (·.outbound) = base.outbound.toNat

/-- A first pass goes through, and reports nothing. -/
theorem accounted_first {s : Schedule} (hmeter : s.meter = {}) (houtlet : s.outlet = {}) {first : Server}
    (hfirst : s.servers.get? id = some first) (now : UInt64) :
    Accounted id first.counters first.counters [s.passAt now] (s.pass now) := by
  have hgood : (s.passAt now).good = true := good_of_accepting (by rw [houtlet]) now
  have hnew : s.meter.baselines[id]? = none := by
    rw [hmeter]; exact Std.ExtTreeMap.getElem?_empty
  rcases s.pass_cases now with ⟨-, hbaselines, hrecords⟩ | ⟨hfailed, -⟩
  · have hnothing : ∀ amount, reported (s.pass now).outlet.records id amount = 0 := by
      intro amount
      rw [hrecords, reported_append, houtlet,
        Meter.reported_batch_of_newcomer (enumerates_toList s.servers.toContents) hnew]
      rfl
    refine ⟨?_, ?_, ⟨first, hfirst, .refl _⟩, ?_, ?_⟩
    · rw [← List.nil_append [_], lastGood_concat_of_good hgood, counters?_passAt, hfirst]; rfl
    · rw [hbaselines, hfirst]; rfl
    · rw [hnothing]; rfl
    · rw [hnothing]; rfl
  · rw [hgood] at hfailed; cases hfailed

theorem Accounted.pass {first base : Counters} {passes : List Pass} {s : Schedule}
    (h : Accounted id first base passes s) (now : UInt64) :
    ∃ base, Accounted id first base (passes ++ [s.passAt now]) (s.pass now) := by
  obtain ⟨server, hserver, hle⟩ := h.current
  -- a good pass moves the account on to the counters as they are, a failed one leaves it where it is
  rcases s.pass_cases now with ⟨hgood, hmeter, hrecords⟩ | ⟨hfailed, hrecords, hmeter⟩
  · obtain ⟨hin, hout⟩ :=
      Meter.reported_batch (enumerates_toList s.servers.toContents) hserver h.baseline (hourOf now)
    refine ⟨server.counters, ?_, ?_, ⟨server, hserver, .refl _⟩, ?_, ?_⟩
    · rw [lastGood_concat_of_good hgood, counters?_passAt, hserver]; rfl
    · rw [hmeter, hserver]; rfl
    · rw [hrecords, reported_append, hin, ← Nat.add_assoc, h.inbound]
      exact toNat_counted_of_le hle.1
    · rw [hrecords, reported_append, hout, ← Nat.add_assoc, h.outbound]
      exact toNat_counted_of_le hle.2
  · refine ⟨base, (lastGood_concat_of_failed hfailed).2 h.last, ?_, ⟨server, hserver, hle⟩, ?_, ?_⟩
    · rw [hmeter, hserver]; exact h.baseline
    · rw [hrecords]; exact h.inbound
    · rw [hrecords]; exact h.outbound

theorem Accounted.passAll {first base : Counters} {passes : List Pass} {s : Schedule}
    (h : Accounted id first base passes s) (seconds : List Nat) :
    ∃ base, Accounted id first base (passes ++ s.passesAt clock seconds) (s.passAll clock seconds) := by
  induction seconds generalizing s base passes with
  | nil => exact ⟨base, by rw [show s.passesAt clock [] = [] from rfl, List.append_nil]; exact h⟩
  | cons second seconds ih =>
    obtain ⟨next, hnext⟩ := h.pass (clock second)
    obtain ⟨last, hlast⟩ := ih hnext
    rw [List.append_assoc] at hlast
    exact ⟨last, hlast⟩

/-! ## Scripts -/

/-- No write of the script removes the server or lets one of its counters drop. -/
def Climbs (id : UInt64) (servers : ServerRoster) : List Event → Prop
  | [] => True
  | .write w :: events =>
    (∃ server next, servers.get? id = some server ∧ (servers.write w).get? id = some next ∧
      server.counters.AtMost next.counters) ∧ Climbs id (servers.write w) events
  | _ :: events => Climbs id servers events

/-- Through any event the server stays, and climbs. -/
theorem Climbs.step {s : Schedule} {event : Event} {events : List Event} (h : Climbs id s.servers (event :: events))
    {server : Server} (hserver : s.servers.get? id = some server) :
    (∃ next, (s.step clock event).servers.get? id = some next ∧ server.counters.AtMost next.counters) ∧
      Climbs id (s.step clock event).servers events := by
  rw [servers_step]
  cases event with
  | write w =>
    obtain ⟨⟨_, next, hserver', hnext, hle⟩, hrest⟩ := h
    rw [hserver] at hserver'; cases hserver'
    exact ⟨⟨next, hnext, hle⟩, hrest⟩
  | _ => exact ⟨⟨server, hserver, .refl _⟩, h⟩

theorem Accounted.step {first base : Counters} {passes : List Pass} {s : Schedule}
    (h : Accounted id first base passes s) (event : Event) {events : List Event}
    (hclimbs : Climbs id s.servers (event :: events)) :
    (∃ base, Accounted id first base (passes ++ s.passesAt clock (s.due event)) (s.step clock event)) ∧
      Climbs id (s.step clock event).servers events := by
  obtain ⟨last, hlast⟩ := h.passAll (s.due event)
  obtain ⟨server, hserver, hle⟩ := hlast.current
  rw [passAll_frame] at hserver
  obtain ⟨⟨next, hnext, hclimb⟩, hrest⟩ := hclimbs.step hserver
  refine ⟨⟨last, hlast.last, ?_, ⟨next, hnext, hle.trans hclimb⟩, ?_, ?_⟩, hrest⟩
  · rw [step_eq, meter_effect]; exact hlast.baseline
  · rw [step_eq, records_effect]; exact hlast.inbound
  · rw [step_eq, records_effect]; exact hlast.outbound

theorem Accounted.run {first base : Counters} {passes : List Pass} {s : Schedule}
    (h : Accounted id first base passes s) {events : List Event} (hclimbs : Climbs id s.servers events) :
    ∃ base, Accounted id first base (passes ++ s.passes clock events) (s.run clock events) := by
  induction events generalizing s base passes with
  | nil => exact ⟨base, by rw [show s.passes clock [] = [] from rfl, List.append_nil]; exact h⟩
  | cons event events ih =>
    obtain ⟨⟨next, hnext⟩, hrest⟩ := h.step event hclimbs
    obtain ⟨last, hlast⟩ := ih hnext hrest
    rw [List.append_assoc] at hlast
    exact ⟨last, hlast⟩

/-- Take a server of the start that a script never removes and whose counters it never lets drop, and
metering with any settings that is stopped at the end of the script. What the accepted records give
for the server, in either direction, is its counter at the last pass that went through less its
counter at the start. If a last pass is asked for and the outlet accepts records by then, it is the
counter at the end less that at the start. Nothing is accepted after the stop. -/
theorem reported_of_script (settings : Settings) {rows : List Server} (clock : Nat → UInt64) {events : List Event}
    (hstop : Event.stop ∉ events) {id : UInt64} {first : Server}
    (hfirst : (Roster.ofList rows : ServerRoster).get? id = some first) (hclimbs : Climbs id (.ofList rows) events) :
    let before := (start settings (.ofList rows) clock).run clock events
    let stopped := (start settings (.ofList rows) clock).run clock (events ++ [.stop])
    (∃ last, LastGood (allPasses clock settings (.ofList rows) (events ++ [.stop])) id last ∧
      first.counters.inbound.toNat + reported stopped.outlet.records id (·.inbound) = last.inbound.toNat ∧
      first.counters.outbound.toNat + reported stopped.outlet.records id (·.outbound) = last.outbound.toNat) ∧
    (settings.passOnStop = true → before.outlet.mode = .accepting →
      ∃ final, stopped.servers.get? id = some final ∧
        first.counters.inbound.toNat + reported stopped.outlet.records id (·.inbound) =
          final.counters.inbound.toNat ∧
        first.counters.outbound.toNat + reported stopped.outlet.records id (·.outbound) =
          final.counters.outbound.toNat) ∧
    ∀ later, (stopped.run clock later).outlet.records = stopped.outlet.records := by
  intro before stopped
  have hstopped : stopped = before.step clock .stop := List.foldl_append
  have hstart : Accounted id first.counters first.counters [(ready settings (.ofList rows)).passAt (clock 0)]
      (start settings (.ofList rows) clock) :=
    accounted_first rfl rfl hfirst (clock 0)
  obtain ⟨base, hbefore⟩ := hstart.run hclimbs
  have hend : Climbs id before.servers [.stop] := trivial
  obtain ⟨last, hlast⟩ : ∃ last, Accounted id first.counters last
      (allPasses clock settings (.ofList rows) events ++ before.passes clock [.stop]) stopped := by
    rw [hstopped]
    exact hbefore.run hend
  refine ⟨⟨last, ?_, hlast.inbound, hlast.outbound⟩, ?_, ?_⟩
  · rw [allPasses_append]; exact hlast.last
  · intro hpass hmode
    obtain ⟨hrunning, hready⟩ := running_run clock (start settings (.ofList rows) clock) hstop
    -- the last pass goes through, so it is the one that the account stands at
    have hfinal := hlast.last
    rw [passes_stop clock hrunning (hready.trans hpass),
      lastGood_concat_of_good (good_of_accepting hmode (clock before.elapsed))] at hfinal
    obtain ⟨final, hget, rfl⟩ := Option.map_eq_some_iff.1 hfinal
    refine ⟨final, ?_, hlast.inbound, hlast.outbound⟩
    rw [hstopped, servers_step]
    exact hget
  · intro later
    refine (run_of_stopped clock ?_ later).2
    rw [hstopped, step_eq]; rfl

/-- A zero interval, a pass that is refused, one that breaks off, and another server that goes. -/
theorem reported_of_troubled_script :
    let settings : Settings := { interval := 0 }
    let rows : List Server := [{ id := 1, counters := ⟨10, 5⟩ }, { id := 2, counters := ⟨7, 7⟩ }]
    let clock : Nat → UInt64 := fun second => 1700000000 + UInt64.ofNat second
    let events : List Event :=
      [.wait 1800, .write (.put { id := 1, counters := ⟨40, 5⟩ }), .setMode .refusing, .wait 3600,
        .write (.drop [2]), .setMode .breaking, .write (.put { id := 1, counters := ⟨40, 9⟩ }), .wait 5000,
        .setMode .accepting]
    let stopped := (start settings (.ofList rows) clock).run clock (events ++ [.stop])
    Event.stop ∉ events ∧ Climbs 1 (.ofList rows) events ∧
      10 + reported stopped.outlet.records 1 (·.inbound) = 40 ∧
      5 + reported stopped.outlet.records 1 (·.outbound) = 9 := by
  intro settings rows clock events stopped
  have hstop : Event.stop ∉ events := by simp [events]
  have hclimbs : Climbs 1 (.ofList rows) events :=
    ⟨⟨_, _, rfl, rfl, by decide, by decide⟩, ⟨_, _, rfl, rfl, .refl _⟩,
      ⟨_, _, rfl, rfl, by decide, by decide⟩, trivial⟩
  obtain ⟨-, hfinal, -⟩ := reported_of_script settings clock hstop rfl hclimbs
  obtain ⟨final, hget, hin, hout⟩ := hfinal rfl rfl
  have hserver : stopped.servers.get? 1 = some { id := 1, counters := ⟨40, 9⟩ } := by decide +kernel
  rw [hserver] at hget
  cases hget
  exact ⟨hstop, hclimbs, hin, hout⟩

end Schedule

end FleetRoster
