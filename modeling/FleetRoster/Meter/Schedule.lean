/-
Metering on a schedule: a pass at the start and then one every period, until metering is stopped,
with one last pass if the settings ask for it. A pass takes no time; one that the sink refuses, or
breaks down in, is like any other refused pass.
-/
import FleetRoster.Meter
import FleetRoster.Settings

namespace FleetRoster

/-- How a destination of usage records takes them. -/
inductive SinkMode where
  | accepting
  | refusing
  /-- Taking a batch breaks the pass off. -/
  | breaking
  deriving DecidableEq

/-- Why a batch of records was not accepted. -/
inductive Setback where
  | refused (fault : Fault)
  | brokenOff
  deriving DecidableEq

/-- A sink in one of the modes, with the records it has accepted. -/
structure Outlet where
  records : List Usage := []
  mode : SinkMode := .accepting
  deriving DecidableEq

instance : Sink Outlet Setback where
  offer outlet batch :=
    match outlet.mode with
    | .accepting => (.ok (), { outlet with records := outlet.records ++ batch })
    | .refusing => (.error (.refused (.store .sinkClosed)), outlet)
    | .breaking => (.error .brokenOff, outlet)

/-- Metering that was started with some settings. -/
structure Schedule where
  /-- Seconds between two passes. -/
  period : Nat
  passOnStop : Bool
  /-- Whole seconds since the start. -/
  elapsed : Nat := 0
  running : Bool := true
  servers : ServerRoster
  meter : Meter := {}
  outlet : Outlet := {}

/-- What happens while metering runs. -/
inductive Event where
  /-- Some seconds pass. -/
  | wait (seconds : Nat)
  | write (w : Write Server UInt64)
  | setMode (mode : SinkMode)
  | stop

namespace Schedule

/-- One pass, at the moment `now` of Unix time. -/
def pass (s : Schedule) (now : UInt64) : Schedule :=
  let (_, meter, outlet) := s.meter.record s.servers s.outlet now
  { s with meter, outlet }

/-- Starts metering: the first pass is made at once. `clock` gives the Unix time of each second
since the start. -/
def start (settings : Settings) (servers : ServerRoster) (clock : Nat → UInt64) : Schedule :=
  let s : Schedule := { period := settings.period, passOnStop := settings.passOnStop, servers }
  s.pass (clock 0)

/-- The seconds after `elapsed`, up to `seconds` later, at which a pass is due: the multiples of
the period. -/
def ticks (period elapsed seconds : Nat) : List Nat :=
  (List.range ((elapsed + seconds) / period - elapsed / period)).map fun i =>
    (elapsed / period + 1 + i) * period

/-- Lets some seconds pass, with the passes that fall due. -/
def wait (s : Schedule) (clock : Nat → UInt64) (seconds : Nat) : Schedule :=
  let due := if s.running then ticks s.period s.elapsed seconds else []
  let s := due.foldl (fun s tick => s.pass (clock tick)) s
  { s with elapsed := s.elapsed + seconds }

/-- Stops metering, with one last pass if the settings asked for it. -/
def stop (s : Schedule) (clock : Nat → UInt64) : Schedule :=
  if s.running then
    let s := if s.passOnStop then s.pass (clock s.elapsed) else s
    { s with running := false }
  else s

def step (clock : Nat → UInt64) (s : Schedule) : Event → Schedule
  | .wait seconds => s.wait clock seconds
  | .write w => { s with servers := s.servers.write w }
  | .setMode mode => { s with outlet := { s.outlet with mode } }
  | .stop => s.stop clock

/-- Runs a script of events. -/
def run (clock : Nat → UInt64) (s : Schedule) (events : List Event) : Schedule :=
  events.foldl (step clock) s

end Schedule

end FleetRoster
