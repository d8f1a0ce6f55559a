/-
Metering: turning the traffic counters of the servers into usage records. A meter remembers the
counters it last accounted for. A pass reports, for every server it knows, what was transferred
since; it moves on to the new counters only once the records have been accepted, so what a refused
pass found is found again by the next one. It forgets servers that are gone in any case.
-/
import FleetRoster.Record.Server
import FleetRoster.Record.Usage

namespace FleetRoster

open Std

/-- Where usage records go. A batch is accepted or refused as a whole. -/
class Sink (σ : Type) (ε : outParam Type) where
  offer : σ → List Usage → Except ε Unit × σ

/-- The first second of the hour of a moment. -/
def hourOf (now : UInt64) : UInt64 := now - now % 3600

/-- What a counter has counted since it stood at `base`: one that has dropped was started from zero
in between. -/
def counted (base current : UInt64) : UInt64 :=
  if base ≤ current then current - base else current

/-- What a pass finds out about a server. -/
inductive Finding where
  /-- The server has not been accounted for before. -/
  | newcomer
  /-- Nothing was transferred. -/
  | idle
  /-- Nothing was transferred, but a counter was started from zero. -/
  | restarted
  | used (inbound outbound : UInt64)
  deriving DecidableEq

namespace Finding

/-- Compares a server's counters with those last accounted for. -/
def of (base? : Option Counters) (current : Counters) : Finding :=
  match base? with
  | none => .newcomer
  | some base =>
    let inbound := counted base.inbound current.inbound
    let outbound := counted base.outbound current.outbound
    if inbound = 0 ∧ outbound = 0 then
      if current.inbound < base.inbound ∨ current.outbound < base.outbound then .restarted
      else .idle
    else .used inbound outbound

/-- The record a finding makes. -/
def record? (finding : Finding) (server hour : UInt64) : Option Usage :=
  match finding with
  | .used inbound outbound => some { server, inbound, outbound, hour }
  | _ => none

end Finding

/-- The counters last accounted for, by server. -/
@[ext]
structure Meter where
  baselines : ExtTreeMap UInt64 Counters := ∅

namespace Meter

/-- How many servers the meter knows. -/
def tracked (m : Meter) : Nat := m.baselines.size

def finding (m : Meter) (id : UInt64) (server : Server) : Finding :=
  Finding.of m.baselines[id]? server.counters

/-- The records of a pass over the servers. -/
def batch (m : Meter) (servers : List (UInt64 × Server)) (hour : UInt64) : List Usage :=
  servers.filterMap fun (id, server) => (m.finding id server).record? id hour

/-- The servers whose counters a pass moves on to. -/
def pending (m : Meter) (servers : List (UInt64 × Server)) : List (UInt64 × Server) :=
  servers.filter fun (id, server) => m.finding id server ≠ .idle

/-- Forgets all but the given servers. -/
def retain (m : Meter) (servers : List (UInt64 × Server)) : Meter where
  baselines := m.baselines.filter fun id _ => servers.any fun (present, _) => present = id

/-- Moves on to the counters of the given servers. -/
def advance (m : Meter) (servers : List (UInt64 × Server)) : Meter where
  baselines :=
    servers.foldl (fun baselines (id, server) => baselines.insert id server.counters) m.baselines

/-- One pass over the servers at the moment `now`: how many records were made, or why the sink
refused them. A pass that makes no records does not trouble the sink. -/
def pass {σ ε : Type} [Sink σ ε] (m : Meter) (servers : List (UInt64 × Server)) (sink : σ)
    (now : UInt64) : Except ε Nat × Meter × σ :=
  let batch := m.batch servers (hourOf now)
  let kept := m.retain servers
  let moved := kept.advance (m.pending servers)
  if batch.isEmpty then (.ok 0, moved, sink)
  else
    match Sink.offer sink batch with
    | (.ok (), sink) => (.ok batch.length, moved, sink)
    | (.error e, sink) => (.error e, kept, sink)

/-- One pass over the servers of a roster. -/
def record {σ ε : Type} [Sink σ ε] (m : Meter) (servers : ServerRoster) (sink : σ)
    (now : UInt64) : Except ε Nat × Meter × σ :=
  m.pass servers.toList sink now

end Meter

/-- A sink that keeps the records it accepts, in the order they came. It refuses them while it is
closed. -/
structure MemorySink where
  records : List Usage := []
  closed : Bool := false
  deriving DecidableEq

instance : Sink MemorySink Fault where
  offer sink batch :=
    if sink.closed then (.error (.store .sinkClosed), sink)
    else (.ok (), { sink with records := sink.records ++ batch })

end FleetRoster
