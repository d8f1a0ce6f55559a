/-
Servers of the fleet, with the traffic counters their agents report. The public listing shows them
by descending display rank and hides those not meant for guests.
-/
import FleetRoster.Json.Record
import FleetRoster.Roster

namespace FleetRoster

/-! ## Counters -/

/-- Bytes a server has received and sent since its counters last started from zero. -/
@[ext]
structure Counters where
  inbound : UInt64 := 0
  outbound : UInt64 := 0
  deriving DecidableEq

namespace Counters

def fields : List Json.Field :=
  [.required "net_in_transfer" Json.unsigned64,
   .required "net_out_transfer" Json.unsigned64]

def ofRow : Json.Row fields → Counters
  | (inbound, outbound, ()) => ⟨inbound, outbound⟩

def toRow (c : Counters) : Json.Row fields := (c.inbound, c.outbound, ())

def codec : Json.Codec Counters := (Json.record "ServerState" fields).map ofRow toRow

end Counters

/-! ## Servers -/

/-- A server of the fleet. -/
structure Server where
  id : UInt64 := 0
  /-- What the server's agent calls itself. -/
  uuid : String := ""
  name : String := ""
  owner : UInt64 := 0
  /-- Servers of higher rank are listed first. -/
  rank : Int32 := 0
  hidden : Bool := false
  counters : Counters := {}
  deriving DecidableEq

namespace Server

instance : Entity Server UInt64 where
  key := id
  identifier? server := some server.uuid
  grants server caller := caller.mayActFor server.owner

/-- By descending rank, then by ascending key; hidden servers are left out of the public part. -/
def order : ViewOrder Server where
  compare a b := (compare b.rank a.rank).then (compare a.id b.id)
  visible server := !server.hidden

def fields : List Json.Field :=
  [.required "id" Json.unsigned64,
   .required "uuid" Json.text,
   .required "name" Json.text,
   .required "user_id" Json.unsigned64,
   .required "display_index" Json.signed32,
   .required "hide_for_guest" Json.boolean,
   .optional "state" Counters.codec {}]

def ofRow : Json.Row fields → Server
  | (id, uuid, name, owner, rank, hidden, counters, ()) =>
    { id, uuid, name, owner, rank, hidden, counters }

def toRow (s : Server) : Json.Row fields :=
  (s.id, s.uuid, s.name, s.owner, s.rank, s.hidden, s.counters, ())

def codec : Json.Codec Server := (Json.record "Server" fields).map ofRow toRow

end Server

/-- The servers of a fleet. -/
abbrev ServerRoster := Roster Server.order

end FleetRoster
