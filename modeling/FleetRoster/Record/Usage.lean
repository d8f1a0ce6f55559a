/-
Usage records: what a server transferred within an hour.
-/
import FleetRoster.Json.Record

namespace FleetRoster

/-- The bytes a server received and sent, as found in one hour. -/
structure Usage where
  server : UInt64
  inbound : UInt64
  outbound : UInt64
  /-- The first second of the hour, in Unix time. -/
  hour : UInt64
  deriving DecidableEq

namespace Usage

def fields : List Json.Field :=
  [.required "server_id" Json.unsigned64,
   .required "inbound" Json.unsigned64,
   .required "outbound" Json.unsigned64,
   .required "created_at" Json.unsigned64]

def ofRow : Json.Row fields → Usage
  | (server, inbound, outbound, hour, ()) => { server, inbound, outbound, hour }

def toRow (u : Usage) : Json.Row fields := (u.server, u.inbound, u.outbound, u.hour, ())

def codec : Json.Codec Usage := (Json.record "TransferRecord" fields).map ofRow toRow

end Usage

end FleetRoster
