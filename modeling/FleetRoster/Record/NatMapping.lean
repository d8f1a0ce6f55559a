/-
Mappings of a domain to an address behind a server. A request is routed by the domain it asks for.
-/
import FleetRoster.Json.Record
import FleetRoster.Roster

namespace FleetRoster

/-- A domain served by forwarding to a host behind a server. -/
structure NatMapping where
  id : UInt64 := 0
  owner : UInt64 := 0
  name : String := ""
  enabled : Bool := false
  server : UInt64 := 0
  host : String := ""
  /-- The domain requests are matched against. -/
  domain : String := ""
  deriving DecidableEq

namespace NatMapping

instance : Entity NatMapping UInt64 where
  key := id
  identifier? mapping := some mapping.domain
  grants mapping caller := caller.mayActFor mapping.owner

def fields : List Json.Field :=
  [.required "id" Json.unsigned64,
   .required "user_id" Json.unsigned64,
   .required "name" Json.text,
   .required "enabled" Json.boolean,
   .required "server_id" Json.unsigned64,
   .required "host" Json.text,
   .required "domain" Json.text]

def ofRow : Json.Row fields → NatMapping
  | (id, owner, name, enabled, server, host, domain, ()) =>
    { id, owner, name, enabled, server, host, domain }

def toRow (m : NatMapping) : Json.Row fields :=
  (m.id, m.owner, m.name, m.enabled, m.server, m.host, m.domain, ())

def codec : Json.Codec NatMapping := (Json.record "Nat" fields).map ofRow toRow

end NatMapping

/-- The mappings of a fleet. -/
abbrev MappingRoster := Roster (ViewOrder.byKey (V := NatMapping))

end FleetRoster
