/-
Profiles for updating dynamic DNS entries. They are found by key only.
-/
import FleetRoster.Json.Record
import FleetRoster.Roster

namespace FleetRoster

/-- How the DNS entries of some domains are kept up to date. -/
structure DdnsProfile where
  id : UInt64 := 0
  owner : UInt64 := 0
  name : String := ""
  provider : String := ""
  domains : List String := []
  maxRetries : UInt64 := 0
  ipv4 : Bool := false
  ipv6 : Bool := false
  deriving DecidableEq

namespace DdnsProfile

instance : Entity DdnsProfile UInt64 where
  key := id
  grants profile caller := caller.mayActFor profile.owner

def fields : List Json.Field :=
  [.required "id" Json.unsigned64,
   .required "user_id" Json.unsigned64,
   .required "name" Json.text,
   .required "provider" Json.text,
   .required "domains" (Json.list Json.text),
   .required "max_retries" Json.unsigned64,
   .required "enable_ipv4" Json.boolean,
   .required "enable_ipv6" Json.boolean]

def ofRow : Json.Row fields → DdnsProfile
  | (id, owner, name, provider, domains, maxRetries, ipv4, ipv6, ()) =>
    { id, owner, name, provider, domains, maxRetries, ipv4, ipv6 }

def toRow (p : DdnsProfile) : Json.Row fields :=
  (p.id, p.owner, p.name, p.provider, p.domains, p.maxRetries, p.ipv4, p.ipv6, ())

def codec : Json.Codec DdnsProfile := (Json.record "DdnsProfile" fields).map ofRow toRow

end DdnsProfile

/-- The dynamic DNS profiles of a fleet. -/
abbrev ProfileRoster := Roster (ViewOrder.byKey (V := DdnsProfile))

end FleetRoster
