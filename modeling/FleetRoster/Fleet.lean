/-
The fleet: its servers, dynamic DNS profiles and mappings, loaded together.
-/
import FleetRoster.Record.DdnsProfile
import FleetRoster.Record.NatMapping
import FleetRoster.Record.Server
import FleetRoster.Store

namespace FleetRoster

structure Fleet where
  servers : ServerRoster
  profiles : ProfileRoster
  mappings : MappingRoster

namespace Fleet

/-- Builds the rosters of the three collections; there is no fleet unless all of them load, and
the first that does not is the one reported. -/
def load {σ τ υ : Type} [Store σ Server UInt64] [Store τ DdnsProfile UInt64]
    [Store υ NatMapping UInt64] (servers : σ) (profiles : τ) (mappings : υ) : Except Fault Fleet := do
  let servers ← Roster.load Server.order servers
  let profiles ← Roster.load ViewOrder.byKey profiles
  let mappings ← Roster.load ViewOrder.byKey mappings
  .ok { servers, profiles, mappings }

/-- The profiles of the ids, in their order, or the first id that has none. -/
def profilesOf (fleet : Fleet) (ids : List UInt64) : Except Fault (List DdnsProfile) :=
  fleet.profiles.getMany ids

/-- The mapping that serves a domain. -/
def mappingFor? (fleet : Fleet) (domain : String) : Option NatMapping :=
  fleet.mappings.identified? domain

/-- The server whose agent calls itself `uuid`. -/
def serverOf? (fleet : Fleet) (uuid : String) : Option Server :=
  fleet.servers.identified? uuid

end Fleet

end FleetRoster
