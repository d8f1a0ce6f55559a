import FleetRoster.Fleet
import FleetRoster.Meter.Schedule
import FleetRoster.Settings
import FleetRoster.Store.WriteThrough
import FleetRoster.Proofs.Contents.Rows
import FleetRoster.Proofs.Contents.Index
import FleetRoster.Proofs.Contents.Unique
import FleetRoster.Proofs.Contents.Commute
import FleetRoster.Proofs.Contents.Reads
import FleetRoster.Proofs.Contents.Repeat
import FleetRoster.Proofs.Listing
import FleetRoster.Proofs.Roster.Writes
import FleetRoster.Proofs.Roster.Overlap
import FleetRoster.Proofs.Roster.Identifiers
import FleetRoster.Proofs.Roster.Uniqueness
import FleetRoster.Proofs.Roster.Canonical
import FleetRoster.Proofs.Roster.Nested
import FleetRoster.Proofs.Roster.Duplicates
import FleetRoster.Proofs.Roster.Reached
import FleetRoster.Proofs.Roster.Commuting
import FleetRoster.Proofs.Roster.Stepwise
import FleetRoster.Proofs.Roster.Reads
import FleetRoster.Proofs.Roster.Repeat
import FleetRoster.Proofs.Store.InStep
import FleetRoster.Proofs.Store.Ownership
import FleetRoster.Proofs.Store.Outcome
import FleetRoster.Proofs.AnyListing
import FleetRoster.Proofs.Meter.Pass
import FleetRoster.Proofs.Meter.OnePass
import FleetRoster.Proofs.Meter.Ledger
import FleetRoster.Proofs.Meter.Passes
import FleetRoster.Proofs.Meter.Conservation
import FleetRoster.Proofs.Meter.Bound
import FleetRoster.Proofs.Meter.Independence
import FleetRoster.Proofs.Meter.Waiting
import FleetRoster.Proofs.Json.Scalars
import FleetRoster.Proofs.Json.Records
import FleetRoster.Proofs.Json.Grammar
import FleetRoster.Proofs.Json.Layout
import FleetRoster.Proofs.Json.AnyOrder
import FleetRoster.Proofs.Json.Definite
import FleetRoster.Proofs.Json.Containers
import FleetRoster.Proofs.Record.RoundTrip
import FleetRoster.Proofs.Record.AnyLayout
import FleetRoster.Proofs.Severity
import FleetRoster.Proofs.Settings
