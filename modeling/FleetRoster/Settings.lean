/-
Settings of the process, read from JSON. What is left out has its default; a zero interval and an
unknown log level are refused, the interval first.
-/
import FleetRoster.Json.Record
import FleetRoster.Severity

namespace FleetRoster

@[ext]
structure Settings where
  /-- Seconds between two passes over the traffic counters. -/
  interval : UInt64 := 3600
  /-- Whether one last pass is made when metering is stopped. -/
  passOnStop : Bool := true
  /-- The severity to log at, as spelled. -/
  logLevel : String := "info"
  deriving DecidableEq

/-- A file to read settings from. -/
inductive SettingsFile where
  | missing
  | directory
  | content (bytes : ByteArray)

namespace Settings

def fields : List Json.Field :=
  let default : Settings := {}
  [.optional "refresh_interval_secs" Json.unsigned64 default.interval,
   .optional "record_on_shutdown" Json.boolean default.passOnStop,
   .optional "log_level" Json.text default.logLevel]

def ofRow : Json.Row fields → Settings
  | (interval, passOnStop, logLevel, ()) => { interval, passOnStop, logLevel }

def toRow (s : Settings) : Json.Row fields := (s.interval, s.passOnStop, s.logLevel, ())

def codec : Json.Codec Settings := (Json.record "Config" fields).map ofRow toRow

/-- Refuses settings that cannot be put to use. -/
def validate (s : Settings) : Except Fault Unit :=
  if s.interval = 0 then .error (.settings .zeroInterval)
  else if (Severity.ofString? s.logLevel).isNone then .error (.settings (.unknownLevel s.logLevel))
  else .ok ()

/-- Reads settings from JSON text and validates them. -/
def ofJson (text : String) : Except Fault Settings := do
  let settings ← (codec.parse text).mapError fun fault => .settings (.malformed fault)
  settings.validate
  .ok settings

/-- Reads settings from a file. -/
def ofFile : SettingsFile → Except Fault Settings
  | .missing => .error (.settings .noSuchFile)
  | .directory => .error (.settings .isDirectory)
  | .content bytes =>
    match String.fromUTF8? bytes with
    | none => .error (.settings .notUnicode)
    | some text => ofJson text

/-- Seconds between two passes; the default stands in for zero, with which no time would pass. -/
def period (s : Settings) : Nat :=
  if s.interval = 0 then ({} : Settings).interval.toNat else s.interval.toNat

end Settings

end FleetRoster
