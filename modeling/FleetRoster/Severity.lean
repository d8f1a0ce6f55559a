/-
Severities of log messages, their spellings, and the one logger a process may have.
-/
import FleetRoster.Fault

namespace FleetRoster

/-- How severe a message must be to be logged. -/
inductive Severity where
  | error
  | warn
  | info
  | debug
  | trace
  deriving DecidableEq

namespace Severity

/-- The number that digits spell, with a plus sign or without; none if there is no digit or
anything else. -/
def number? (cs : List Char) : Option Nat :=
  let digits := match cs with
    | '+' :: cs => cs
    | cs => cs
  if digits.isEmpty ∨ ¬digits.all Char.isDigit then none
  else some (digits.foldl (fun n c => n * 10 + (c.toNat - '0'.toNat)) 0)

/-- Severities are numbered from one, the most severe. -/
def ofNumber? : Nat → Option Severity
  | 1 => some .error
  | 2 => some .warn
  | 3 => some .info
  | 4 => some .debug
  | 5 => some .trace
  | _ => none

/-- Severities are named, in ASCII letters of either case. -/
def ofName? (cs : List Char) : Option Severity :=
  let name := String.ofList (cs.map Char.toLower)
  if name = "error" then some .error
  else if name = "warn" then some .warn
  else if name = "info" then some .info
  else if name = "debug" then some .debug
  else if name = "trace" then some .trace
  else none

/-- The severity a text spells, as a number or by name, with nothing around it. -/
def ofString? (s : String) : Option Severity :=
  match number? s.toList with
  | some n => ofNumber? n
  | none => ofName? s.toList

end Severity

/-- Sets up logging at the named severity, given the severity of the logger that the process
already has, if any: there can be no second one. -/
def startLogging (running : Option Severity) (level : String) : Except Fault Severity :=
  match Severity.ofString? level with
  | none => .error (.settings (.unknownLevel level))
  | some severity =>
    if running.isSome then .error (.settings .loggingInUse) else .ok severity

end FleetRoster
