/-
What can go wrong, as causes, and the sentence each is reported in. Reading a roster never fails
on its own account; these are the checks made on a caller's behalf, the persisted collections and
the settings.
-/
import FleetRoster.Json.Fault

namespace FleetRoster

/-- Why a persisted collection or a destination of usage records refused. -/
inductive StoreFault where
  | readOnly
  | sinkClosed
  | failed (reason : String)
  deriving DecidableEq

/-- Why settings were refused. -/
inductive SettingsFault where
  | malformed (fault : Json.Fault)
  | zeroInterval
  | unknownLevel (name : String)
  | noSuchFile
  | isDirectory
  | notUnicode
  | loggingInUse
  | stated (reason : String)
  deriving DecidableEq

inductive Fault where
  /-- No row has this key. -/
  | missing (key : UInt64)
  /-- The identifier belongs to the row of another key. -/
  | taken (identifier : String) (holder : UInt64)
  /-- The caller may not act on one of the rows. -/
  | denied
  | store (fault : StoreFault)
  | settings (fault : SettingsFault)
  deriving DecidableEq

def StoreFault.message : StoreFault → String
  | .readOnly => "writes disabled"
  | .sinkClosed => "transfer sink unavailable"
  | .failed reason => reason

def SettingsFault.message : SettingsFault → String
  | .malformed fault => fault.message
  | .zeroInterval => "refresh_interval_secs must be positive"
  | .unknownLevel name => "unknown log level '" ++ name ++ "'"
  | .noSuchFile => "No such file or directory (os error 2)"
  | .isDirectory => "Is a directory (os error 21)"
  | .notUnicode => "stream did not contain valid UTF-8"
  | .loggingInUse => "a global default trace dispatcher has already been set"
  | .stated reason => reason

/-- The sentence a fault is reported in. -/
def Fault.message : Fault → String
  | .missing key => "entity " ++ key.toNat.repr ++ " not found"
  | .taken identifier holder =>
    "secondary key '" ++ identifier ++ "' already held by entity " ++ holder.toNat.repr
  | .denied => "permission denied"
  | .store fault => "store error: " ++ fault.message
  | .settings fault => "config error: " ++ fault.message

end FleetRoster
