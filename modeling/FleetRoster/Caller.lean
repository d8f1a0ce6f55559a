/-
Callers and what they may touch: an administrator everything, a member only what it owns.
-/
namespace FleetRoster

/-- The standing of a caller. -/
inductive Role where
  | admin
  | member
  deriving DecidableEq

/-- Whoever reads or writes. -/
structure Caller where
  user : UInt64
  role : Role
  deriving DecidableEq

def Caller.isAdmin (caller : Caller) : Bool := caller.role = .admin

/-- Whether the caller may act on what `owner` owns. -/
def Caller.mayActFor (caller : Caller) (owner : UInt64) : Bool :=
  caller.isAdmin || caller.user = owner

end FleetRoster
