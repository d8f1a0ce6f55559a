/-
Persisted collections, and the one that is kept in memory. The rows of a collection are loaded
once, when its roster is built; afterwards the collection is only written.
-/
import FleetRoster.Roster

namespace FleetRoster

open Std

/-- Collections of rows that outlive the process. A refused write may still change the
collection. -/
class Store (σ : Type) (V κ : outParam Type) [Key κ] [Entity V κ] where
  /-- Every row, in the order the collection has them. -/
  load : σ → Except Fault (List V)
  /-- Installs a row under its key. -/
  save : σ → V → Except Fault Unit × σ
  /-- Removes the rows of the keys, as far as there are any. -/
  delete : σ → List κ → Except Fault Unit × σ

/-- Builds the roster of a collection. -/
def Roster.load {σ V κ : Type} [Key κ] [Entity V κ] [Store σ V κ] (order : ViewOrder V)
    (store : σ) : Except Fault (Roster order) :=
  (Store.load store).map Roster.ofList

/-- A collection in memory. It refuses writes while it is read-only. -/
@[ext]
structure MemoryStore (V κ : Type) [Key κ] where
  rows : ExtTreeMap κ V := ∅
  readOnly : Bool := false

namespace MemoryStore

variable {V κ : Type} [Key κ] [Entity V κ]

/-- The collection of a list of rows, a later row replacing an earlier one of its key. -/
def ofList (rows : List V) : MemoryStore V κ where
  rows := rows.foldl (fun rows row => rows.insert (Entity.key row) row) ∅

def get? (s : MemoryStore V κ) (key : κ) : Option V := s.rows[key]?

def size (s : MemoryStore V κ) : Nat := s.rows.size

/-- The rows by ascending key. -/
def toList (s : MemoryStore V κ) : List V := s.rows.values

/-- Changes the rows, unless the collection is read-only. -/
def change (s : MemoryStore V κ) (f : ExtTreeMap κ V → ExtTreeMap κ V) :
    Except Fault Unit × MemoryStore V κ :=
  if s.readOnly then (.error (.store .readOnly), s) else (.ok (), { s with rows := f s.rows })

def save (s : MemoryStore V κ) (row : V) : Except Fault Unit × MemoryStore V κ :=
  s.change fun rows => rows.insert (Entity.key row) row

def delete (s : MemoryStore V κ) (keys : List κ) : Except Fault Unit × MemoryStore V κ :=
  s.change fun rows => keys.foldl ExtTreeMap.erase rows

instance : Store (MemoryStore V κ) V κ where
  load s := .ok s.toList
  save := save
  delete := delete

end MemoryStore

end FleetRoster
