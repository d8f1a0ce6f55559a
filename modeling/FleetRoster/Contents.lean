/-
The rows of a roster by key, and the index of their identifiers. Writing a row takes its
identifier over from whichever key held it before; an index entry is given up only by the key it
belongs to, so a row whose identifier has been taken over no longer disturbs the index.
-/
import FleetRoster.Entity
import FleetRoster.Fault

namespace FleetRoster

open Std

/-- Rows by key, and the key each identifier belongs to. -/
@[ext]
structure Contents (V κ : Type) [Key κ] where
  rows : ExtTreeMap κ V := ∅
  index : ExtTreeMap String κ := ∅

/-- A change of a roster's contents. -/
inductive Write (V κ : Type) where
  /-- Install a row under its key. -/
  | put (row : V)
  /-- Remove the rows of the keys, as far as there are any. -/
  | drop (keys : List κ)

namespace Contents

variable {V κ : Type} [Key κ] [Entity V κ]

/-! ## Changes -/

/-- The index without the entry of an identifier, if it belongs to the key. -/
def release (index : ExtTreeMap String κ) (id? : Option String) (key : κ) : ExtTreeMap String κ :=
  match id? with
  | none => index
  | some id => if index[id]? = some key then index.erase id else index

/-- The index with an identifier belonging to the key. -/
def claim (index : ExtTreeMap String κ) (id? : Option String) (key : κ) : ExtTreeMap String κ :=
  match id? with
  | none => index
  | some id => index.insert id key

/-- The identifier that the row of a key is found under. -/
def identifierOf? (c : Contents V κ) (key : κ) : Option String :=
  c.rows[key]?.bind Entity.indexed?

/-- Installs a row under its key: the row before it gives up its identifier, and the new row takes
its own over. -/
def put (c : Contents V κ) (row : V) : Contents V κ :=
  let key := Entity.key row
  { rows := c.rows.insert key row
    index := claim (release c.index (c.identifierOf? key) key) (Entity.indexed? row) key }

/-- Removes the row of a key, which gives up its identifier. -/
def remove (c : Contents V κ) (key : κ) : Contents V κ :=
  { rows := c.rows.erase key
    index := release c.index (c.identifierOf? key) key }

def apply (c : Contents V κ) : Write V κ → Contents V κ
  | .put row => c.put row
  | .drop keys => keys.foldl remove c

/-- The rows of a list, installed one after the other. -/
def ofList (rows : List V) : Contents V κ := rows.foldl put {}

/-! ## Reads -/

def get? (c : Contents V κ) (key : κ) : Option V := c.rows[key]?

/-- Every key with its row, by ascending key. -/
def toList (c : Contents V κ) : List (κ × V) := c.rows.toList

def size (c : Contents V κ) : Nat := c.rows.size

def isEmpty (c : Contents V κ) : Bool := c.size = 0

/-- The rows of the keys, in their order, or the first key that has none. -/
def getMany (c : Contents V κ) (keys : List κ) : Except Fault (List V) :=
  keys.mapM fun key =>
    match c.get? key with
    | some row => .ok row
    | none => .error (.missing (Key.number key))

/-- Goes through keys and rows until `visit` is done. -/
def visitAll {σ : Type} (visit : κ → V → σ → ForInStep σ) : List (κ × V) → σ → σ
  | [], s => s
  | (key, row) :: rest, s =>
    match visit key row s with
    | .done s => s
    | .yield s => visitAll visit rest s

/-- Visits the rows until `visit` is done. -/
def visit {σ : Type} (c : Contents V κ) (visit : κ → V → σ → ForInStep σ) (init : σ) : σ :=
  visitAll visit c.toList init

/-- Whether the caller may act on the rows of all the keys; a key without a row denies nothing. -/
def permits (c : Contents V κ) (caller : Caller) (keys : List κ) : Bool :=
  keys.all fun key =>
    match c.get? key with
    | some row => Entity.grants row caller
    | none => true

/-- The key an identifier belongs to. -/
def holder? (c : Contents V κ) (id : String) : Option κ := c.index[id]?

/-- The row an identifier belongs to. -/
def identified? (c : Contents V κ) (id : String) : Option V :=
  (c.holder? id).bind c.get?

/-- Checks, before a row with this identifier is written under the key, that the identifier
belongs to no other. -/
def ensureFree (c : Contents V κ) (id : String) (key : κ) : Except Fault Unit :=
  match c.holder? id with
  | some holder => if holder = key then .ok () else .error (.taken id (Key.number holder))
  | none => .ok ()

end Contents

end FleetRoster
