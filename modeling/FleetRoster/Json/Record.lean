/-
Records: rows of named fields. A record is written as an object with its fields in the order they
are declared. It is read from an object, whose members may stand in any order and may have others
among them, or from a list of the fields' values in the order they are declared. A field that has
a default may be left out.
-/
import FleetRoster.Json.Codec

namespace FleetRoster.Json

/-- A field of a record: its name, the type and codec of its values, and the value it has when it
is left out, if it may be. -/
structure Field where
  name : String
  Value : Type
  codec : Codec Value
  default? : Option Value

/-- A field that has to be given. -/
def Field.required {α : Type} (name : String) (codec : Codec α) : Field :=
  ⟨name, α, codec, none⟩

/-- A field that has the value `value` when it is left out. -/
def Field.optional {α : Type} (name : String) (codec : Codec α) (value : α) : Field :=
  ⟨name, α, codec, some value⟩

/-- The values of a record's fields. -/
def Row : List Field → Type
  | [] => Unit
  | field :: fields => field.Value × Row fields

/-- The values of a record's fields that have been read so far. -/
def Slots : List Field → Type
  | [] => Unit
  | field :: fields => Option field.Value × Slots fields

/-- Nothing read yet. -/
def Slots.empty : (fields : List Field) → Slots fields
  | [] => ()
  | _ :: fields => (none, Slots.empty fields)

/-- The row, with defaults for what has not been read; the first field missing without a default
is a fault. -/
def Slots.row : (fields : List Field) → Slots fields → Except Fault (Row fields)
  | [], () => .ok ()
  | field :: fields, (slot, slots) =>
    match slot <|> field.default? with
    | none => .error (.missingField field.name)
    | some value => (Slots.row fields slots).map fun row => (value, row)

/-! ## Objects -/

/-- Reads what follows a member's name, into the field of that name if there is one; a field read
before is a fault, and a member of no field is passed over. -/
def readMember (name : String) : (fields : List Field) → Slots fields → Reader (Slots fields)
  | [], (), cs => do
    let cs ← colon cs
    let cs ← skip cs
    .ok ((), cs)
  | field :: fields, (slot, slots), cs =>
    if name = field.name then
      if slot.isSome then .error (.repeatedField field.name)
      else do
        let cs ← colon cs
        let (value, cs) ← field.codec.read cs
        .ok ((some value, slots), cs)
    else do
      let (slots, cs) ← readMember name fields slots cs
      .ok ((slot, slots), cs)

/-- Passes over what stands before the next member's name in an object, its opening quote
included, or over the end of the object; tells whether there is a next member. -/
def nextMember (first : Bool) (cs : List Char) : Except Fault (Bool × List Char) :=
  let name (c : Char) (cs : List Char) : Except Fault (Bool × List Char) :=
    if c = '"' then .ok (true, cs) else .error .keyNotString
  match dropBlanks cs with
  | [] => .error (.endInside .object)
  | c :: cs =>
    if c = '}' then .ok (false, cs)
    else if first then name c cs
    else if c = ',' then
      match dropBlanks cs with
      | [] => .error .endOfValue
      | c :: cs => if c = '}' then .error .trailingComma else name c cs
    else .error (.expectedSeparator .object)

/-- Reads the members of an object, at most `fuel` of them, through its end. -/
def readMembersWithin (fields : List Field) :
    (fuel : Nat) → (first : Bool) → Slots fields → Reader (Slots fields)
  | 0, _, _, _ => .error (.endInside .object)
  | fuel + 1, first, slots, cs =>
    match nextMember first cs with
    | .error f => .error f
    | .ok (false, cs) => .ok (slots, cs)
    | .ok (true, cs) =>
      match unquote cs with
      | .error f => .error f
      | .ok (name, cs) =>
        match readMember (String.ofList name) fields slots cs with
        | .error f => .error f
        | .ok (slots, cs) => readMembersWithin fields fuel false slots cs

/-! ## Lists -/

/-- The row whose fields are all left out; the first one without a default is a fault, `count`
being the number of fields before these. -/
def defaultRow (title : String) (total : Nat) : (count : Nat) → (fields : List Field) →
    Except Fault (Row fields)
  | _, [] => .ok ()
  | count, field :: fields =>
    match field.default? with
    | none => .error (.tooShort count title total)
    | some value => (defaultRow title total (count + 1) fields).map fun row => (value, row)

/-- Reads a record's fields from the elements of a list, `count` of them having been read. -/
def readFields (title : String) (total : Nat) : (count : Nat) → (fields : List Field) →
    Reader (Row fields)
  | _, [], cs => .ok ((), cs)
  | count, field :: fields, cs =>
    match nextElement? (count = 0) cs with
    | .error f => .error f
    | .ok none => (defaultRow title total count (field :: fields)).map fun row => (row, cs)
    | .ok (some cs) => do
      let (value, cs) ← field.codec.read cs
      let (row, cs) ← readFields title total (count + 1) fields cs
      .ok ((value, row), cs)

/-! ## Records -/

/-- Reads a record from an object or a list. -/
def readRecord (title : String) (fields : List Field) : Reader (Row fields) := fun cs =>
  match dropBlanks cs with
  | '{' :: cs => do
    let (slots, cs) ← readMembersWithin fields (cs.length + 1) true (Slots.empty fields) cs
    let row ← slots.row
    .ok (row, cs)
  | '[' :: cs => do
    let (row, cs) ← readFields title fields.length 0 fields cs
    let cs ← closeList cs
    .ok (row, cs)
  | cs => .error (mismatch (.record title) cs)

/-- The texts of a row's values, in the order of the fields. -/
def Row.values : (fields : List Field) → Row fields → List (List Char)
  | [], () => []
  | field :: fields, (value, row) => field.codec.write value :: Row.values fields row

/-- A member of an object: its name, a colon, and the text of its value. -/
def member (name : String) (value : List Char) : List Char :=
  quote name.toList ++ ':' :: value

/-- The texts of a row's members, in the order of the fields. -/
def Row.members : (fields : List Field) → Row fields → List (List Char)
  | [], () => []
  | field :: fields, (value, row) =>
    member field.name (field.codec.write value) :: Row.members fields row

/-- A row as a list of its values. -/
def Row.asList (fields : List Field) (row : Row fields) : List Char :=
  bracketed '[' ']' (row.values)

/-- A row as an object. -/
def Row.asObject (fields : List Field) (row : Row fields) : List Char :=
  bracketed '{' '}' (row.members)

/-- Records of the given fields, called `title` in messages. -/
def record (title : String) (fields : List Field) : Codec (Row fields) where
  read := readRecord title fields
  write := Row.asObject fields

end FleetRoster.Json
