/-
Codecs: how values of a type are read from JSON text and written to it. Here are the scalars and
lists; `FleetRoster.Json.Record` has the records.
-/
import FleetRoster.Json.Skip

namespace FleetRoster.Json

/-- How the values of a type are read and written. -/
structure Codec (α : Type) where
  read : Reader α
  write : α → List Char

namespace Codec

/-- Reads one value and nothing but blanks after it. -/
def parse {α : Type} (codec : Codec α) (text : String) : Except Fault α := do
  let (value, rest) ← codec.read text.toList
  if (dropBlanks rest).isEmpty then .ok value else .error .trailingCharacters

/-- The compact text of a value. -/
def render {α : Type} (codec : Codec α) (value : α) : String :=
  String.ofList (codec.write value)

/-- A codec for a type of the same values. -/
def map {α β : Type} (codec : Codec α) (into : α → β) (back : β → α) : Codec β where
  read cs := (codec.read cs).map fun (value, rest) => (into value, rest)
  write value := codec.write (back value)

end Codec

/-- Why a value of another kind cannot be read: its own fault if it is malformed, else its kind. -/
def mismatch (wanted : Wanted) (cs : List Char) : Fault :=
  match cs with
  | [] => .endOfValue
  | c :: rest =>
    let named (letters : List Char) (found : Found) : Fault :=
      match word letters rest with
      | .ok _ => .wrongKind found wanted
      | .error f => f
    let numeric (result : Except Fault (Number × List Char)) : Fault :=
      match result with
      | .ok (n, _) => .wrongKind n.found wanted
      | .error f => f
    if c = 'n' then named ['u', 'l', 'l'] .null
    else if c = 't' then named ['r', 'u', 'e'] (.boolean true)
    else if c = 'f' then named ['a', 'l', 's', 'e'] (.boolean false)
    else if c = '-' then numeric (number false rest)
    else if c.isDigit then numeric (number true (c :: rest))
    else if c = '"' then
      match unquote rest with
      | .ok (s, _) => .wrongKind (.text (String.ofList s)) wanted
      | .error f => f
    else if c = '[' then .wrongKind .list wanted
    else if c = '{' then .wrongKind .object wanted
    else .expectedValue

/-! ## Numbers -/

/-- Reads a number and takes it by `accept`, or reads the fault of anything else. -/
def readNumber {α : Type} (wanted : Wanted) (accept : Number → Except Fault α) : Reader α := fun cs =>
  match dropBlanks cs with
  | [] => .error .endOfValue
  | c :: rest =>
    if c = '-' ∨ c.isDigit then do
      let (n, rest) ← if c = '-' then number false rest else number true (c :: rest)
      .ok (← accept n, rest)
    else .error (mismatch wanted (c :: rest))

def acceptUnsigned64 : Number → Except Fault UInt64
  | .natural n => .ok (UInt64.ofNat n)
  | .negative n => .error (.outOfRange (-n) .unsigned64)
  | .floating bits => .error (.wrongKind (.floating bits) .unsigned64)

/-- Numbers of 64 bits without a sign. -/
def unsigned64 : Codec UInt64 where
  read := readNumber .unsigned64 acceptUnsigned64
  write n := digits n.toNat

def acceptSigned32 : Number → Except Fault Int32
  | .natural n =>
    if n < Nat.pow 2 31 then .ok (Int32.ofNat n) else .error (.outOfRange n .signed32)
  | .negative n =>
    if n ≤ Nat.pow 2 31 then .ok (Int32.ofInt (-n)) else .error (.outOfRange (-n) .signed32)
  | .floating bits => .error (.wrongKind (.floating bits) .signed32)

/-- Numbers of 32 bits with a sign. -/
def signed32 : Codec Int32 where
  read := readNumber .signed32 acceptSigned32
  write n := if n.toInt < 0 then '-' :: digits n.toInt.natAbs else digits n.toInt.natAbs

/-! ## Truth values -/

/-- Reads `true` or `false`. -/
def readBoolean : Reader Bool := fun cs =>
  match dropBlanks cs with
  | 't' :: rest => (word ['r', 'u', 'e'] rest).map fun rest => (true, rest)
  | 'f' :: rest => (word ['a', 'l', 's', 'e'] rest).map fun rest => (false, rest)
  | cs => .error (mismatch .boolean cs)

def boolean : Codec Bool where
  read := readBoolean
  write b := if b then ['t', 'r', 'u', 'e'] else ['f', 'a', 'l', 's', 'e']

/-! ## Text -/

/-- Reads a string. -/
def readText : Reader String := fun cs =>
  match dropBlanks cs with
  | '"' :: rest => (unquote rest).map fun (s, rest) => (String.ofList s, rest)
  | cs => .error (mismatch .text cs)

def text : Codec String where
  read := readText
  write s := quote s.toList

/-! ## Lists -/

/-- Passes over what stands before the next element of a list, `first` telling whether it is the
first one; none if the list ends here. -/
def nextElement? (first : Bool) (cs : List Char) : Except Fault (Option (List Char)) :=
  match dropBlanks cs with
  | [] => .error (.endInside .list)
  | c :: cs =>
    if c = ']' then .ok none
    else if first then .ok (some (c :: cs))
    else if c = ',' then
      match dropBlanks cs with
      | [] => .error .endOfValue
      | c :: cs => if c = ']' then .error .trailingComma else .ok (some (c :: cs))
    else .error (.expectedSeparator .list)

/-- Passes over the end of a list all of whose elements have been read. -/
def closeList (cs : List Char) : Except Fault (List Char) :=
  match dropBlanks cs with
  | [] => .error (.endInside .list)
  | c :: cs =>
    if c = ']' then .ok cs
    else if c = ',' then
      match dropBlanks cs with
      | [] => .error .trailingCharacters
      | c :: _ => .error (if c = ']' then .trailingComma else .trailingCharacters)
    else .error .trailingCharacters

/-- Reads the elements of a list, at most `fuel` of them, through its end; `taken` holds those
read so far, last first. -/
def readElementsWithin {α : Type} (element : Reader α) :
    (fuel : Nat) → (taken : List α) → Reader (List α)
  | 0, _, _ => .error (.endInside .list)
  | fuel + 1, taken, cs =>
    match nextElement? taken.isEmpty cs with
    | .error f => .error f
    | .ok none => (closeList cs).map fun rest => (taken.reverse, rest)
    | .ok (some cs) =>
      match element cs with
      | .ok (value, rest) => readElementsWithin element fuel (value :: taken) rest
      | .error f => .error f

/-- Reads a list of values. -/
def readList {α : Type} (element : Reader α) : Reader (List α) := fun cs =>
  match dropBlanks cs with
  | '[' :: rest => readElementsWithin element (rest.length + 1) [] rest
  | cs => .error (mismatch .list cs)

/-- Texts set in brackets, with commas between them. -/
def bracketed (opening closing : Char) (parts : List (List Char)) : List Char :=
  opening :: [','].intercalate parts ++ [closing]

def list {α : Type} (element : Codec α) : Codec (List α) where
  read := readList element.read
  write values := bracketed '[' ']' (values.map element.write)

end FleetRoster.Json
