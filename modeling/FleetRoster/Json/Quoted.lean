/-
Strings in JSON text: how they are written, and how they are read, escapes and pairs of surrogates
included.
-/
import FleetRoster.Json.Scan

namespace FleetRoster.Json

/-! ## Writing -/

/-- How one character is written inside a string: quotes, backslashes and controls are escaped,
all else stands for itself. -/
def escaped (c : Char) : List Char :=
  if c = '"' then ['\\', '"']
  else if c = '\\' then ['\\', '\\']
  else if c = '\x08' then ['\\', 'b']
  else if c = '\x0c' then ['\\', 'f']
  else if c = '\n' then ['\\', 'n']
  else if c = '\r' then ['\\', 'r']
  else if c = '\t' then ['\\', 't']
  else if c < ' ' then ['\\', 'u', '0', '0', Nat.digitChar (c.toNat / 16), Nat.digitChar (c.toNat % 16)]
  else [c]

/-- A string as JSON text, quotes included. -/
def quote (s : List Char) : List Char := '"' :: s.flatMap escaped ++ ['"']

/-! ## Reading -/

/-- The value of a hexadecimal digit. -/
def hexValue? (c : Char) : Option Nat :=
  if '0' ≤ c ∧ c ≤ '9' then some (c.toNat - '0'.toNat)
  else if 'a' ≤ c ∧ c ≤ 'f' then some (c.toNat - 'a'.toNat + 10)
  else if 'A' ≤ c ∧ c ≤ 'F' then some (c.toNat - 'A'.toNat + 10)
  else none

/-- The number that four hexadecimal digits at the head of the text spell. -/
def hexUnit? : List Char → Option (Nat × List Char)
  | a :: b :: c :: d :: rest => do
    let a ← hexValue? a
    let b ← hexValue? b
    let c ← hexValue? c
    let d ← hexValue? d
    some (((a * 16 + b) * 16 + c) * 16 + d, rest)
  | _ => none

/-- Reads four hexadecimal digits. Fewer than four bytes of text left is an end of the text, else
anything but digits is an invalid escape. -/
def hexUnit (cs : List Char) : Except Fault (Nat × List Char) :=
  match hexUnit? cs with
  | some unit => .ok unit
  | none =>
    if cs.foldl (fun size c => size + c.utf8Size) 0 < 4 then .error .endOfString
    else .error .invalidEscape

def isHighSurrogate (n : Nat) : Bool := 0xd800 ≤ n && n ≤ 0xdbff

def isLowSurrogate (n : Nat) : Bool := 0xdc00 ≤ n && n ≤ 0xdfff

/-- Reads what follows `\u`: the code unit of one character, or the first of a pair of surrogates
and the second, escaped likewise. -/
def unicodeEscape (cs : List Char) : Except Fault (Char × List Char) := do
  let (first, cs) ← hexUnit cs
  if isLowSurrogate first then .error .loneSurrogate
  else if isHighSurrogate first then
    match cs with
    | [] => .error .endOfString
    | '\\' :: cs =>
      match cs with
      | [] => .error .endOfString
      | 'u' :: cs => do
        let (second, cs) ← hexUnit cs
        if isLowSurrogate second then
          .ok (Char.ofNat (0x10000 + (first - 0xd800) * 0x400 + (second - 0xdc00)), cs)
        else .error .loneSurrogate
      | _ => .error .unpairedSurrogate
    | _ => .error .unpairedSurrogate
  else .ok (Char.ofNat first, cs)

/-- The character a one-letter escape stands for. -/
def letterEscape? : Char → Option Char
  | '"' => some '"'
  | '\\' => some '\\'
  | '/' => some '/'
  | 'b' => some '\x08'
  | 'f' => some '\x0c'
  | 'n' => some '\n'
  | 'r' => some '\r'
  | 't' => some '\t'
  | _ => none

/-- Reads what follows a backslash. -/
def escape : List Char → Except Fault (Char × List Char)
  | [] => .error .endOfString
  | 'u' :: cs => unicodeEscape cs
  | c :: cs =>
    match letterEscape? c with
    | some e => .ok (e, cs)
    | none => .error .invalidEscape

/-- Reads the inside of a string through its closing quote, at most `fuel` characters long;
`taken` holds the characters read so far, last first. -/
def unquoteWithin : (fuel : Nat) → (taken : List Char) → Reader (List Char)
  | 0, _, _ => .error .endOfString
  | _ + 1, _, [] => .error .endOfString
  | fuel + 1, taken, c :: cs =>
    if c = '"' then .ok (taken.reverse, cs)
    else if c = '\\' then
      match escape cs with
      | .ok (e, cs) => unquoteWithin fuel (e :: taken) cs
      | .error f => .error f
    else if c < ' ' then .error .controlCharacter
    else unquoteWithin fuel (c :: taken) cs

/-- Reads the inside of a string through its closing quote. -/
def unquote (cs : List Char) : Except Fault (List Char × List Char) :=
  unquoteWithin (cs.length + 1) [] cs

end FleetRoster.Json
