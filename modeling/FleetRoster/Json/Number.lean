/-
Numbers in JSON text. A number without a fraction or an exponent that fits 64 bits is read exactly;
any other is read as a double, from the digits that fit 64 bits and a power of ten.
-/
import FleetRoster.Json.Scan

namespace FleetRoster.Json

/-- The decimal digits of a number. -/
def digits (n : Nat) : List Char := Nat.toDigits 10 n

/-- A number as read: a whole number of the 64-bit ranges, or else a double. -/
inductive Number where
  | natural (n : Nat)
  | negative (n : Nat)
  | floating (bits : UInt64)

def Number.found : Number → Found
  | .natural n => .integer n
  | .negative n => .integer (-n)
  | .floating bits => .floating bits

def digitValue (c : Char) : Nat := c.toNat - '0'.toNat

def startsWithDigit : List Char → Bool
  | [] => false
  | c :: _ => c.isDigit

/-- Reads decimal digits while the value stays within `limit`: the value, how many digits were
read, and the rest. -/
def digitsWithin (limit : Nat) : (value count : Nat) → List Char → Nat × Nat × List Char
  | value, count, [] => (value, count, [])
  | value, count, c :: cs =>
    if c.isDigit && value * 10 + digitValue c ≤ limit then
      digitsWithin limit (value * 10 + digitValue c) (count + 1) cs
    else (value, count, c :: cs)

def dropDigits (cs : List Char) : List Char := cs.dropWhile Char.isDigit

/-- `f · 10^exponent` for a nonnegative `f`, by steps of at most `10^308`; none if it overflows. -/
def scaled? : (steps : Nat) → (f : Float) → (exponent : Int) → Option Float
  | 0, f, _ => some f
  | steps + 1, f, exponent =>
    let tenTo (n : Nat) : Float := Float.ofScientific 1 false n
    if exponent.natAbs ≤ 308 then
      if 0 ≤ exponent then
        let g := f * tenTo exponent.natAbs
        if g.isInf then none else some g
      else some (f / tenTo exponent.natAbs)
    else if f == 0 then some f
    else if 0 ≤ exponent then none
    else scaled? steps (f / tenTo 308) (exponent + 308)

/-- The double `significand · 10^exponent`; three steps take every 64-bit significand to zero. -/
def floatOf (positive : Bool) (significand : Nat) (exponent : Int) : Except Fault Number :=
  match scaled? 4 (UInt64.ofNat significand).toFloat exponent with
  | none => .error .numberOutOfRange
  | some f => .ok (.floating (if positive then f else -f).toBits)

/-- Reads what follows the `e` of a number. -/
def exponentPart (positive : Bool) (significand : Nat) (start : Int) (cs : List Char) :
    Except Fault (Number × List Char) :=
  let (up, cs) := match cs with
    | '+' :: cs => (true, cs)
    | '-' :: cs => (false, cs)
    | cs => (true, cs)
  match digitsWithin (Nat.pow 2 31 - 1) 0 0 cs with
  | (_, 0, []) => .error .endOfValue
  | (_, 0, _ :: _) => .error .invalidNumber
  | (exponent, _ + 1, rest) =>
    if startsWithDigit rest then
      if significand ≠ 0 ∧ up then .error .numberOutOfRange
      else .ok (.floating (if positive then 0.0 else -0.0 : Float).toBits, dropDigits rest)
    else do
      let number ← floatOf positive significand (if up then start + exponent else start - exponent)
      .ok (number, rest)

/-- Reads an exponent part if there is one. -/
def scalePart (positive : Bool) (significand : Nat) (exponent : Int) (cs : List Char) :
    Except Fault (Number × List Char) :=
  match cs with
  | 'e' :: cs => exponentPart positive significand exponent cs
  | 'E' :: cs => exponentPart positive significand exponent cs
  | cs => do
    let number ← floatOf positive significand exponent
    .ok (number, cs)

/-- Reads what follows the point of a number; digits beyond 64 bits are dropped. -/
def fractionPart (positive : Bool) (significand : Nat) (exponent : Int) (cs : List Char) :
    Except Fault (Number × List Char) :=
  let (significand, count, rest) := digitsWithin (Nat.pow 2 64 - 1) significand 0 cs
  if count = 0 ∧ ¬startsWithDigit rest then
    .error (if rest.isEmpty then .endOfValue else .invalidNumber)
  else scalePart positive significand (exponent - count) (dropDigits rest)

/-- A whole number as read: minus zero and what is below `-2^63` become doubles. -/
def whole (positive : Bool) (n : Nat) : Number :=
  if positive then .natural n
  else if n = 0 ∨ Nat.pow 2 63 < n then .floating (-(UInt64.ofNat n).toFloat).toBits
  else .negative n

/-- Reads a number after its sign. -/
def number (positive : Bool) : Reader Number
  | [] => .error .endOfValue
  | c :: cs =>
    if ¬c.isDigit then .error .invalidNumber
    else if c = '0' ∧ startsWithDigit cs then .error .invalidNumber
    else
      let (n, _, rest) := digitsWithin (Nat.pow 2 64 - 1) 0 0 (c :: cs)
      let dropped := (rest.takeWhile Char.isDigit).length
      match dropDigits rest with
      | '.' :: cs => fractionPart positive n dropped cs
      | 'e' :: cs => exponentPart positive n dropped cs
      | 'E' :: cs => exponentPart positive n dropped cs
      | cs =>
        if dropped = 0 then .ok (whole positive n, cs)
        else do
          let number ← floatOf positive n dropped
          .ok (number, cs)

end FleetRoster.Json
