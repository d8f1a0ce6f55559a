/-
Passing over a value nobody wants. Only its grammar is checked: numbers have no range, escaped
surrogates need no partner, and containers nest to any depth, the open ones being kept in a list.
-/
import FleetRoster.Json.Number
import FleetRoster.Json.Quoted

namespace FleetRoster.Json

/-! ## Scalars -/

/-- Passes over what follows a backslash in a string. -/
def skipEscape : List Char → Except Fault (List Char)
  | [] => .error .endOfString
  | 'u' :: cs => (hexUnit cs).map Prod.snd
  | c :: cs => if (letterEscape? c).isSome then .ok cs else .error .invalidEscape

/-- Passes over the inside of a string, through its closing quote, at most `fuel` characters long. -/
def skipQuotedWithin : (fuel : Nat) → List Char → Except Fault (List Char)
  | 0, _ => .error .endOfString
  | _ + 1, [] => .error .endOfString
  | fuel + 1, c :: cs =>
    if c = '"' then .ok cs
    else if c = '\\' then
      match skipEscape cs with
      | .ok cs => skipQuotedWithin fuel cs
      | .error f => .error f
    else if c < ' ' then .error .controlCharacter
    else skipQuotedWithin fuel cs

/-- Passes over the inside of a string, through its closing quote. -/
def skipQuoted (cs : List Char) : Except Fault (List Char) := skipQuotedWithin (cs.length + 1) cs

/-- Passes over at least one digit. -/
def skipDigits (cs : List Char) : Except Fault (List Char) :=
  if startsWithDigit cs then .ok (dropDigits cs) else .error .invalidNumber

/-- Passes over an exponent part if there is one. -/
def skipExponent : List Char → Except Fault (List Char)
  | [] => .ok []
  | c :: cs =>
    if c = 'e' ∨ c = 'E' then
      match cs with
      | '+' :: cs => skipDigits cs
      | '-' :: cs => skipDigits cs
      | cs => skipDigits cs
    else .ok (c :: cs)

/-- Passes over a fraction part if there is one. -/
def skipFraction : List Char → Except Fault (List Char)
  | '.' :: cs => skipDigits cs
  | cs => .ok cs

/-- Passes over a number after its sign. -/
def skipNumber (cs : List Char) : Except Fault (List Char) := do
  let cs ← match cs with
    | '0' :: cs => if startsWithDigit cs then .error .invalidNumber else .ok cs
    | cs => skipDigits cs
  let cs ← skipFraction cs
  skipExponent cs

/-- Passes over a value that is no container. -/
def skipScalar (c : Char) (cs : List Char) : Except Fault (List Char) :=
  if c = 'n' then word ['u', 'l', 'l'] cs
  else if c = 't' then word ['r', 'u', 'e'] cs
  else if c = 'f' then word ['a', 'l', 's', 'e'] cs
  else if c = '"' then skipQuoted cs
  else if c = '-' then skipNumber cs
  else if c.isDigit then skipNumber (c :: cs)
  else .error .expectedValue

/-! ## Containers -/

/-- The character that ends a container. -/
def Bracket.closer : Bracket → Char
  | .list => ']'
  | .object => '}'

/-- Passes over what stands before a value in a container: nothing in a list, the member's name
and a colon in an object. -/
def skipLabel (container : Bracket) (cs : List Char) : Except Fault (List Char) :=
  match container with
  | .list => .ok cs
  | .object =>
    match dropBlanks cs with
    | [] => .error (.endInside .object)
    | '"' :: cs => do colon (← skipQuoted cs)
    | _ => .error .keyNotString

/-- Where in a container the text stands. -/
inductive Place where
  /-- A value follows. -/
  | beforeValue
  /-- The innermost open container has just been opened. -/
  | opened
  /-- A value has just ended. -/
  | afterValue
  deriving DecidableEq

/-- Passes over the rest of a value, the innermost of the open containers first, in at most `fuel`
steps; every step but an opening takes a character. -/
def skipWithin : (fuel : Nat) → Place → (opened : List Bracket) → List Char →
    Except Fault (List Char)
  | 0, _, _, _ => .error .endOfValue
  | fuel + 1, .beforeValue, opened, cs =>
    match dropBlanks cs with
    | [] => .error .endOfValue
    | '[' :: cs => skipWithin fuel .opened (.list :: opened) cs
    | '{' :: cs => skipWithin fuel .opened (.object :: opened) cs
    | c :: cs =>
      match skipScalar c cs with
      | .ok cs => skipWithin fuel .afterValue opened cs
      | .error f => .error f
  | _ + 1, _, [], cs => .ok cs
  | fuel + 1, place, container :: outer, cs =>
    match dropBlanks cs with
    | [] => .error (.endInside container)
    | c :: cs =>
      if c = container.closer then skipWithin fuel .afterValue outer cs
      else if place = .opened ∨ c = ',' then
        match skipLabel container (if place = .opened then c :: cs else cs) with
        | .ok cs => skipWithin fuel .beforeValue (container :: outer) cs
        | .error f => .error f
      else .error (.expectedSeparator container)

/-- Passes over one value. -/
def skip (cs : List Char) : Except Fault (List Char) :=
  skipWithin (2 * cs.length + 2) .beforeValue [] cs

end FleetRoster.Json
