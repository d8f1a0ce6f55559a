/-
Why a JSON text cannot be read, as causes, and the sentence each cause is reported in.
-/
import FleetRoster.Decimal.Shortest
import FleetRoster.Text.Quoted

namespace FleetRoster.Json

/-- What a value of the wrong kind turned out to be. -/
inductive Found where
  | null
  | boolean (b : Bool)
  | integer (n : Int)
  | floating (bits : UInt64)
  | text (s : String)
  | list
  | object
  deriving DecidableEq

/-- The kind of value a reader wants. -/
inductive Wanted where
  | unsigned64
  | signed32
  | boolean
  | text
  | list
  | record (title : String)
  deriving DecidableEq

/-- The two bracketed containers. -/
inductive Bracket where
  | list
  | object
  deriving DecidableEq

/-- Why a text was refused. -/
inductive Fault where
  | endOfValue
  | endOfString
  | endInside (container : Bracket)
  | expectedValue
  | expectedWord
  | expectedColon
  | expectedSeparator (container : Bracket)
  | keyNotString
  | trailingComma
  | trailingCharacters
  | invalidNumber
  | numberOutOfRange
  | controlCharacter
  | invalidEscape
  | loneSurrogate
  | unpairedSurrogate
  | wrongKind (found : Found) (wanted : Wanted)
  | outOfRange (n : Int) (wanted : Wanted)
  | tooShort (elements : Nat) (title : String) (fields : Nat)
  | missingField (name : String)
  | repeatedField (name : String)
  deriving DecidableEq

/-- Numbers in messages: positional from `10^-5` up to below `10^16`, else with an exponent. -/
def Found.floatLayout : Decimal.Layout := ⟨-5, 15⟩

def Found.describe : Found → String
  | .null => "null"
  | .boolean b => "boolean `" ++ (if b then "true" else "false") ++ "`"
  | .integer n => "integer `" ++ n.repr ++ "`"
  | .floating bits => "floating point `" ++ String.ofList (Found.floatLayout.renderBits bits) ++ "`"
  | .text s => "string " ++ Text.quoted s
  | .list => "sequence"
  | .object => "map"

def Wanted.describe : Wanted → String
  | .unsigned64 => "u64"
  | .signed32 => "i32"
  | .boolean => "a boolean"
  | .text => "a string"
  | .list => "a sequence"
  | .record title => "struct " ++ title

/-- The sentence a fault is reported in. -/
def Fault.message : Fault → String
  | .endOfValue => "EOF while parsing a value"
  | .endOfString => "EOF while parsing a string"
  | .endInside .list => "EOF while parsing a list"
  | .endInside .object => "EOF while parsing an object"
  | .expectedValue => "expected value"
  | .expectedWord => "expected ident"
  | .expectedColon => "expected `:`"
  | .expectedSeparator .list => "expected `,` or `]`"
  | .expectedSeparator .object => "expected `,` or `\x7d`"
  | .keyNotString => "key must be a string"
  | .trailingComma => "trailing comma"
  | .trailingCharacters => "trailing characters"
  | .invalidNumber => "invalid number"
  | .numberOutOfRange => "number out of range"
  | .controlCharacter => "control character (\\u0000-\\u001F) found while parsing a string"
  | .invalidEscape => "invalid escape"
  | .loneSurrogate => "lone leading surrogate in hex escape"
  | .unpairedSurrogate => "unexpected end of hex escape"
  | .wrongKind found wanted => "invalid type: " ++ found.describe ++ ", expected " ++ wanted.describe
  | .outOfRange n wanted =>
    "invalid value: integer `" ++ n.repr ++ "`, expected " ++ wanted.describe
  | .tooShort elements title fields =>
    "invalid length " ++ elements.repr ++ ", expected struct " ++ title ++ " with " ++ fields.repr ++
      (if fields = 1 then " element" else " elements")
  | .missingField name => "missing field `" ++ name ++ "`"
  | .repeatedField name => "duplicate field `" ++ name ++ "`"

end FleetRoster.Json
