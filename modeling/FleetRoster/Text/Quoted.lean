/-
Text shown between double quotes in a message: quotes and backslashes escaped, the common
controls by letter, every other unprintable character by number.
-/
import FleetRoster.Text.Unprintable

namespace FleetRoster.Text

/-- The lower-case hexadecimal digits of a number, without leading zeros. -/
def hex (n : Nat) : List Char := Nat.toDigits 16 n

/-- How one character is shown between quotes. -/
def shown (c : Char) : List Char :=
  match c with
  | '\x00' => ['\\', '0']
  | '\t' => ['\\', 't']
  | '\r' => ['\\', 'r']
  | '\n' => ['\\', 'n']
  | '"' => ['\\', '"']
  | '\\' => ['\\', '\\']
  | c => if isUnprintable c then '\\' :: 'u' :: '{' :: hex c.toNat ++ ['}'] else [c]

/-- A text as a message shows it, quotes included. -/
def quoted (s : String) : String :=
  String.ofList ('"' :: s.toList.flatMap shown ++ ['"'])

end FleetRoster.Text
