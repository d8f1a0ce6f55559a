/-
Readers of JSON text, and the blanks, words and marks they all pass over. A reader takes the rest
of the text and gives what it read together with what is left.
-/
import FleetRoster.Json.Fault

namespace FleetRoster.Json

/-- A reader: the text still to read in, what was read and the text left out. -/
abbrev Reader (α : Type) := List Char → Except Fault (α × List Char)

def isBlank (c : Char) : Bool := c = ' ' || c = '\n' || c = '\t' || c = '\r'

def dropBlanks (cs : List Char) : List Char := cs.dropWhile isBlank

/-- Reads the given word. -/
def word : List Char → List Char → Except Fault (List Char)
  | [], cs => .ok cs
  | _ :: _, [] => .error .endOfValue
  | e :: expected, c :: cs => if c = e then word expected cs else .error .expectedWord

/-- Passes over the colon between a member's name and its value. -/
def colon (cs : List Char) : Except Fault (List Char) :=
  match dropBlanks cs with
  | [] => .error (.endInside .object)
  | ':' :: cs => .ok cs
  | _ => .error .expectedColon

end FleetRoster.Json
