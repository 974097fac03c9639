import RestForge.Decimal.Shortest
import RestForge.Json.Value

/-!
# JSON text of a value

* `Json.compact`: no white space at all.
* `Json.pretty`: one member or item a line, two spaces of indentation a level, empty containers on
  one line.

Inside a string a quote, a backslash and the controls below the space are escaped, the latter by a
letter where there is one and by four hexadecimal digits elsewhere.
-/

set_option autoImplicit false

namespace RestForge

open Decimal

namespace Json

/-- Positional up to sixteen digits before and five places after the point. -/
def floatLayout : FloatLayout := ⟨-5, 15, 'e'⟩

def escapeChar (c : Char) : List Char :=
  if c = '"' then ['\\', '"']
  else if c = '\\' then ['\\', '\\']
  else if c = '\x08' then ['\\', 'b']
  else if c = '\x0c' then ['\\', 'f']
  else if c = '\n' then ['\\', 'n']
  else if c = '\r' then ['\\', 'r']
  else if c = '\t' then ['\\', 't']
  else if c.toNat < 0x20 then
    ['\\', 'u', '0', '0', Nat.digitChar (c.toNat / 16), Nat.digitChar (c.toNat % 16)]
  else [c]

def stringText (s : String) : String :=
  String.ofList ('"' :: s.toList.flatMap escapeChar ++ ['"'])

end Json

def Number.text : Number → String
  | .whole i => toString i
  | .double x => Json.floatLayout.render x

namespace Json

/-! ## Compact text -/

mutual

def compact : Json → String
  | null => "null"
  | bool true => "true"
  | bool false => "false"
  | number n => n.text
  | string s => stringText s
  | array items => "[" ++ String.intercalate "," (compactItems items) ++ "]"
  | object members => "\x7b" ++ String.intercalate "," (compactMembers members) ++ "\x7d"

def compactItems : List Json → List String
  | [] => []
  | item :: items => item.compact :: compactItems items

def compactMembers : List (String × Json) → List String
  | [] => []
  | (key, value) :: members => (stringText key ++ ":" ++ value.compact) :: compactMembers members

end

/-! ## Indented text -/

def indentation (level : Nat) : String := String.ofList (List.replicate (2 * level) ' ')

/-- The parts of a container on lines of their own. -/
def block (opening closing : String) (level : Nat) (parts : List String) : String :=
  if parts.isEmpty then opening ++ closing
  else
    let line := "\n" ++ indentation (level + 1)
    opening ++ line ++ String.intercalate ("," ++ line) parts ++ "\n" ++ indentation level ++ closing

mutual

def prettyAt (level : Nat) : Json → String
  | array items => block "[" "]" level (prettyItems (level + 1) items)
  | object members => block "\x7b" "\x7d" level (prettyMembers (level + 1) members)
  | null => "null"
  | bool b => (bool b).compact
  | number n => n.text
  | string s => stringText s

def prettyItems (level : Nat) : List Json → List String
  | [] => []
  | item :: items => prettyAt level item :: prettyItems level items

def prettyMembers (level : Nat) : List (String × Json) → List String
  | [] => []
  | (key, value) :: members =>
    (stringText key ++ ": " ++ prettyAt level value) :: prettyMembers level members

end

def pretty (j : Json) : String := prettyAt 0 j

end Json

end RestForge
