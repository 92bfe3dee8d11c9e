import Sluice.Json.Basic
import Sluice.Number.Decimal

/-!
The compact text of a JSON value: no blanks, members in order, nothing escaped but quotes,
backslashes and control characters below the space.
-/
namespace Sluice.Json

def hexDigit (n : Nat) : Char := Nat.digitChar (n % 16)

/-- A character as it stands inside a quoted text. -/
def escape (c : Char) : List Char :=
  if c = '"' then ['\\', '"']
  else if c = '\\' then ['\\', '\\']
  else if c = '\x08' then ['\\', 'b']
  else if c = '\x0c' then ['\\', 'f']
  else if c = '\n' then ['\\', 'n']
  else if c = '\r' then ['\\', 'r']
  else if c = '\t' then ['\\', 't']
  else if c.toNat < 0x20 then ['\\', 'u', '0', '0', hexDigit (c.toNat / 16), hexDigit c.toNat]
  else [c]

def quote (s : String) : String := "\"" ++ String.ofList (s.toList.flatMap escape) ++ "\""

def Number.render : Number → String
  | .int n => toString n
  | .float x => x.markedText

mutual

def render : Json → String
  | .null => "null"
  | .bool true => "true"
  | .bool false => "false"
  | .number n => Number.render n
  | .text s => quote s
  | .list [] => "[]"
  | .list (x :: xs) => "[" ++ render x ++ renderItems xs ++ "]"
  | .object [] => "\x7b\x7d"
  | .object ((k, v) :: rest) => "\x7b" ++ quote k ++ ":" ++ render v ++ renderMembers rest ++ "\x7d"

/-- The items after the first. -/
def renderItems : List Json → String
  | [] => ""
  | x :: xs => "," ++ render x ++ renderItems xs

/-- The members after the first. -/
def renderMembers : List (String × Json) → String
  | [] => ""
  | (k, v) :: rest => "," ++ quote k ++ ":" ++ render v ++ renderMembers rest

end

/-- The text a value stands for outside JSON: a text itself, anything else as JSON. -/
def plainText : Json → String
  | .text s => s
  | other => other.render

end Sluice.Json
