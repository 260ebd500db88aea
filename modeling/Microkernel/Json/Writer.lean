import Microkernel.Json.Basic
import Microkernel.Text.Hex

/-!
# Writing JSON text

Two layouts: `Json.compact` without any blank, and `Json.pretty` with one item a line, indented by two blanks a level.
-/

namespace Microkernel.Json

/-- A character as it stands inside a string. -/
def escapeChar (c : Char) : List Char :=
  if c = '"' then ['\\', '"']
  else if c = '\\' then ['\\', '\\']
  else if c = '\n' then ['\\', 'n']
  else if c = '\r' then ['\\', 'r']
  else if c = '\t' then ['\\', 't']
  else if c = '\x08' then ['\\', 'b']
  else if c = '\x0c' then ['\\', 'f']
  else if c.toNat < 0x20 then '\\' :: 'u' :: (Text.hexPadded 4 c.toNat).toList
  else [c]

/-- A string in quotes. -/
def quote (text : String) : String := String.ofList ('"' :: text.toList.flatMap escapeChar ++ ['"'])

/-- The opening and the closing brace of an object. -/
def openBrace : String := "\x7b"
def closeBrace : String := "\x7d"

mutual

/-- A value on one line, without blanks. -/
def compact : Json → String
  | .null => "null"
  | .bool b => if b then "true" else "false"
  | .number n => toString n
  | .inexact => "null"
  | .string s => quote s
  | .unpaired => "null"
  | .array items => "[" ++ String.intercalate "," (compactItems items) ++ "]"
  | .object members => openBrace ++ String.intercalate "," (compactMembers members) ++ closeBrace

def compactItems : List Json → List String
  | [] => []
  | item :: rest => compact item :: compactItems rest

def compactMembers : List (String × Json) → List String
  | [] => []
  | (name, value) :: rest => (quote name ++ ":" ++ compact value) :: compactMembers rest

end

/-- The start of a line at a level. -/
def indent (level : Nat) : String := String.ofList ('\n' :: List.replicate (2 * level) ' ')

mutual

/-- A value that stands at a level, one item or member a line. -/
def prettyAt (level : Nat) : Json → String
  | .array [] => "[]"
  | .object [] => openBrace ++ closeBrace
  | .array items =>
    "[" ++ String.intercalate "," (prettyItems (level + 1) items) ++ indent level ++ "]"
  | .object members =>
    openBrace ++ String.intercalate "," (prettyMembers (level + 1) members) ++ indent level ++ closeBrace
  | .null => "null"
  | .bool b => if b then "true" else "false"
  | .number n => toString n
  | .inexact => "null"
  | .string s => quote s
  | .unpaired => "null"

def prettyItems (level : Nat) : List Json → List String
  | [] => []
  | item :: rest => (indent level ++ prettyAt level item) :: prettyItems level rest

def prettyMembers (level : Nat) : List (String × Json) → List String
  | [] => []
  | (name, value) :: rest => (indent level ++ quote name ++ ": " ++ prettyAt level value) :: prettyMembers level rest

end

/-- A value with one item or member a line. -/
def pretty (j : Json) : String := prettyAt 0 j

end Microkernel.Json
