import PowerTables.Json.Value

/-!
# Writing JSON

Two ways of writing a value: on one line without blanks, and spread over lines with two blanks
for each level.

## Main definitions

* `Json.quote` : a text between quotes, with escapes where they are needed.
* `Json.compact` : a value on one line.
* `Json.pretty` : a value spread over lines.
-/

namespace PowerTables.Json

/-- A hexadecimal digit. -/
def hexChar (n : Nat) : Char := if n < 10 then Char.ofNat (48 + n) else Char.ofNat (87 + n)

/-- A character inside a string: quotes, backslashes and control characters are escaped, the
common ones by a letter and the others by their number. -/
def escape (c : Char) : List Char :=
  if c = '"' then ['\\', '"']
  else if c = '\\' then ['\\', '\\']
  else if c = '\x08' then ['\\', 'b']
  else if c = '\x0c' then ['\\', 'f']
  else if c = '\n' then ['\\', 'n']
  else if c = '\r' then ['\\', 'r']
  else if c = '\t' then ['\\', 't']
  else if c.toNat < 0x20 then
    ['\\', 'u', '0', '0', hexChar (c.toNat / 16), hexChar (c.toNat % 16)]
  else [c]

/-- A text between quotes. -/
def quote (s : String) : String := String.ofList ('"' :: (s.toList.flatMap escape ++ ['"']))

/-- The content of a string between quotes; a string without text stays without text. -/
def quoteText : Text → String
  | some s => quote s
  | none => "\"\\ud800\""

mutual

/-- A value on one line. -/
def compact : Json → String
  | .null => "null"
  | .bool true => "true"
  | .bool false => "false"
  | .number n => n.text
  | .string s => quoteText s
  | .array items => "[" ++ compactItems items ++ "]"
  | .object fields => "\x7b" ++ compactFields fields ++ "\x7d"

/-- Items with commas between them. -/
def compactItems : List Json → String
  | [] => ""
  | [item] => item.compact
  | item :: items => item.compact ++ "," ++ compactItems items

/-- Fields with commas between them. -/
def compactFields : List (Text × Json) → String
  | [] => ""
  | [(name, value)] => quoteText name ++ ":" ++ value.compact
  | (name, value) :: fields =>
    quoteText name ++ ":" ++ value.compact ++ "," ++ compactFields fields

end

/-- The start of a line at a level. -/
def lineStart (level : Nat) : String := "\n" ++ String.ofList (List.replicate (2 * level) ' ')

mutual

/-- A value spread over lines; it starts at a level of indentation. -/
def prettyAt (level : Nat) : Json → String
  | .array [] => "[]"
  | .array (item :: items) =>
    "[" ++ lineStart (level + 1) ++ item.prettyAt (level + 1) ++
      prettyItems (level + 1) items ++ lineStart level ++ "]"
  | .object [] => "\x7b\x7d"
  | .object ((name, value) :: fields) =>
    "\x7b" ++ lineStart (level + 1) ++ quoteText name ++ ": " ++ value.prettyAt (level + 1) ++
      prettyFields (level + 1) fields ++ lineStart level ++ "\x7d"
  | .null => "null"
  | .bool true => "true"
  | .bool false => "false"
  | .number n => n.text
  | .string s => quoteText s

/-- The items after the first one, each on its own line. -/
def prettyItems (level : Nat) : List Json → String
  | [] => ""
  | item :: items => "," ++ lineStart level ++ item.prettyAt level ++ prettyItems level items

/-- The fields after the first one, each on its own line. -/
def prettyFields (level : Nat) : List (Text × Json) → String
  | [] => ""
  | (name, value) :: fields =>
    "," ++ lineStart level ++ quoteText name ++ ": " ++ value.prettyAt level ++
      prettyFields level fields

end

/-- A value spread over lines. -/
def pretty (value : Json) : String := value.prettyAt 0

end PowerTables.Json
