import PowerTables.Toml.Scalar

/-!
# Reading TOML

The grammar of a document: keys, values, headers, and the lines they stand on.

## Main definitions

* `Toml.readKey?` : a key with points.
* `Toml.readValue?` : a value.
* `Toml.parse?` : a document.
-/

namespace PowerTables.Toml

/-- The number of levels that values may be nested, and of parts that a key may have, plus
one. -/
def nestingLimit : Nat := 80

/-! ### Keys -/

/-- Whether a character may stand in a key without quotes. -/
def isBareKey (c : Char) : Bool := c.isAlphanum || c = '-' || c = '_'

/-- Reads one part of a key. -/
def readKeyPart? : Reader String
  | '"' :: rest => readLine? '"' true ('"' :: rest)
  | '\'' :: rest => readLine? '\'' false ('\'' :: rest)
  | cs =>
    let name := cs.takeWhile isBareKey
    if name.isEmpty then none else some (String.ofList name, cs.drop name.length)

/-- Reads the parts of a key, with points between them.  The first argument bounds their
number. -/
def readKeyParts? : Nat → Reader (List String)
  | 0, _ => none
  | parts + 1, cs => do
    let (part, rest) ← readKeyPart? (skipSpaces cs)
    match skipSpaces rest with
    | '.' :: rest => (readKeyParts? parts rest).map fun (parts, rest) => (part :: parts, rest)
    | rest => some ([part], rest)

/-- Reads a key: the path to its table, and its name there. -/
def readKey? : Reader (List String × String) := fun cs => do
  let (parts, rest) ← readKeyParts? (nestingLimit - 1) cs
  return ((parts.dropLast, ← parts.getLast?), rest)

/-! ### Values -/

/-- The characters after blanks, line ends and comments.  The first argument bounds the number
of steps. -/
def skipLines : Nat → List Char → List Char
  | 0, cs => cs
  | steps + 1, cs =>
    let cs := skipComment (skipSpaces cs)
    match afterNewline? cs with
    | some rest => skipLines steps rest
    | none => cs

/-- Reads the items of an array, after its bracket.  The first argument bounds their number. -/
def readItems? (item : Reader Toml) : Nat → Reader (List Toml)
  | 0, _ => none
  | steps + 1, cs =>
    match skipLines cs.length cs with
    | ']' :: rest => some ([], rest)
    | cs => do
      let (value, rest) ← item cs
      match skipLines rest.length rest with
      | ',' :: rest =>
        (readItems? item steps rest).map fun (items, rest) => (value :: items, rest)
      | ']' :: rest => some ([value], rest)
      | _ => none

/-- Reads a key, an equals sign and a value. -/
def readPair? (value : Reader Toml) : Reader ((List String × String) × Toml) := fun cs => do
  let (key, rest) ← readKey? cs
  let (v, rest) ← value (skipSpaces (← afterWord? ['='] rest))
  return ((key, v), rest)

/-- Reads the entries of an inline table that has some, after its brace.  The second argument
bounds their number. -/
def readEntries? (value : Reader Toml) : Nat → Entries → Reader Entries
  | 0, _, _ => none
  | steps + 1, entries, cs => do
    let (((path, key), v), rest) ← readPair? value cs
    let entries ← insert? path key v entries
    match skipSpaces rest with
    | ',' :: rest => readEntries? value steps entries rest
    | '\x7d' :: rest => some (entries, rest)
    | _ => none

/-- Reads an inline table, after its brace. -/
def readInline? (value : Reader Toml) : Reader Toml := fun cs =>
  match skipSpaces cs with
  | '\x7d' :: rest => some (.inline [], rest)
  | cs => (readEntries? value (cs.length + 1) [] cs).map fun (entries, rest) =>
    (.inline entries, rest)

/-- Reads a value.  The first argument bounds the nesting: arrays and inline tables need two
levels. -/
def readValue? : Nat → Reader Toml
  | 0, _ => none
  | levels + 1, cs =>
    match cs with
    | [] => none
    | '"' :: _ | '\'' :: _ => (readString? cs).map fun (text, rest) => (.string text, rest)
    | '[' :: rest =>
      if levels = 0 then none
      else (readItems? (readValue? levels) (rest.length + 1) rest).map fun (items, rest) =>
        (.array items, rest)
    | '\x7b' :: rest => if levels = 0 then none else readInline? (readValue? levels) rest
    | c :: _ =>
      if c.isDigit || c = '+' || c = '-' then readNumber? cs else readWord? cs

/-! ### Documents -/

/-- The characters after the end of a line, with the blanks and the comment in front of it. -/
def afterLine? (cs : List Char) : Option (List Char) :=
  match skipComment (skipSpaces cs) with
  | [] => some []
  | cs => afterNewline? cs

/-- Reads a header and opens its table. -/
def readHeader? (d : Document) (cs : List Char) : Option (Document × List Char) :=
  match cs with
  | '[' :: '[' :: rest => do
    let ((path, key), rest) ← readKey? rest
    let rest ← afterLine? (← afterWord? [']', ']'] rest)
    return (← d.openTables? path key, rest)
  | '[' :: rest => do
    let ((path, key), rest) ← readKey? rest
    let rest ← afterLine? (← afterWord? [']'] rest)
    return (← d.openTable? path key, rest)
  | _ => none

/-- Reads the lines of a document.  The first argument bounds their number. -/
def readLines? : Nat → Document → List Char → Option Document
  | 0, _, _ => none
  | steps + 1, d, cs =>
    match skipSpaces cs with
    | [] => some d
    | c :: rest =>
      if c = '#' || c = '\n' || c = '\r' then
        (afterLine? (c :: rest)).bind (readLines? steps d)
      else if c = '[' then do
        let (d, rest) ← readHeader? d (c :: rest)
        readLines? steps d rest
      else do
        let (((path, key), v), rest) ← readPair? (readValue? nestingLimit) (c :: rest)
        let d ← d.insert? path key v
        readLines? steps d (← afterLine? rest)

/-- The characters after a byte order mark, if there is one. -/
def skipByteOrderMark : List Char → List Char
  | '\uFEFF' :: rest => rest
  | cs => cs

/-- The entries of a document. -/
def parse? (text : String) : Option Entries := do
  let cs := skipByteOrderMark text.toList
  (← readLines? (cs.length + 1) {} cs).finish?

end PowerTables.Toml
