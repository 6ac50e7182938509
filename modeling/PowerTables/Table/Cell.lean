import PowerTables.Number.Layout
import PowerTables.Number.Reading

/-!
# Cells

A cell holds a text, a double, an integer or a truth value.  A missing double is the value that
is not a number; the other types have an empty value of their own.

## Main definitions

* `CellType` : the four types, with their names and codes.
* `CellType.Value` : the values of each type.
* `Cell` : a value with its type.
* `Cell.text`, `Cell.fixedText`, `Cell.parse?` : cells as texts.
-/

namespace PowerTables

/-- The type of a column and of its cells. -/
inductive CellType
  | string
  | double
  | int
  | boolean
  deriving DecidableEq, Repr

namespace CellType

/-- The values of a type. -/
abbrev Value : CellType → Type
  | string => String
  | double => Float
  | int => Int64
  | boolean => Bool

/-- The name of a type. -/
def name : CellType → String
  | string => "string"
  | double => "double"
  | int => "int"
  | boolean => "boolean"

/-- The number that stands for a type where a schema is asked for it. -/
def code : CellType → Int32
  | string => 0
  | double => 1
  | int => 2
  | boolean => 3

/-- All types. -/
def all : List CellType := [string, double, int, boolean]

/-- The type a code stands for. -/
def ofCode? (code : Int32) : Option CellType := all.find? fun type => type.code == code

/-- The type of a name. -/
def ofName? (name : String) : Option CellType := all.find? fun type => type.name == name

/-- The value of a cell that was not given. -/
def missing : (type : CellType) → type.Value
  | string => ""
  | double => Double.nan
  | int => 0
  | boolean => false

end CellType

/-- A value with its type. -/
structure Cell where
  type : CellType
  value : type.Value

namespace Cell

/-- The cell of a text. -/
def ofString (s : String) : Cell := ⟨.string, s⟩

/-- The cell of a double. -/
def ofDouble (x : Float) : Cell := ⟨.double, x⟩

/-- The cell of an integer. -/
def ofInt (n : Int64) : Cell := ⟨.int, n⟩

/-- The cell of a truth value. -/
def ofBool (b : Bool) : Cell := ⟨.boolean, b⟩

/-- The value of a cell, if it has the given type. -/
def as? (cell : Cell) (type : CellType) : Option type.Value :=
  if h : cell.type = type then some (h ▸ cell.value) else none

@[simp] theorem as?_self (type : CellType) (value : type.Value) :
    (Cell.mk type value).as? type = some value := by
  simp [as?]

theorem as?_eq_none {cell : Cell} {type : CellType} (h : cell.type ≠ type) :
    cell.as? type = none := by
  simp [as?, h]

/-- The text of a truth value. -/
def boolText (b : Bool) : String := if b then "true" else "false"

/-- A cell as text; a double has its shortest digits. -/
def text : Cell → String
  | ⟨.string, s⟩ => s
  | ⟨.double, x⟩ => Double.text Double.plain x
  | ⟨.int, n⟩ => toString n.toInt
  | ⟨.boolean, b⟩ => boolText b

/-- A cell as text; a double has the given number of places. -/
def fixedText (places : Nat) : Cell → String
  | ⟨.double, x⟩ => Double.fixedText places x
  | cell => cell.text

/-- Reads a truth value: `true`, `1` or `yes`, `false`, `0` or `no`, in letters of any size. -/
def readBool? (s : String) : Option Bool :=
  let word := Text.lower s
  if word = "true" ∨ word = "1" ∨ word = "yes" then some true
  else if word = "false" ∨ word = "0" ∨ word = "no" then some false
  else none

/-- Reads a value of a type from a text without blanks around it. -/
def readValue? : (type : CellType) → String → Option type.Value
  | .string, s => some s
  | .double, s => Double.read? s
  | .int, s => readInt64? s
  | .boolean, s => readBool? s

/-- Reads a cell of a type from a text; blanks around the text do not count. -/
def parse? (type : CellType) (raw : String) : Option Cell :=
  (readValue? type (Text.trim raw)).map (Cell.mk type)

end Cell

end PowerTables
