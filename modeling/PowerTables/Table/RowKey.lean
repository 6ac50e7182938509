/-!
# Row keys

A row of a table is an element, named by its id, or a numbered part of an element, such as one
step of a tap changer.

## Main definitions

* `RowKey` : an id with an optional number.
* `RowKey.text` : the printed form `ID` or `ID[NUMBER]`.
* `RowKey.le` : the order by id and then by number, plain ids first.
-/

namespace PowerTables

/-- The name of a row: an element, or a numbered part of it. -/
structure RowKey where
  id : String
  number : Option Int64 := none
  deriving DecidableEq, Repr

namespace RowKey

/-- The key of an element. -/
def plain (id : String) : RowKey := ⟨id, none⟩

/-- The key of a numbered part of an element. -/
def numbered (id : String) (number : Int64) : RowKey := ⟨id, some number⟩

/-- The printed form of a key. -/
def text : RowKey → String
  | ⟨id, none⟩ => id
  | ⟨id, some n⟩ => id ++ "[" ++ toString n.toInt ++ "]"

/-- Whether a plain key or one number comes before another or equals it. -/
def numberLe : Option Int64 → Option Int64 → Bool
  | none, _ => true
  | some _, none => false
  | some m, some n => m ≤ n

/-- The order of keys: by id, code point by code point, and then by number, a key without
number first. -/
def le (a b : RowKey) : Bool :=
  if a.id = b.id then numberLe a.number b.number else a.id < b.id

end RowKey

end PowerTables
