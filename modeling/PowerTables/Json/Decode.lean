import PowerTables.Json.Double

/-!
# Taking values out of JSON

Records are read by the names of their fields.  A field that is not known is skipped, a known
field must not occur twice, and the fields of a record may also be given as an array, in the
order of their declaration.

## Main definitions

* `Json.text?`, `Json.bool?`, `Json.int64?`, `Json.double?`, `Json.items?` : the plain values.
* `Json.choice?` : the name of one of a fixed set of choices.
* `Json.fields?` : the fields of a record.
-/

namespace PowerTables.Json

/-- The text of a string. -/
def text? : Json → Option String
  | .string s => s
  | _ => none

/-- The value of a truth value. -/
def bool? : Json → Option Bool
  | .bool b => some b
  | _ => none

/-- The integer of a number that is written as one and fits 64 bits. -/
def int64? : Json → Option Int64
  | .number n => n.int64?
  | _ => none

/-- The double of a number. -/
def double? : Json → Option Float
  | .number n => n.double?
  | _ => none

/-- The double of a number, or not a number for `null`. -/
def doubleOrMissing? : Json → Option Float
  | .null => some Double.nan
  | j => j.double?

/-- The items of an array, each read in the same way. -/
def items? {α : Type} (read? : Json → Option α) : Json → Option (List α)
  | .array items => items.mapM read?
  | _ => none

/-- A value that may be absent: `null` stands for none. -/
def optional? {α : Type} (read? : Json → Option α) : Json → Option (Option α)
  | .null => some none
  | j => (read? j).map some

/-- The name of a choice without content: the name itself, or an object whose only field has
that name and the value `null`. -/
def choice? : Json → Option String
  | .string s => s
  | .object [(name, .null)] => name
  | _ => none

/-- The first field of a name. -/
def field? (fields : List (Text × Json)) (name : String) : Option Json :=
  (fields.find? fun entry => entry.1 == some name).map (·.2)

/-- The fields of a record, in the order of `names`; a field that is not given is `none`. -/
def fields? (names : List String) : Json → Option (List (Option Json))
  | .array items =>
    if items.length ≤ names.length then
      some (items.map some ++ List.replicate (names.length - items.length) none)
    else none
  | .object fields =>
    if fields.all (fun entry => entry.1.isSome) &&
        names.all (fun name => fields.countP (fun entry => entry.1 == some name) ≤ 1) then
      some (names.map (field? fields))
    else none
  | _ => none

end PowerTables.Json
