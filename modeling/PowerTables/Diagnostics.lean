import PowerTables.Json.Value

/-!
# Diagnostics

Some operations go on where they meet a problem and report it.  A report is a list of issues,
all of them warnings.

## Main definitions

* `Issue` : one problem, with the element and the column it concerns.
* `Diagnostics` : the issues of one operation.
-/

namespace PowerTables

/-- A problem an operation met and went on from. -/
structure Issue where
  category : String
  message : String
  entity : Option String := none
  column : Option String := none
  deriving DecidableEq, Repr

namespace Issue

/-- How serious an issue is; there is only one level. -/
def severity : String := "warning"

/-- The issue in one line. -/
def text (issue : Issue) : String :=
  let entity := match issue.entity with
    | none => ""
    | some entity => s!" ({entity})"
  let column := match issue.column with
    | none => ""
    | some column => s!" in column '{column}'"
  s!"[{severity}:{issue.category}] {issue.message}" ++ entity ++ column

/-- The issue as a record; an absent entity or column has no field. -/
def toJson (issue : Issue) : Json :=
  .record ([("severity", .ofText severity), ("category", .ofText issue.category),
      ("message", .ofText issue.message)] ++
    (issue.entity.map fun entity => ("entity", Json.ofText entity)).toList ++
    (issue.column.map fun column => ("column", Json.ofText column)).toList)

end Issue

/-- The issues of one operation, in the order in which it met them. -/
abbrev Diagnostics := List Issue

namespace Diagnostics

/-- The number of issues in words. -/
def summary (ds : Diagnostics) : String :=
  match ds.length with
  | 0 => "No issues"
  | 1 => "1 warning"
  | n => s!"{n} warnings"

/-- The issues as a record; without issues it has no field. -/
def toJson (ds : Diagnostics) : Json :=
  .record (if ds.isEmpty then [] else [("issues", .array (ds.map Issue.toJson))])

end Diagnostics

end PowerTables
