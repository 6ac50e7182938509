import PowerTables.Program.Printing
import PowerTables.Program.Source

/-!
# The commands

What each command does.  A command reads its arguments first, then opens its network, and
prints and writes at the end.

## Main definitions

* `Program.showElements`, `Program.showIds`, `Program.update`, `Program.toggle`,
  `Program.dump` : the commands on elements.
* `Program.listVariants`, `Program.cloneVariant`, `Program.removeVariant` : those on variants.
* `Program.perform` : the command of a request.
-/

namespace PowerTables.Program

variable {m : Type → Type} [Monad m] [FileSystem m]

/-- Works in a variant, if one is given. -/
def useVariant : Option String → SessionM Unit
  | none => return
  | some id => do (← Session.variants).select id

/-- Warns of the issues of the latest reading. -/
def warnOfIssues (ds : Diagnostics) : ProgramM m Unit :=
  if ds.isEmpty then return
  else do
    warn s!"per-unit conversion: {ds.summary}"
    ds.forM fun issue => warn issue.text

/-- The categories. -/
def showCategories : ProgramM m Unit := print Category.printedList

/-- The columns of a category. -/
def showColumns (category : String) : ProgramM m Unit := do
  print (← categoryOf category).printedColumns

/-- The samples. -/
def showSamples : ProgramM m Unit := do
  print (← ofResult (fun e => .session (.network e)) Sample.printedList)

/-- A table of elements. -/
def showElements (source category : String) (columns : List String) (variant : Option String)
    (format : TableFormat) (settings : Settings) : ProgramM m Unit := do
  let c ← categoryOf category
  let state ← openNetwork source settings
  let (t, state) ← inSession state do
    useVariant variant
    Session.elements c
  warnOfIssues state.session.diagnostics
  let t ← if columns.isEmpty then pure t
    else ofResult (fun e => .session (.table e)) (t.select columns)
  match format with
  | .plain => print (t.printed c.hasNumberedRows settings.decimalPlaces)
  | .json => printLine t.toJson.pretty

/-- The ids of a category, one in a line. -/
def showIds (source category : String) (nominalVoltages : List Float) (countries : List String)
    (settings : Settings) : ProgramM m Unit := do
  let c ← categoryOf category
  let state ← openNetwork source settings
  let filter : ElementFilter :=
    { nominalVoltages := if nominalVoltages.isEmpty then none else some nominalVoltages
      countries := if countries.isEmpty then none else some countries }
  let (ids, _) ← inSession state (Session.elementIds c filter)
  ids.forM printLine

/-- The rows of a table that some assignments name, with the columns they name. -/
def assignedPart (assignments : List Assignment) (t : Table) : Except TableError Table := do
  let rows ← t.filterRows fun key => assignments.any (·.key == key)
  rows.select (assignments.map (·.column)).eraseDups

/-- Assigns values, shows the rows after that, and writes the network. -/
def update (source category : String) (assignments : List String) (variant output : Option String)
    (settings : Settings) : ProgramM m Unit := do
  let c ← categoryOf category
  let assignments ← ofResult .assignment (assignments.mapM Assignment.parse)
  let state ← openNetwork source settings
  let ((), state) ← inSession state (useVariant variant)
  let tables ← ofResult .assignment (updateTables c c.schema assignments)
  let (t, state) ← inSession state do
    tables.forM (Session.update c)
    Session.elements c
  let t ← ofResult (fun e => .session (.table e)) (assignedPart assignments t)
  print (t.printed c.hasNumberedRows settings.decimalPlaces)
  saveNetwork state output

/-- The change of a switch or a connection; the flag tells whether anything changed. -/
def act (id : String) : ToggleAction → SessionM Bool
  | .openSwitch => Session.openSwitch id
  | .closeSwitch => Session.closeSwitch id
  | .connect => Session.connect id
  | .disconnect => Session.disconnect id

/-- Changes a switch or a connection, and writes the network. -/
def toggle (source : String) (action : ToggleAction) (id : String) (output : Option String)
    (settings : Settings) : ProgramM m Unit := do
  let state ← openNetwork source settings
  let (changed, state) ← inSession state (act id action)
  let word := action.participle
  printLine (if changed then s!"{id} {word}" else s!"{id} already {word}")
  saveNetwork state output

/-- Writes a network, or prints it where no path is given. -/
def dump (source : String) (output : Option String) (settings : Settings) :
    ProgramM m Unit := do
  let state ← openNetwork source settings
  match output with
  | some path => saveNetwork state (some path)
  | none =>
    let (snapshot, _) ← inSession state Session.dump
    printLine snapshot

/-- The variants, with a mark at the working one. -/
def listVariants (source : String) (settings : Settings) : ProgramM m Unit := do
  let state ← openNetwork source settings
  let ((ids, working), _) ← inSession state do
    let variants ← Session.variants
    let working ← variants.current
    return (← variants.list, working)
  print (Text.table (["VARIANT", "WORKING"] ::
    ids.map fun id => [id, if id = working then "*" else ""]))

/-- Copies a variant, works in the copy if that is asked for, and writes the network. -/
def cloneVariant (source fromId toId : String) (overwrite select : Bool) (output : Option String)
    (settings : Settings) : ProgramM m Unit := do
  let state ← openNetwork source settings
  let ((), state) ← inSession state do
    let variants ← Session.variants
    variants.clone fromId toId overwrite
    if select then variants.select toId
  printLine s!"Cloned {fromId} into {toId}"
  saveNetwork state output

/-- Drops a variant, and writes the network. -/
def removeVariant (source id : String) (output : Option String) (settings : Settings) :
    ProgramM m Unit := do
  let state ← openNetwork source settings
  let ((), state) ← inSession state do (← Session.variants).remove id
  printLine s!"Removed {id}"
  saveNetwork state output

/-- What stands for the text of the help. -/
def helpText : String := "<help>"

/-- Does what a request asks for, with the settings of the file and those of the run. -/
def perform (request : Request) (file settings : Settings) : ProgramM m Unit :=
  match request.command with
  | none => print helpText
  | some .categories => showCategories
  | some (.columns category) => showColumns category
  | some .demo => showSamples
  | some (.elements source category columns variant format) =>
    showElements source category columns variant format settings
  | some (.ids source category nominalVoltages countries) =>
    showIds source category nominalVoltages countries settings
  | some (.update source category assignments variant output) =>
    update source category assignments variant output settings
  | some (.toggle source action id output) => toggle source action id output settings
  | some (.dump source output) => dump source output settings
  | some (.listVariants source) => listVariants source settings
  | some (.cloneVariant source fromId toId overwrite select output) =>
    cloneVariant source fromId toId overwrite select output settings
  | some (.removeVariant source id output) => removeVariant source id output settings
  | some .showSettings => print file.text
  | some (.initSettings force) => saveSettings request.settings force

end PowerTables.Program
