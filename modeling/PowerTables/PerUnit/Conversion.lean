import PowerTables.Diagnostics
import PowerTables.PerUnit.Rules
import PowerTables.Table.Basic

/-!
# Conversion of tables

A table is converted column by column, as the rules of its category say.  A row whose nominal
voltage cannot be found gets missing values in the columns concerned, and the conversion
reports every such cell.

## Main definitions

* `VoltageLevels` : the nominal voltages of the voltage levels.
* `ConversionRule.bases` : the nominal voltage of every row, for one rule.
* `convert` : the conversion of a table, with its report.
-/

namespace PowerTables

/-- The direction of a conversion. -/
inductive Direction
  | toPerUnit
  | fromPerUnit
  deriving DecidableEq, Repr

/-- The nominal voltages of the voltage levels, with their ids. -/
structure VoltageLevels where
  entries : List (String × Float) := []

namespace VoltageLevels

/-- The nominal voltages in a table of voltage levels. -/
def ofTable (t : Table) : VoltageLevels :=
  match t.doubles? "nominal_v" with
  | some values => ⟨(t.index.map (·.id)).zip values⟩
  | none => ⟨[]⟩

/-- The nominal voltage of a voltage level; of several entries for one id the last counts. -/
def nominal? (levels : VoltageLevels) (id : String) : Option Float :=
  (levels.entries.reverse.find? fun entry => entry.1 == id).map (·.2)

/-- The number of voltage levels with a nominal voltage. -/
def size (levels : VoltageLevels) : Nat := (levels.entries.map (·.1)).eraseDups.length

end VoltageLevels

/-- The nominal voltage of every row of a table, as the rule finds it: `none` where it does not.
A rule that needs no voltage finds one everywhere. -/
def ConversionRule.bases (rule : ConversionRule) (levels : VoltageLevels) (t : Table) :
    List (Option Float) :=
  match rule.source with
  | .none => List.replicate t.size (some Double.nan)
  | .voltageLevel column =>
    match t.strings? column with
    | some ids => ids.map levels.nominal?
    | none => List.replicate t.size none
  | .rowColumn column =>
    match t.doubles? column with
    | some values => values.map some
    | none => List.replicate t.size none

/-- One value converted at a nominal voltage; without one it is missing. -/
def convertValue (ctx : PerUnitContext) (dimension : Dimension) (direction : Direction)
    (value : Float) : Option Float → Float
  | none => Double.nan
  | some nominalVoltage =>
    let divisor := dimension.divisor ctx nominalVoltage
    match direction with
    | .toPerUnit => value / divisor
    | .fromPerUnit => value * divisor

/-- The values of a column converted, each at the nominal voltage of its row; values beyond the
last voltage stay. -/
def convertValues (ctx : PerUnitContext) (dimension : Dimension) (direction : Direction) :
    List Float → List (Option Float) → List Float
  | value :: values, base :: bases =>
    convertValue ctx dimension direction value base ::
      convertValues ctx dimension direction values bases
  | values, _ => values

/-- What a conversion met. -/
structure ConversionReport where
  /-- The number of cells that are missing now because no voltage was found. -/
  missingBases : Nat := 0
  /-- The rows with such cells, each once, in the order in which they were met. -/
  unresolved : List RowKey := []
  diagnostics : Diagnostics := []

/-- The category of the issues of a conversion. -/
def perUnitIssues : String := "per-unit"

/-- The issue of a cell without nominal voltage. -/
def missingBaseIssue (c : Category) (rule : ConversionRule) (key : RowKey) : Issue :=
  let source := rule.source.column?.getD ""
  { category := perUnitIssues
    message := s!"no nominal voltage found through '{source}'"
    entity := some s!"{c.name}/{key.text}"
    column := some rule.column }

namespace ConversionReport

/-- Adds the cell of a row in the column of a rule. -/
def add (c : Category) (rule : ConversionRule) (report : ConversionReport) (key : RowKey) :
    ConversionReport :=
  { missingBases := report.missingBases + 1
    unresolved :=
      if report.unresolved.contains key then report.unresolved
      else report.unresolved ++ [key]
    diagnostics := report.diagnostics ++ [missingBaseIssue c rule key] }

end ConversionReport

/-- The keys of the rows without nominal voltage.  A position that has no row is refused. -/
def unresolvedKeys (rule : ConversionRule) (index : List RowKey) (bases : List (Option Float)) :
    Except TableError (List RowKey) :=
  (bases.zipIdx.filter fun (base, _) => base.isNone).mapM fun (_, position) =>
    match index[position]? with
    | some key => .ok key
    | none => .error (.shortColumn rule.column)

/-- Applies one rule: a column that is not there or does not hold doubles is skipped. -/
def convertColumn (ctx : PerUnitContext) (c : Category) (levels : VoltageLevels)
    (direction : Direction) (state : Table × ConversionReport) (rule : ConversionRule) :
    Except TableError (Table × ConversionReport) :=
  let (t, report) := state
  match t.doubles? rule.column with
  | none => .ok (t, report)
  | some values => do
    let bases := rule.bases levels t
    let keys ← unresolvedKeys rule t.index bases
    let converted := convertValues ctx rule.dimension direction values bases
    return (t.mapColumn rule.column fun _ => ⟨rule.column, .double, converted⟩,
      keys.foldl (ConversionReport.add c rule) report)

/-- Converts every column of a table that has a rule, in the order of the rules.  A column that
a voltage is read from is never added. -/
def convert (ctx : PerUnitContext) (c : Category) (levels : VoltageLevels)
    (direction : Direction) (t : Table) : Except TableError (Table × ConversionReport) :=
  c.rules.foldlM (convertColumn ctx c levels direction) (t, {})

end PowerTables
