import PowerTables.Number.Layout
import PowerTables.Toml.Reader

/-!
# Settings

What a person sets once and for all: whether tables are in per-unit, the power base, and the
number of decimal places.  Settings are kept in a TOML file in which everything is optional; a
command may override them.

## Main definitions

* `Settings` : the settings, with their defaults.
* `Settings.parse?` : the settings of a file.
* `Settings.text` : the file of some settings.
* `Settings.override` : settings with what a command asks for.
-/

namespace PowerTables

/-- What a person sets once and for all. -/
structure Settings where
  /-- Whether tables are in per-unit. -/
  perUnit : Bool := false
  /-- The power base in MVA. -/
  powerBase : Float := 100.0
  /-- The number of places of a double in a table. -/
  decimalPlaces : Nat := 4

namespace Settings

/-! ### Reading -/

/-- The values of the named settings in a section.  A section can also be an array, with the
values in the order of the names; what is left over does not count, and a date has none. -/
def section? (names : List String) : Toml → Option (List (Option Toml))
  | .table _ entries | .inline entries => some (names.map (Toml.lookup? entries))
  | .array items => some ((List.range names.length).map (items[·]?))
  | .tables items =>
    some ((List.range names.length).map fun i => items[i]?.map (Toml.table .header))
  | .moment => some (names.map fun _ => none)
  | _ => none

/-- A setting, or its default when it is absent. -/
def setting? {α : Type} (default : α) (read? : Toml → Option α) : Option Toml → Option α
  | none => some default
  | some value => read? value

/-- Reads a truth value. -/
def bool? : Toml → Option Bool
  | .boolean b => some b
  | _ => none

/-- Reads a double; an integer counts as one. -/
def double? : Toml → Option Float
  | .float x => some x
  | .integer n => some (Double.withSign (n < 0) (Double.ofDecimal n.natAbs 0))
  | _ => none

/-- Reads a natural number. -/
def nat? : Toml → Option Nat
  | .integer (.ofNat n) => some n
  | _ => none

/-- The values of a section, none of which are given when the section is absent. -/
def sectionOf? (entries : Toml.Entries) (name : String) (names : List String) :
    Option (List (Option Toml)) :=
  match Toml.lookup? entries name with
  | none => some (names.map fun _ => none)
  | some section_ => section? names section_

/-- Reads settings from the entries of a file; entries of other names do not count. -/
def ofEntries? (entries : Toml.Entries) : Option Settings := do
  let default : Settings := {}
  match ← sectionOf? entries "per_unit" ["enabled", "power_base"],
      ← sectionOf? entries "display" ["decimal_places"] with
  | [enabled, powerBase], [decimalPlaces] =>
    return ⟨← setting? default.perUnit bool? enabled,
      ← setting? default.powerBase double? powerBase,
      ← setting? default.decimalPlaces nat? decimalPlaces⟩
  | _, _ => none

/-- Reads the settings of a file. -/
def parse? (text : String) : Option Settings := (Toml.parse? text).bind ofEntries?

/-! ### Writing -/

/-- A double in a file of settings. -/
def doubleText (x : Float) : String :=
  if x.isNaN then "nan" else Double.text Double.pointed x

/-- The file of some settings. -/
def text (s : Settings) : String :=
  "[per_unit]\n" ++
    s!"enabled = {s.perUnit}\n" ++
    s!"power_base = {doubleText s.powerBase}\n" ++
    "\n[display]\n" ++
    s!"decimal_places = {s.decimalPlaces}\n"

/-- Settings with what a command asks for: per-unit can be turned on, and the power base
replaced. -/
def override (s : Settings) (perUnit : Bool) (powerBase : Option Float) : Settings :=
  { s with perUnit := perUnit || s.perUnit, powerBase := powerBase.getD s.powerBase }

end Settings

end PowerTables
