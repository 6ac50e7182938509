import PowerTables.CommandLine.Grammar
import PowerTables.Number.Reading

/-!
# The commands of the program

What can be asked on the command line, as a type, and the grammar that it is read with.

## Main definitions

* `Command` : what a command line asks for.
* `Request` : a command with the options that all commands share.
* `Request.parse` : the request of a list of arguments.
-/

namespace PowerTables

open CommandLine

/-- How many messages are written: a level includes those before it. -/
inductive LogLevel
  | error
  | warning
  | info
  | debug
  | trace
  deriving DecidableEq, Repr

namespace LogLevel

/-- The levels with their names, in order. -/
def named : List (String × LogLevel) :=
  [("error", error), ("warn", warning), ("info", info), ("debug", debug), ("trace", trace)]

/-- The place of a level; silence has the place zero. -/
def rank : LogLevel → Nat
  | error => 1
  | warning => 2
  | info => 3
  | debug => 4
  | trace => 5

/-- The number of decimal digits with an optional plus. -/
def readPlace? (s : String) : Option Nat :=
  let digits := match s.toList with
    | '+' :: rest => rest
    | cs => cs
  (Digits.read? digits).map Digits.toNat

/-- The level of a name, in letters of any size, or of a place from one to five. -/
def ofText? (s : String) : Option LogLevel :=
  match readPlace? s with
  | some place => (named.find? fun entry => entry.2.rank == place).map (·.2)
  | none => (named.find? fun entry => entry.1 == Text.lower s).map (·.2)

end LogLevel

/-- The form of a printed table. -/
inductive TableFormat
  | plain
  | json
  deriving DecidableEq, Repr

/-- The format of a name. -/
def TableFormat.ofName? (name : String) : Option TableFormat :=
  if name = "plain" then some plain else if name = "json" then some json else none

/-- A change of a switch or of a connection. -/
inductive ToggleAction
  | openSwitch
  | closeSwitch
  | connect
  | disconnect
  deriving DecidableEq, Repr

namespace ToggleAction

/-- The action of a name. -/
def ofName? (name : String) : Option ToggleAction :=
  ([("open", openSwitch), ("close", closeSwitch), ("connect", connect),
    ("disconnect", disconnect)].find? (·.1 == name)).map (·.2)

/-- The word for what was done. -/
def participle : ToggleAction → String
  | openSwitch => "opened"
  | closeSwitch => "closed"
  | connect => "connected"
  | disconnect => "disconnected"

end ToggleAction

/-- What a command line asks for.  A source is the name of a sample or the path of a snapshot,
and an output is the path a snapshot is written to. -/
inductive Command
  | categories
  | columns (category : String)
  | demo
  | elements (source category : String) (columns : List String) (variant : Option String)
      (format : TableFormat)
  | ids (source category : String) (nominalVoltages : List Float) (countries : List String)
  | update (source category : String) (assignments : List String) (variant : Option String)
      (output : Option String)
  | toggle (source : String) (action : ToggleAction) (id : String) (output : Option String)
  | dump (source : String) (output : Option String)
  | listVariants (source : String)
  | cloneVariant (source fromId toId : String) (overwrite select : Bool) (output : Option String)
  | removeVariant (source id : String) (output : Option String)
  | showSettings
  | initSettings (force : Bool)

/-- A command with the options that all commands share; without a command, help is given. -/
structure Request where
  logLevel : LogLevel := .info
  /-- The path of the settings. -/
  settings : Option String := none
  perUnit : Bool := false
  powerBase : Option Float := none
  command : Option Command := none

namespace Request

/-! ### Grammar -/

/-- Whether a text can be a path. -/
def isPath (s : String) : Bool := !s.isEmpty

/-- The option of the path that is written to. -/
def outputOption : OptionSpec := { name := "output", letter := some 'o', accepts := isPath }

/-- The option of a variant. -/
def variantOption : OptionSpec := { name := "variant" }

/-- A positional argument that can be any text. -/
def anyText : PositionalSpec := fun _ => true

/-- A command without commands of its own. -/
def leaf (name : String) (positionals : List PositionalSpec) (options : List OptionSpec) :
    CommandSpec :=
  .mk name options positionals [] false

/-- A command that needs one of its own commands. -/
def group (name : String) (commands : List CommandSpec) : CommandSpec :=
  .mk name [] [] commands true

/-- The commands on elements. -/
def elementCommands : List CommandSpec :=
  [leaf "show" [anyText, anyText]
    [{ name := "columns", arity := .values (some ',') }, variantOption,
     { name := "format", accepts := fun s => (TableFormat.ofName? s).isSome }],
   leaf "ids" [anyText, anyText]
    [{ name := "nominal-v", arity := .values (some ',')
       accepts := fun s => (Double.read? s).isSome },
     { name := "country", arity := .values (some ',') }],
   leaf "update" [anyText, anyText]
    [{ name := "set", arity := .values none, required := true }, variantOption, outputOption],
   leaf "toggle" [anyText, fun s => (ToggleAction.ofName? s).isSome, anyText] [outputOption],
   leaf "dump" [anyText] [outputOption]]

/-- The commands on variants. -/
def variantCommands : List CommandSpec :=
  [leaf "list" [anyText] [],
   leaf "clone" [anyText, anyText, anyText]
    [{ name := "overwrite", arity := .flag }, { name := "select", arity := .flag }, outputOption],
   leaf "remove" [anyText, anyText] [outputOption]]

/-- The commands on settings. -/
def settingsCommands : List CommandSpec :=
  [leaf "show" [] [], leaf "init" [] [{ name := "force", arity := .flag }]]

/-- The options that all commands share. -/
def sharedOptions : List OptionSpec :=
  [{ name := "config", accepts := isPath },
   { name := "per-unit", arity := .flag },
   { name := "power-base", accepts := fun s => (Double.read? s).isSome }]

/-- The grammar of the program. -/
def grammar : Grammar where
  root := .mk "" [{ name := "log-level", accepts := fun s => (LogLevel.ofText? s).isSome }] []
    ([leaf "categories" [] [], leaf "columns" [anyText] [], leaf "demo" [] []] ++
      elementCommands ++
      [group "variants" variantCommands, group "config" settingsCommands]) false
  shared := sharedOptions

/-! ### Requests -/

/-- The command of an invocation. -/
def command? (i : Invocation) : Option Command :=
  let output := i.value? "output"
  let variant := i.value? "variant"
  match i.path, i.positionals with
  | ["categories"], [] => some .categories
  | ["columns"], [category] => some (.columns category)
  | ["demo"], [] => some .demo
  | ["show"], [source, category] =>
    let format := ((i.value? "format").bind TableFormat.ofName?).getD .plain
    some (.elements source category (i.values "columns") variant format)
  | ["ids"], [source, category] =>
    some (.ids source category ((i.values "nominal-v").filterMap Double.read?)
      (i.values "country"))
  | ["update"], [source, category] =>
    some (.update source category (i.values "set") variant output)
  | ["toggle"], [source, action, id] =>
    (ToggleAction.ofName? action).map fun action => .toggle source action id output
  | ["dump"], [source] => some (.dump source output)
  | ["variants", "list"], [source] => some (.listVariants source)
  | ["variants", "clone"], [source, fromId, toId] =>
    some (.cloneVariant source fromId toId (i.has "overwrite") (i.has "select") output)
  | ["variants", "remove"], [source, id] => some (.removeVariant source id output)
  | ["config", "show"], [] => some .showSettings
  | ["config", "init"], [] => some (.initSettings (i.has "force"))
  | _, _ => none

/-- The request of a list of arguments. -/
def parse (arguments : List String) : Except Refusal Request := do
  let i ← grammar.parse arguments
  return {
    logLevel := ((i.value? "log-level").bind LogLevel.ofText?).getD .info
    settings := i.value? "config"
    perUnit := i.has "per-unit"
    powerBase := (i.value? "power-base").bind Double.read?
    command := command? i }

end Request

end PowerTables
