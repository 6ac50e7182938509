import PowerTables.Text.Blank

/-!
# Command lines

The grammar of a program's arguments is a tree of commands, each with options, flags and
positional arguments.  Some options belong to all commands and may stand before or after the
name of a command.  Arguments are read from left to right, and the first one that does not fit,
or that asks for help or for the version, settles the outcome.

A value may follow its option or be attached to it with an equals sign; one that starts with a
hyphen has to be attached.  After two hyphens all arguments are positional.

## Main definitions

* `CommandLine.OptionSpec`, `CommandLine.CommandSpec`, `CommandLine.Grammar` : grammars.
* `CommandLine.Invocation` : the arguments of a command, sorted.
* `CommandLine.Grammar.parse` : the invocation of a list of arguments.
-/

namespace PowerTables.CommandLine

/-! ### Grammars -/

/-- What an option takes. -/
inductive Arity
  /-- Nothing. -/
  | flag
  /-- One value. -/
  | value
  /-- Any number of values, by repetition and, with a separator, by splitting. -/
  | values (separator : Option Char)
  deriving DecidableEq, Repr

/-- An option or a flag. -/
structure OptionSpec where
  name : String
  letter : Option Char := none
  arity : Arity := .value
  required : Bool := false
  /-- Whether a text is a value of the option. -/
  accepts : String → Bool := fun _ => true

/-- A positional argument: whether a text is a value of it. -/
abbrev PositionalSpec := String → Bool

/-- A command.  One that has commands of its own may need one of them. -/
inductive CommandSpec
  | mk (name : String) (options : List OptionSpec) (positionals : List PositionalSpec)
      (commands : List CommandSpec) (needsCommand : Bool)

namespace CommandSpec

/-- The name of a command. -/
def name : CommandSpec → String
  | mk name _ _ _ _ => name

/-- The options that belong to a command alone. -/
def options : CommandSpec → List OptionSpec
  | mk _ options _ _ _ => options

/-- The positional arguments of a command. -/
def positionals : CommandSpec → List PositionalSpec
  | mk _ _ positionals _ _ => positionals

/-- The commands of a command. -/
def commands : CommandSpec → List CommandSpec
  | mk _ _ _ commands _ => commands

/-- Whether one of the commands has to be given. -/
def needsCommand : CommandSpec → Bool
  | mk _ _ _ _ needsCommand => needsCommand

/-- The command of a name. -/
def command? (spec : CommandSpec) (name : String) : Option CommandSpec :=
  spec.commands.find? (·.name == name)

end CommandSpec

/-- The grammar of a program: its root command, and the options of all commands. -/
structure Grammar where
  root : CommandSpec
  shared : List OptionSpec

/-- The outcome of arguments that do not start a command. -/
inductive Refusal
  /-- The arguments do not fit. -/
  | usage
  | help
  | version
  deriving DecidableEq, Repr

/-! ### Reading -/

/-- The arguments of one command that have been read. -/
structure Level where
  spec : CommandSpec
  /-- The values of the options; a flag has none. -/
  options : List (String × List String) := []
  positionals : List String := []
  /-- The option before, and its value when that has come. -/
  pending : Option (OptionSpec × Option String) := none

/-- The state of a reading: the command that is read, the commands it is part of, the innermost
first, and whether two hyphens have come. -/
structure Progress where
  current : Level
  outer : List Level := []
  trailing : Bool := false

namespace Level

/-- The values a text stands for. -/
def split (option : OptionSpec) (value : String) : List String :=
  match option.arity with
  | .values (some separator) => Text.split separator value
  | _ => [value]

/-- The values that an option has so far. -/
def values? (level : Level) (name : String) : Option (List String) :=
  (level.options.find? (·.1 == name)).map (·.2)

/-- Adds an option with some values; only one that takes many may be repeated. -/
def add (level : Level) (option : OptionSpec) (values : List String) : Except Refusal Level :=
  if !values.all option.accepts then .error .usage
  else match level.values? option.name with
    | none => .ok { level with options := level.options ++ [(option.name, values)] }
    | some before =>
      match option.arity with
      | .values _ =>
        let options := level.options.filter (·.1 != option.name)
        .ok { level with options := options ++ [(option.name, before ++ values)] }
      | _ => .error .usage

/-- Settles the option before: it must have its value. -/
def settle (level : Level) : Except Refusal Level :=
  match level.pending with
  | none => .ok level
  | some (_, none) => .error .usage
  | some (option, some value) => { level with pending := none }.add option (split option value)

/-- Takes an option, with its attached value if there is one. -/
def take (level : Level) (option : OptionSpec) (attached : Option String) :
    Except Refusal Level := do
  let level ← level.settle
  match option.arity, attached with
  | .flag, none => level.add option []
  | .flag, some _ => throw .usage
  | _, some value => level.add option (split option value)
  | _, none => return { level with pending := some (option, none) }

/-- Takes a positional argument. -/
def takePositional (level : Level) (value : String) : Except Refusal Level := do
  let level ← level.settle
  match level.spec.positionals[level.positionals.length]? with
  | none => throw .usage
  | some accepts =>
    if accepts value then return { level with positionals := level.positionals ++ [value] }
    else throw .usage

/-- Whether the option before still waits for its value. -/
def isWaiting (level : Level) : Bool :=
  match level.pending with
  | some (_, none) => true
  | _ => false

/-- Checks that a command has all it needs, apart from a command of its own. -/
def finish (level : Level) : Except Refusal Level := do
  let level ← level.settle
  let complete := level.positionals.length == level.spec.positionals.length &&
    level.spec.options.all fun option => !option.required || (level.values? option.name).isSome
  if complete then return level else throw .usage

end Level

/-- The name of the option, and of the command, that asks for help. -/
def helpName : String := "help"

namespace Grammar

/-- The options that may stand at a level. -/
def optionsAt (g : Grammar) (level : Level) : List OptionSpec := level.spec.options ++ g.shared

/-- The outcome of asking for help on a command; the rest names the command. -/
def helpOn : CommandSpec → List String → Refusal
  | _, [] => .help
  | spec, name :: rest =>
    match spec.command? name with
    | some command => helpOn command rest
    | none => if name = helpName && !spec.commands.isEmpty && rest.isEmpty then .help else .usage

/-- Takes an option by its name. -/
def takeLong (g : Grammar) (p : Progress) (name : String) (attached : Option String) :
    Except Refusal Progress :=
  let ask (refusal : Refusal) : Except Refusal Progress :=
    if attached.isSome then .error .usage
    else p.current.settle.bind fun _ => .error refusal
  match (g.optionsAt p.current).find? (·.name == name) with
  | some option => (p.current.take option attached).map fun level => { p with current := level }
  | none =>
    if name = helpName then ask .help
    else if name = "version" && p.outer.isEmpty then ask .version
    else .error .usage

/-- The value attached to a letter: what follows it, without an equals sign in front. -/
def attachedTo : List Char → Option String
  | [] => none
  | '=' :: rest => some (String.ofList rest)
  | rest => some (String.ofList rest)

/-- Takes options by their letters.  The first one that takes a value takes what follows it. -/
def takeLetters (g : Grammar) (p : Progress) : List Char → Except Refusal Progress
  | [] => .ok p
  | letter :: rest =>
    match (g.optionsAt p.current).find? (·.letter == some letter) with
    | some option =>
      match option.arity with
      | .flag => do
        let level ← p.current.take option none
        takeLetters g { p with current := level } rest
      | _ => (p.current.take option (attachedTo rest)).map fun level => { p with current := level }
    | none =>
      if letter = 'h' then p.current.settle.bind fun _ => .error .help
      else if letter = 'V' && p.outer.isEmpty then p.current.settle.bind fun _ => .error .version
      else .error .usage

/-- Takes an argument that is not the name of a command. -/
def takeArgument (g : Grammar) (p : Progress) (argument : String) : Except Refusal Progress :=
  let positional (_ : Unit) :=
    (p.current.takePositional argument).map fun level => { p with current := level }
  if p.trailing then positional ()
  else match argument.toList with
    | ['-', '-'] => .ok { p with trailing := true }
    | '-' :: '-' :: name =>
      match Text.splitFirst? '=' name with
      | some (name, value) => g.takeLong p (String.ofList name) (some (String.ofList value))
      | none => g.takeLong p (String.ofList name) none
    | '-' :: letter :: letters => g.takeLetters p (letter :: letters)
    | _ =>
      match p.current.pending with
      | some (option, none) =>
        .ok { p with current := { p.current with pending := some (option, some argument) } }
      | _ => positional ()

/-- The command that an argument names, where one can stand. -/
def commandAt? (p : Progress) (argument : String) : Option CommandSpec :=
  if p.trailing || p.current.isWaiting then none else p.current.spec.command? argument

/-- Whether an argument is the command that asks for help. -/
def isHelpCommand (p : Progress) (argument : String) : Bool :=
  !p.trailing && !p.current.isWaiting && !p.current.spec.commands.isEmpty &&
    argument == helpName

/-- Reads arguments. -/
def read (g : Grammar) (p : Progress) : List String → Except Refusal Progress
  | [] => .ok p
  | argument :: rest =>
    match commandAt? p argument with
    | some command => read g ⟨{ spec := command }, p.current :: p.outer, false⟩ rest
    | none =>
      if isHelpCommand p argument then .error (helpOn p.current.spec rest)
      else match g.takeArgument p argument with
        | .error e => .error e
        | .ok p => read g p rest

end Grammar

/-- The arguments of a command, sorted. -/
structure Invocation where
  /-- The names of the command and of those it is part of, the outermost first. -/
  path : List String
  /-- The options of the levels, the innermost level first. -/
  options : List (String × List String)
  positionals : List String

namespace Invocation

/-- The values of an option, from the innermost level that has it. -/
def values? (i : Invocation) (name : String) : Option (List String) :=
  (i.options.find? (·.1 == name)).map (·.2)

/-- Whether a flag or an option is given. -/
def has (i : Invocation) (name : String) : Bool := (i.values? name).isSome

/-- The values of an option, none when it is not given. -/
def values (i : Invocation) (name : String) : List String := (i.values? name).getD []

/-- The first value of an option. -/
def value? (i : Invocation) (name : String) : Option String := (i.values name).head?

end Invocation

/-- The invocation of a list of arguments. -/
def Grammar.parse (g : Grammar) (arguments : List String) : Except Refusal Invocation := do
  let p ← g.read ⟨{ spec := g.root }, [], false⟩ arguments
  let levels ← (p.current :: p.outer).mapM Level.finish
  if p.current.spec.needsCommand then throw .usage
  return ⟨(levels.map (·.spec.name)).reverse.drop 1, levels.flatMap (·.options),
    p.current.positionals⟩

end PowerTables.CommandLine
