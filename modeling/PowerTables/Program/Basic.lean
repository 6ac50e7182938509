import PowerTables.Assignment
import PowerTables.CommandLine.Command
import PowerTables.Files.Basic
import PowerTables.Session.Filter
import PowerTables.Session.Variants
import PowerTables.Settings
import PowerTables.Network.Samples

/-!
# The program

A run of the program reads and writes files, prints, and may end with an error.  What was
printed before an error stays printed.

## Main definitions

* `ProgramError` : why a run ends early, with the text that is shown.
* `Output`, `ProgramM` : what a run prints, and its steps.
* `Program.print`, `Program.warn` : printing.
* `Program.inSession` : a step on an open network.
-/

namespace PowerTables

/-- Why a run of the program ends early. -/
inductive ProgramError
  | category (raw : String)
  | assignment (cause : AssignmentError)
  | session (cause : SessionError)
  | unknownSource (path : String)
  | readSnapshot (path : String) (fault : FileFault)
  | loadSnapshot (path : String) (cause : NetworkError)
  | writeSnapshot (path : String) (fault : FileFault)
  | noHome
  | readSettings (path : String) (fault : FileFault)
  | parseSettings (path : String)
  | writeSettings (path : String) (fault : FileFault)
  | settingsPresent (path : String)
  | makeFolders (fault : FileFault)

namespace ProgramError

/-- The names of the samples, as a list for a person. -/
def sampleNames : String := Text.joinWith ", " (Sample.all.map (·.name))

/-- What went wrong. -/
def message : ProgramError → String
  | category raw => Category.unknownMessage raw
  | assignment cause => cause.message
  | session cause => cause.message
  | unknownSource path =>
    s!"'{path}' is neither a built-in network ({sampleNames}) nor an existing snapshot file"
  | readSnapshot path _ => s!"reading snapshot {path}"
  | loadSnapshot path _ => s!"loading snapshot {path}"
  | writeSnapshot path _ => s!"writing snapshot {path}"
  | noHome => "could not determine config directory"
  | readSettings path _ => s!"reading config {path}"
  | parseSettings path => s!"parsing config {path}"
  | writeSettings path _ => s!"writing config {path}"
  | settingsPresent path => s!"{path} already exists; pass --force to overwrite"
  | makeFolders fault => fault.message

/-- What it came from, where that is told apart. -/
def cause? : ProgramError → Option String
  | readSnapshot _ fault | writeSnapshot _ fault | readSettings _ fault
  | writeSettings _ fault => some fault.message
  | loadSnapshot _ cause => some cause.message
  | _ => none

/-- The text with four blanks at the start of every line. -/
def indented (text : String) : String :=
  Text.joinWith "\n" ((Text.split '\n' text).map fun line => "    " ++ line)

/-- The text that is shown for an error. -/
def text (e : ProgramError) : String :=
  "Error: " ++ e.message ++
    match e.cause? with
    | none => ""
    | some cause => "\n\nCaused by:\n" ++ indented cause

end ProgramError

/-- What a run prints, and the warnings it gives. -/
structure Output where
  text : String := ""
  warnings : List String := []

/-- A step of a run. -/
abbrev ProgramM (m : Type → Type) := ExceptT ProgramError (StateT Output m)

namespace Program

variable {m : Type → Type} [Monad m]

/-- Prints a text. -/
def print (text : String) : ProgramM m Unit :=
  modify fun out => { out with text := out.text ++ text }

/-- Prints a line. -/
def printLine (text : String) : ProgramM m Unit := print (text ++ "\n")

/-- Gives a warning. -/
def warn (text : String) : ProgramM m Unit :=
  modify fun out => { out with warnings := out.warnings ++ [text] }

/-- The outcome of a computation, with its error as one of the program. -/
def ofResult {ε α : Type} (wrap : ε → ProgramError) : Except ε α → ProgramM m α
  | .ok a => pure a
  | .error e => throw (wrap e)

/-- An operation on files. -/
def onFiles {α : Type} (op : m α) : ProgramM m α := liftM op

/-- An operation on files that can fail. -/
def onFile {α : Type} (wrap : FileFault → ProgramError) (op : m (Except FileFault α)) :
    ProgramM m α := do
  ofResult wrap (← onFiles op)

/-- A step on an open network; gives its answer and the network after it. -/
def inSession {α : Type} (state : SessionState) (op : SessionM α) :
    ProgramM m (α × SessionState) :=
  match op.run state with
  | .ok a state => pure (a, state)
  | .error e _ => throw (.session e)

/-- The category of a name as a person writes it. -/
def categoryOf (raw : String) : ProgramM m Category :=
  match Category.parse? raw with
  | some c => pure c
  | none => throw (.category raw)

end Program

end PowerTables
