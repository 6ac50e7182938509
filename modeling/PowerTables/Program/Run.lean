import PowerTables.Program.Commands
import PowerTables.Program.Logging

/-!
# A run of the program

From the arguments of a run to its exit code and what it prints.

## Main definitions

* `RunResult` : the outcome of a run.
* `Program.run` : the run for a list of arguments.
-/

namespace PowerTables

/-- The outcome of a run: its exit code, the text it prints, the warnings it shows, and the
text of its error. -/
structure RunResult where
  code : Nat
  output : String := ""
  warnings : List String := []
  error : Option String := none

namespace Program

variable {m : Type → Type} [Monad m] [FileSystem m]

/-- The name and the version of the program. -/
def versionText : String := "gridframe-cli 0.1.0"

/-- The outcome of arguments that do not start a command. -/
def refused : CommandLine.Refusal → RunResult
  | .usage => { code := 2 }
  | .help => { code := 0, output := helpText }
  | .version => { code := 0, output := versionText ++ "\n" }

/-- The settings in the file of a run.  Settings that are about to be written are not read. -/
def settingsOf (request : Request) : ProgramM m Settings :=
  match request.command with
  | some (.initSettings _) => return {}
  | _ => loadSettings request.settings

/-- All steps of a request. -/
def steps (request : Request) : ProgramM m Unit := do
  let file ← settingsOf request
  perform request file (file.override request.perUnit request.powerBase)

/-- The run for a list of arguments.  A filter of messages takes the place of their level. -/
def run (logFilter : Option String) (arguments : List String) : m RunResult :=
  match Request.parse arguments with
  | .error refusal => return refused refusal
  | .ok request => do
    let (result, out) ← (steps request).run.run {}
    let shown := LogFilter.showsWarnings request.logLevel logFilter
    let warnings := if shown then out.warnings else []
    match result with
    | .ok () => return { code := 0, output := out.text, warnings := warnings }
    | .error e =>
      return { code := 1, output := out.text, warnings := warnings, error := some e.text }

end Program

end PowerTables
