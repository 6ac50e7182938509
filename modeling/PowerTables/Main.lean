import PowerTables.Program.Run

/-!
# The program on a machine

The files of the machine as a file system, and the entry point.  The program itself is
`Program.run`; here its outcome is printed.

## Main definitions

* `main` : the entry point.
-/

namespace PowerTables

/-- The fault of an error of the machine. -/
def FileFault.ofMachine : IO.Error → FileFault
  | .noFileOrDirectory .. => .absent
  | .alreadyExists .. => .present
  | .invalidArgument _ 36 _ => .tooLong
  | .inappropriateType _ code _ => if code = 21 then .folder else .notFolder
  | e => .other (toString e)

/-- The outcome of an operation of the machine. -/
def onMachine {α : Type} (op : IO α) : IO (Except FileFault α) := do
  match ← op.toBaseIO with
  | .ok a => return .ok a
  | .error e => return .error (.ofMachine e)

instance : FileSystem IO where
  home := IO.getEnv "HOME"
  hasPath path := return (← (IO.FS.realPath path).toBaseIO).toBool
  read path := onMachine (IO.FS.readFile path)
  createFolders path := onMachine (IO.FS.createDirAll path)
  write path content := onMachine (IO.FS.writeFile path content)

/-- The variable of the environment that holds a filter of messages. -/
def logFilterVariable : String := "POWER_TABLES_LOG"

end PowerTables

open PowerTables in
/-- Runs the program: prints what it prints, and its warnings and its error on the side. -/
def main (arguments : List String) : IO UInt32 := do
  let result ← Program.run (← IO.getEnv logFilterVariable) arguments
  IO.print result.output
  result.warnings.forM fun warning => IO.eprintln s!"WARN {warning}"
  result.error.forM fun error => IO.eprintln error
  return result.code.toUInt32
