import PowerTables.Program.Basic

/-!
# Where networks come from and go to

A network is a sample, named on the command line, or comes from the file of a snapshot; the name
of a sample wins over a file of that name.  Settings come from a file as well.

## Main definitions

* `NetworkSource` : a sample or a path.
* `Program.openSource`, `Program.openNetwork` : a network opened for a run.
* `Program.saveNetwork` : a snapshot written where a path is given.
* `Program.loadSettings`, `Program.saveSettings` : the file of the settings.
-/

namespace PowerTables

/-- Where a network comes from. -/
inductive NetworkSource
  | sample (sample : Sample)
  | snapshot (path : String)

namespace NetworkSource

/-- The source of a text on the command line. -/
def ofText (raw : String) : NetworkSource :=
  match Sample.ofName? raw with
  | some s => sample s
  | none => snapshot raw

/-- The text of a source. -/
def text : NetworkSource → String
  | sample s => s.name
  | snapshot path => path

end NetworkSource

namespace Program

variable {m : Type → Type} [Monad m] [FileSystem m]

/-- Opens a network in a store of its own. -/
def openSource : NetworkSource → ProgramM m SessionState
  | .sample s =>
    match (Store.ofResult s.network >>= Store.insert).run {} with
    | .ok handle store => return ⟨.open handle, store⟩
    | .error e _ => throw (.session (.network e))
  | .snapshot path => do
    if !(← onFiles (FileSystem.hasPath path)) then throw (.unknownSource path)
    let text ← onFile (.readSnapshot path) (FileSystem.read path)
    match (Store.load text).run {} with
    | .ok handle store => return ⟨.open handle, store⟩
    | .error e _ => throw (.loadSnapshot path e)

/-- Opens a network with the per-unit settings of a run. -/
def openNetwork (source : String) (settings : Settings) : ProgramM m SessionState := do
  let state ← openSource (NetworkSource.ofText source)
  let ((), state) ← inSession state do
    Session.setPowerBase settings.powerBase
    if settings.perUnit then Session.setPerUnit true
  return state

/-- Makes the folder that a path lies in. -/
def makeFolderOf (path : String) : ProgramM m Unit := do
  let folder := FilePath.parent path
  if folder ≠ "" then onFile .makeFolders (FileSystem.createFolders folder)

/-- Writes the snapshot of a network to a path, if there is one, and says so. -/
def saveNetwork (state : SessionState) : Option String → ProgramM m Unit
  | none => return
  | some path => do
    makeFolderOf path
    let (snapshot, _) ← inSession state Session.dump
    onFile (.writeSnapshot path) (FileSystem.write path snapshot)
    printLine s!"Wrote {path}"

/-! ### Settings -/

/-- Where settings are kept in the home folder. -/
def settingsPath? : ProgramM m (Option String) := do
  return (← onFiles FileSystem.home).map (· ++ "/.gridframe/config.toml")

/-- The settings in a file. -/
def readSettings (path : String) : ProgramM m Settings := do
  let text ← onFile (.readSettings path) (FileSystem.read path)
  match Settings.parse? text with
  | some settings => return settings
  | none => throw (.parseSettings path)

/-- The settings of a run: those at a given path, which must be there, or those in the home
folder, or the defaults. -/
def loadSettings : Option String → ProgramM m Settings
  | some path => readSettings path
  | none => do
    match ← settingsPath? with
    | some path => if ← onFiles (FileSystem.hasPath path) then readSettings path else return {}
    | none => return {}

/-- Writes the default settings to a given path or to the home folder, and says so.  A file
that is there is replaced only by force. -/
def saveSettings (explicit : Option String) (force : Bool) : ProgramM m Unit := do
  let some path := explicit <|> (← settingsPath?) | throw .noHome
  if (← onFiles (FileSystem.hasPath path)) && !force then throw (.settingsPresent path)
  makeFolderOf path
  onFile (.writeSettings path) (FileSystem.write path ({} : Settings).text)
  printLine s!"Wrote {path}"

end Program

end PowerTables
