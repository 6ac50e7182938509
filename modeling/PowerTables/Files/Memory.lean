import PowerTables.Files.Basic

/-!
# Files in memory

Files as a value: folders and contents, each under its place, which is the list of names that
leads to it from the root of all files.  The working folder is the home folder too.

## Main definitions

* `Files` : folders and contents.
* `Files.locate` : the place a path leads to.
* `Files.content`, `Files.createFolders`, `Files.save` : the operations.
-/

namespace PowerTables

/-- Folders and contents of files, by their places. -/
structure Files where
  /-- The place of the working folder. -/
  home : List String := []
  folders : List (List String) := []
  contents : List (List String × String) := []

namespace Files

/-- Whether there is a folder at a place. -/
def isFolder (fs : Files) (place : List String) : Bool :=
  place.isEmpty || fs.folders.contains place

/-- The content of the file at a place. -/
def contentAt? (fs : Files) (place : List String) : Option String :=
  (fs.contents.find? (·.1 == place)).map (·.2)

/-- Whether there is a file at a place. -/
def isFile (fs : Files) (place : List String) : Bool := (fs.contentAt? place).isSome

/-! ### Walking -/

/-- Why a place is not a folder. -/
def faultAt (fs : Files) (place : List String) : FileFault :=
  if fs.isFile place then .notFolder else .absent

/-- Goes on from a place by some steps.  A step needs a folder to start in; there need not be
anything where the last one leads. -/
def walk (fs : Files) : List String → List String → Except FileFault (List String)
  | place, [] => .ok place
  | place, step :: rest =>
    if !fs.isFolder place then .error (fs.faultAt place)
    else if step = FilePath.stay then walk fs place rest
    else if step = FilePath.up then walk fs place.dropLast rest
    else if FilePath.longestName < step.utf8ByteSize then .error .tooLong
    else walk fs (place ++ [step]) rest

/-- The place that a path starts from. -/
def start (fs : Files) (path : String) : List String :=
  if FilePath.isAbsolute path then [] else fs.home

/-- The steps of a path, when it is neither empty nor too long. -/
def stepsOf (path : String) : Except FileFault (List String) :=
  if path = "" then .error .absent
  else if FilePath.longestPath < path.utf8ByteSize then .error .tooLong
  else .ok (FilePath.steps path)

/-- The place that a path leads to. -/
def locate (fs : Files) (path : String) : Except FileFault (List String) := do
  fs.walk (fs.start path) (← stepsOf path)

/-- Whether there is a file or a folder at a path. -/
def hasPath (fs : Files) (path : String) : Bool :=
  match fs.locate path with
  | .ok place => fs.isFolder place || (fs.isFile place && !FilePath.endsInSlash path)
  | .error _ => false

/-- The content of the file at a path. -/
def content (fs : Files) (path : String) : Except FileFault String := do
  let place ← fs.locate path
  if fs.isFolder place then throw .folder
  match fs.contentAt? place with
  | none => throw .absent
  | some content => if FilePath.endsInSlash path then throw .notFolder else return content

/-! ### Folders -/

/-- Makes the folder that some steps lead to.  Nothing may be there, and the folder that it lies
in must be there. -/
def makeFolder (fs : Files) (start steps : List String) : Except FileFault Files := do
  let place ← fs.walk start steps
  if fs.isFolder place || fs.isFile place then throw .present
  return { fs with folders := fs.folders ++ [place] }

/-- Whether some steps lead to a folder. -/
def leadsToFolder (fs : Files) (start steps : List String) : Bool :=
  match fs.walk start steps with
  | .ok place => fs.isFolder place
  | .error _ => false

/-- Makes the folder that some steps lead to, unless it is there. -/
def needFolder (fs : Files) (start steps : List String) : Files × Option FileFault :=
  match fs.makeFolder start steps with
  | .ok fs => (fs, none)
  | .error fault => (fs, if fs.leadsToFolder start steps then none else some fault)

/-- Makes the folder that some steps lead to, and those it lies in when they are not there.  The
steps are given from the last one on; what was made before a fault stays. -/
def makeFolders (fs : Files) (start : List String) : List String → Files × Option FileFault
  | [] => (fs, none)
  | last :: above =>
    let steps := (last :: above).reverse
    match fs.needFolder start steps with
    | (_, some .absent) =>
      match makeFolders fs start above with
      | (fs, none) => fs.needFolder start steps
      | refused => refused
    | result => result

/-- Makes the folder at a path and those it lies in. -/
def createFolders (fs : Files) (path : String) : Files × Option FileFault :=
  if FilePath.longestPath < path.utf8ByteSize then (fs, some .tooLong)
  else fs.makeFolders (fs.start path) (FilePath.names path).reverse

/-! ### Writing -/

/-- Puts a content at a place. -/
def put (fs : Files) (place : List String) (content : String) : Files :=
  { fs with contents := fs.contents.filter (·.1 != place) ++ [(place, content)] }

/-- Writes the file at a path.  A path that ends in a slash is that of a folder, whatever is
there. -/
def save (fs : Files) (path content : String) : Except FileFault Files := do
  if FilePath.endsInSlash path then
    let above := (← stepsOf path).dropLast
    let _ ← fs.walk (fs.start path) (above ++ [FilePath.stay])
    throw .folder
  let place ← fs.locate path
  if fs.isFolder place then throw .folder
  return fs.put place content

/-- The files of some paths and contents, with the folders they lie in, and the home folder. -/
def ofList (home : String) (entries : List (String × String)) : Files :=
  let start := { (({} : Files).createFolders home).1 with home := FilePath.names home }
  entries.foldl (fun fs (path, content) =>
    let fs := (fs.createFolders (FilePath.parent path)).1
    match fs.save path content with
    | .ok fs => fs
    | .error _ => fs) start

end Files

instance : FileSystem (StateM Files) where
  home := return some ("/" ++ Text.joinWith "/" (← get).home)
  hasPath path := return (← get).hasPath path
  read path := return (← get).content path
  createFolders path := do
    let (fs, fault) := (← get).createFolders path
    set fs
    match fault with
    | none => return .ok ()
    | some fault => return .error fault
  write path content := do
    match (← get).save path content with
    | .ok fs => set fs; return .ok ()
    | .error fault => return .error fault

end PowerTables
