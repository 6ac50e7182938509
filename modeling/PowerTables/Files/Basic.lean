import PowerTables.Text.Blank

/-!
# Files

What a program does to files, without saying where they are kept.  Paths are texts as a person
types them, with a slash between their steps.

## Main definitions

* `FileFault` : why a file cannot be read or written.
* `FileSystem` : the operations on files.
* `FilePath.steps`, `FilePath.names`, `FilePath.parent` : the steps of a path, those that lead
  somewhere, and the folder it lies in.
-/

namespace PowerTables

/-- Why a file or a folder cannot be read or written. -/
inductive FileFault
  | absent
  | present
  | notFolder
  | folder
  | tooLong
  | other (text : String)
  deriving DecidableEq, Repr

/-- The fault in words. -/
def FileFault.message : FileFault → String
  | absent => "No such file or directory (os error 2)"
  | present => "File exists (os error 17)"
  | notFolder => "Not a directory (os error 20)"
  | folder => "Is a directory (os error 21)"
  | tooLong => "File name too long (os error 36)"
  | other text => text

/-- The operations on files. -/
class FileSystem (m : Type → Type) where
  /-- The path of the home folder, if there is one. -/
  home : m (Option String)
  /-- Whether there is a file or a folder at a path. -/
  hasPath (path : String) : m Bool
  /-- The content of a file. -/
  read (path : String) : m (Except FileFault String)
  /-- Makes a folder and those it lies in. -/
  createFolders (path : String) : m (Except FileFault Unit)
  /-- Writes a file, whatever its content was. -/
  write (path content : String) : m (Except FileFault Unit)

namespace FilePath

/-- The greatest number of bytes in a name. -/
def longestName : Nat := 255

/-- The greatest number of bytes in a path. -/
def longestPath : Nat := 4095

/-- The step that stays in a folder. -/
def stay : String := "."

/-- The step to the folder that a folder lies in. -/
def up : String := ".."

/-- Whether a path starts at the root of all files. -/
def isAbsolute (path : String) : Bool := path.toList.head? == some '/'

/-- Whether a path ends in a slash, so that it names a folder. -/
def endsInSlash (path : String) : Bool := path.toList.getLast? == some '/'

/-- The steps of a path; several slashes are like one. -/
def steps (path : String) : List String := (Text.split '/' path).filter (· != "")

/-- The steps of a path that leave a folder. -/
def names (path : String) : List String := (steps path).filter (· != stay)

/-- Whether a text between two slashes leads nowhere. -/
def isIdle (piece : String) : Bool := piece == "" || piece == stay

/-- The folder that a path lies in; it is empty when that is the working folder. -/
def parent (path : String) : String :=
  let above := ((Text.split '/' path).reverse.dropWhile isIdle).tail.dropWhile isIdle
  if above.isEmpty && isAbsolute path then "/" else Text.joinWith "/" above.reverse

end FilePath

end PowerTables
