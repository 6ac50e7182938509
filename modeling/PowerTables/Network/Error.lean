import PowerTables.Category
import PowerTables.Table.Basic

/-!
# Refusals of the network store

Everything a store of networks can refuse to do, with the words for it.  A reading of a snapshot
fails for reasons of its own.

## Main definitions

* `SnapshotError` : why a text is not the snapshot of a network.
* `NetworkError` : why an operation on a network is refused.
-/

namespace PowerTables

/-- Why a text is not the snapshot of a network. -/
inductive SnapshotError
  /-- The text does not have the form of a snapshot. -/
  | malformed
  | version (given : Nat)
  | workingVariant (id : String)
  | schema (category : Category) (variant : String)
  | columnLengths (category : Category) (variant : String)
  deriving DecidableEq, Repr

/-- The error in words.  What is wrong with the form of a text is not said. -/
def SnapshotError.message : SnapshotError → String
  | malformed => "<json>"
  | version given => s!"unsupported format version {given}"
  | workingVariant id => s!"working variant '{id}' is not among the variants"
  | schema category variant =>
    s!"{category.name} table of variant '{variant}' does not match the schema"
  | columnLengths category variant =>
    s!"{category.name} table of variant '{variant}' has ragged columns"

/-- Why an operation on a network is refused. -/
inductive NetworkError
  | unknownHandle (handle : Nat)
  | unknownElement (category : Category) (id : String)
  | unknownConnectable (id : String)
  | unknownColumn (category : Category) (column : String)
  | readOnlyColumn (category : Category) (column : String)
  | lengthMismatch (column : String) (keys values : Nat)
  | unknownVariant (id : String)
  | variantExists (id : String)
  /-- The working variant cannot be removed. -/
  | variantInUse (id : String)
  | snapshot (cause : SnapshotError)
  /-- The key has a number where the category has none, or the other way round. -/
  | keyShape (key : RowKey) (category : Category)
  | cellType (column : String) (category : Category) (declared given : CellType)
  /-- The way of writing does not suit the type of the column. -/
  | primitive (column : String) (category : Category) (declared : CellType) (name : String)
  | table (cause : TableError)
  deriving DecidableEq, Repr

/-- The error in words. -/
def NetworkError.message : NetworkError → String
  | unknownHandle handle => s!"unknown network handle {handle}"
  | unknownElement category id => s!"{category.name} '{id}' not found"
  | unknownConnectable id => s!"no connectable element '{id}'"
  | unknownColumn category column => s!"{category.name} has no column '{column}'"
  | readOnlyColumn category column => s!"column '{column}' of {category.name} is read-only"
  | lengthMismatch column keys values =>
    s!"{keys} ids but {values} values for column '{column}'"
  | unknownVariant id => s!"variant '{id}' not found"
  | variantExists id => s!"variant '{id}' already exists"
  | variantInUse id => s!"variant '{id}' is the working variant and cannot be removed"
  | snapshot cause => s!"invalid network snapshot: {cause.message}"
  | keyShape key category =>
    s!"row key '{key.text}' does not fit the {category.name} key shape"
  | cellType column category declared given =>
    s!"column '{column}' of {category.name} is declared {declared.name} " ++
      s!"but got a {given.name} value"
  | primitive column category declared name =>
    s!"column '{column}' of {category.name} is declared {declared.name}; " ++
      s!"the {name} primitive cannot write it"
  | table cause => s!"table error: {cause.message}"

end PowerTables
