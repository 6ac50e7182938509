import PowerTables.Network.Basic

/-!
# Variants of a network

A variant is made by copying another one.  The copy is independent: a later change of either
does not reach the other.

## Main definitions

* `Network.cloneVariant` : copies a variant to a new or an existing id.
* `Network.selectVariant` : makes a variant the working one.
* `Network.removeVariant` : drops a variant that is not the working one.
-/

namespace PowerTables.Network

/-- Copies the tables of a variant to another id.  An existing variant of that id keeps its
place, and is overwritten only if that is allowed. -/
def cloneVariant (n : Network) (source target : String) (mayOverwrite : Bool) :
    Except NetworkError Network :=
  match n.variant? source with
  | none => .error (.unknownVariant source)
  | some v =>
    if n.hasVariant target then
      if mayOverwrite then .ok (n.setTables target v.tables)
      else .error (.variantExists target)
    else .ok { n with variants := n.variants ++ [⟨target, v.tables⟩] }

/-- Makes a variant the working one. -/
def selectVariant (n : Network) (id : String) : Except NetworkError Network :=
  if n.hasVariant id then .ok { n with working := id } else .error (.unknownVariant id)

/-- Drops a variant; the working one cannot be dropped. -/
def removeVariant (n : Network) (id : String) : Except NetworkError Network :=
  if !n.hasVariant id then .error (.unknownVariant id)
  else if n.working = id then .error (.variantInUse id)
  else .ok { n with variants := n.variants.eraseP (·.id == id) }

end PowerTables.Network
