import PowerTables.Session.Basic

/-!
# Variants of a session

The operations on variants ask the store for its variants first, and fail with an error of the
session where the store would refuse.

## Main definitions

* `VariantAccess` : the operations on the variants of a handle.
* `Session.variants` : those of the network of a session.
-/

namespace PowerTables

/-- The access to the variants of the network of a handle. -/
structure VariantAccess where
  handle : Nat

namespace VariantAccess

/-- The ids of the variants, in order. -/
def list (v : VariantAccess) : SessionM (List String) :=
  Session.onStore (Store.variantIds v.handle)

/-- The id of the working variant. -/
def current (v : VariantAccess) : SessionM String :=
  Session.onStore (Store.workingVariant v.handle)

/-- Fails unless there is a variant of an id. -/
def require (v : VariantAccess) (id : String) : SessionM Unit := do
  if !(← v.list).contains id then throw (.unknownVariant id)

/-- Copies a variant; the working variant stays the same. -/
def clone (v : VariantAccess) (source target : String) (mayOverwrite : Bool) :
    SessionM Unit := do
  v.require source
  if !mayOverwrite then
    if (← v.list).contains target then throw (.variantExists target)
  Session.onStore (Store.cloneVariant v.handle source target mayOverwrite)

/-- Makes a variant the working one. -/
def select (v : VariantAccess) (id : String) : SessionM Unit := do
  v.require id
  Session.onStore (Store.selectVariant v.handle id)

/-- Drops a variant that is not the working one. -/
def remove (v : VariantAccess) (id : String) : SessionM Unit := do
  v.require id
  if (← v.current) = id then throw (.variantInUse id)
  Session.onStore (Store.removeVariant v.handle id)

end VariantAccess

/-- The access to the variants of the network of a session. -/
def Session.variants : SessionM VariantAccess := return ⟨(← get).session.handle⟩

end PowerTables
