import Harvest.Services

/-!
# Registration

A table that is not in the catalog is created, one that differs is altered, and one that
is the same is left alone. A partition is added or moved in the same way; it needs one
value for each key of its table.
-/

namespace Harvest.Catalog

/-- What a registration did. -/
inductive Registered
  | created
  | updated
  | unchanged
  deriving DecidableEq, Repr

/-- The name of an outcome. -/
def Registered.name : Registered → String
  | .created => "Created"
  | .updated => "Updated"
  | .unchanged => "Unchanged"

/-- Registers a table. -/
def registerTable (t : Table) : Engine Registered := do
  match ← Engine.getTable t.database t.name with
  | none =>
    Engine.createTable t
    pure .created
  | some existing =>
    if existing = t then pure .unchanged
    else
      Engine.alterTable t
      pure .updated

/-- Registers a partition of a table. -/
def registerPartition (t : Table) (p : Partition) : Engine Registered := do
  if t.partitionKeys.length ≠ p.values.length then
    throw (.catalog (.valueCount t.partitionKeys.length p.values.length))
  else
    match ← Engine.getPartition t.database t.name p.values with
    | none =>
      Engine.addPartition t.database t.name p
      pure .created
    | some existing =>
      if existing.location = p.location then pure .unchanged
      else
        Engine.alterPartition t.database t.name p
        pure .updated

end Harvest.Catalog
