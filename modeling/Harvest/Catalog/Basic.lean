import Harvest.Document.Schema
import Harvest.Text.Quoted

/-!
# Tables and partitions

The nouns of a catalog. A table has a name within a database, a location, columns
and partition keys; a partition has one value for each key and a location.
-/

namespace Harvest.Catalog

/-- A table as it is registered. -/
structure Table where
  database : String
  name : String
  location : String
  columns : List String
  partitionKeys : List String
  deriving DecidableEq, Repr

/-- A partition of a table. -/
structure Partition where
  values : List String
  location : String
  deriving DecidableEq, Repr

/-- Why a catalog refuses a change, or cannot be read. -/
inductive Fault
  | tableExists (database name : String)
  | tableMissing (database name : String)
  | partitionExists (values : List String) (database name : String)
  | partitionMissing (values : List String) (database name : String)
  /-- A partition whose values do not match the keys of its table in number. -/
  | valueCount (keys values : Nat)
  /-- The text of the catalog cannot be read. -/
  | document (path : String) (fault : Document.Fault)
  /-- A catalog service reports a fault of its own. -/
  | reported (message : String)
  deriving DecidableEq, Repr

/-- The text of a fault. -/
def Fault.message : Fault → String
  | .tableExists database name => "table " ++ database ++ "." ++ name ++ " already exists"
  | .tableMissing database name => "table " ++ database ++ "." ++ name ++ " does not exist"
  | .partitionExists values database name =>
    "partition " ++ Text.quotedList values ++ " of " ++ database ++ "." ++ name ++
      " already exists"
  | .partitionMissing values database name =>
    "partition " ++ Text.quotedList values ++ " of " ++ database ++ "." ++ name ++
      " does not exist"
  | .valueCount keys values =>
    "Partition key size is " ++ toString keys ++ " but partition value size is " ++
      toString values
  | .document path fault => path ++ ": " ++ fault.message
  | .reported message => message

end Harvest.Catalog
