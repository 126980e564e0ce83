import RowStore.Properties
import RowStore.Table

namespace RowStore

structure Settings where
  /-- The directory of the engine, needed only by whoever opens it. -/
  path : Option String := none
  poolSize : Nat := 134217728
  strategy : SyncStrategy := .standard
  /-- The fields that a record read in full has to have. -/
  fieldCount : Nat := 10
  deriving DecidableEq, Repr, Inhabited

namespace Settings

def pathKey : String := "btree.dbname"
def poolSizeKey : String := "btree.pool_size"
def strategyKey : String := "btree.wal_sync"
def fieldCountKey : String := "fieldcount"

/-- The settings in a property map. Of several unreadable properties the first in the order pool
size, strategy, field count is reported. -/
def ofProperties (properties : Properties) : Except Fault Settings := do
  let standard : Settings := {}
  let poolSize ← properties.numberD poolSizeKey standard.poolSize
  let strategy ← properties.strategyD strategyKey standard.strategy
  let fieldCount ← properties.numberD fieldCountKey standard.fieldCount
  return { path := (properties.get? pathKey).filter (· ≠ ""), poolSize, strategy, fieldCount }

/-- What the engine is opened with, if the settings say where and give it a page at least. -/
def tableOptions (settings : Settings) : Except Fault TableOptions :=
  match settings.path with
  | none => .error (.config .missingPath)
  | some path =>
    let pages := settings.poolSize / pageSize
    if pages = 0 then .error (.config (.poolTooSmall settings.poolSize pageSize))
    else .ok { path, pages, strategy := settings.strategy }

end Settings

end RowStore
