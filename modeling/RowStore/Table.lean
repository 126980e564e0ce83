import RowStore.Log.Recovery
import RowStore.Log.Writer
import RowStore.Snapshot.Storage
import RowStore.Table.Contents

/-!
Durable tables. A table lives in a directory with the snapshot of its last checkpoint and the log
of the writes since; opening it loads the one and replays the other. Once the logged writes use up
the pool budget, the next write makes a checkpoint.
-/

namespace RowStore

/-- The unit that a pool budget is given in. -/
def pageSize : Nat := 4096

structure TableOptions where
  path : String
  pages : Nat
  strategy : SyncStrategy := .standard
  deriving DecidableEq, Repr

namespace TableOptions

def poolBytes (options : TableOptions) : Nat :=
  saturated (options.pages * pageSize)

def logName : String := "wal.log"

def snapshotName : String := "table.snap"

def logPath (options : TableOptions) : String :=
  Path.join options.path logName

def snapshotPath (options : TableOptions) : String :=
  Path.join options.path snapshotName

end TableOptions

structure Table where
  options : TableOptions
  contents : Contents
  log : LogWriter
  /-- The bytes logged since the last checkpoint. -/
  dirty : Nat
  /-- The least number of dirty bytes at which a write makes a checkpoint. -/
  checkpointAt : Nat

namespace Table

/-- The entries of the last checkpoint, none if there has been none. -/
def loadSnapshot (path : String) : Disk (List (Bytes × Bytes)) := do
  if (← get).pathExists path then
    let (entries, _) ← Snapshot.load path
    return entries
  else return []

/-- The writes in the log and the sequence number to go on with. -/
def replayLog (path : String) : Disk (List LogEntry × UInt64) := do
  if (← get).pathExists path then
    let (entries, summary) ← Log.recover path
    return (entries, summary.lastLsn + 1)
  else return ([], 1)

/-- Open a table, made if it does not exist. -/
def openAt (options : TableOptions) : Disk Table := do
  Disk.makeDirectories options.path
  let saved ← loadSnapshot options.snapshotPath
  let (logged, nextLsn) ← replayLog options.logPath
  let log ← LogWriter.openAt options.logPath options.strategy nextLsn
  return {
    options
    contents := (Contents.empty.putAll saved).putAll
      (logged.map fun entry => (entry.key, entry.value))
    log
    dirty := total LogEntry.weight logged
    checkpointAt := options.poolBytes }

def find? (table : Table) (key : Bytes) : Option Bytes :=
  table.contents.find? key

/-- The entries with keys from `start` on, in key order. -/
def entriesFrom (table : Table) (start : Bytes) : List (Bytes × Bytes) :=
  table.contents.map.entriesFrom start

/-- Save all entries in a snapshot and empty the log, which is left alone if the snapshot cannot be
saved. Only that can fail, and it is done before anything of the table changes, log and counts
included. So a failure returns no table: whoever asked goes on with the one that was there. -/
def checkpoint (table : Table) : Disk (SnapshotInfo × Table) := do
  let info ← Snapshot.store table.options.snapshotPath table.contents.map.entries
  let log ← table.log.truncate
  return (info, { table with log, dirty := 0, checkpointAt := table.options.poolBytes })

/-- The table with a write in its log and its contents. -/
def record (table : Table) (key value : Bytes) (timestamp : UInt64) : Disk Table := do
  let (_, log) ← table.log.append key value timestamp
  return { table with
    log
    contents := table.contents.put key value
    dirty := table.dirty + (key.length + value.length) }

/-- The table after a checkpoint that could not be made: the next one is due after another budget
of writes. -/
def postponed (table : Table) : Table :=
  { table with checkpointAt := saturated (table.dirty + table.options.poolBytes) }

/-- Make a checkpoint if one is due. The outcome is that of the checkpoint, if one was tried. -/
def checkpointIfDue (table : Table) : Disk (Option (Except Fault SnapshotInfo) × Table) := do
  if table.dirty < table.checkpointAt then return (none, table)
  else
    match ← Disk.attempt table.checkpoint with
    | .ok (info, saved) => return (some (.ok info), saved)
    | .error fault => return (some (.error fault), table.postponed)

/-- Write an entry. A checkpoint that fails does not fail the write, which is in the log. -/
def put (table : Table) (key value : Bytes) (timestamp : UInt64) : Disk Table := do
  let recorded ← table.record key value timestamp
  let (_, table) ← recorded.checkpointIfDue
  return table

/-- The files after the table has been given up without closing it. -/
def abandoned (table : Table) (files : FileSystem) : FileSystem :=
  table.log.flushed files

/-- Close the table, with a checkpoint if there have been writes. A table whose checkpoint fails is
given up. -/
def close (table : Table) : Disk Unit := do
  let saved ← if table.dirty = 0 then pure table
    else match ← Disk.attempt table.checkpoint with
      | .ok (_, saved) => pure saved
      | .error fault => do
        modify table.abandoned
        Disk.fail fault
  let _ ← saved.log.sync

end Table

end RowStore
