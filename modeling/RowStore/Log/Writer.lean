import RowStore.FileSystem.Disk
import RowStore.FileSystem.OutputBuffer
import RowStore.Log.Entry
import RowStore.SyncStrategy

namespace RowStore

structure LogWriter where
  path : String
  file : FileId
  buffer : OutputBuffer := {}
  nextLsn : UInt64
  strategy : SyncStrategy
  /-- The entries appended since the last synchronisation. -/
  unsynced : Nat := 0
  deriving DecidableEq, Repr

namespace LogWriter

/-- Open a log, made if it does not exist, to append entries from `nextLsn` on. -/
def openAt (path : String) (strategy : SyncStrategy) (nextLsn : UInt64) : Disk LogWriter := do
  let file ← Disk.openFile path
  return { path, file, nextLsn, strategy }

/-- The files once the buffered bytes have been sent on. -/
def flushed (writer : LogWriter) (files : FileSystem) : FileSystem :=
  files.append writer.file writer.buffer.held

def sync (writer : LogWriter) : Disk LogWriter := do
  modify writer.flushed
  return { writer with buffer := {}, unsynced := 0 }

/-- Put a write at the end of the log, under the sequence number that is returned. -/
def append (writer : LogWriter) (key value : Bytes) (timestamp : UInt64) :
    Disk (UInt64 × LogWriter) := do
  let entry : LogEntry := { lsn := writer.nextLsn, key, value, timestamp }
  match entry.frame with
  | .error fault => Disk.fail fault
  | .ok frame =>
    let (sent, buffer) := writer.buffer.accept frame
    modify (·.append writer.file sent)
    let appended := { writer with
      buffer, nextLsn := writer.nextLsn + 1, unsynced := writer.unsynced + 1 }
    if appended.strategy.isDue appended.unsynced then
      return (entry.lsn, ← appended.sync)
    else
      return (entry.lsn, appended)

def truncate (writer : LogWriter) : Disk LogWriter := do
  let synced ← writer.sync
  modify (·.resize synced.file 0)
  return synced

end LogWriter

end RowStore
