import RowStore.FileSystem.Disk
import RowStore.Log.Entry

namespace RowStore

/-- The bytes of a log taken apart. -/
structure LogScan where
  entries : List LogEntry
  /-- Whether the scan stopped at a whole frame that is damaged. -/
  damaged : Bool
  /-- Everything from the first torn or damaged frame on. -/
  tail : Bytes
  deriving DecidableEq, Repr

namespace LogScan

/-- The scan of the rest of a log, behind the entries in `earlier`, which are kept latest first. -/
def after (earlier : List LogEntry) (bytes : Bytes) : LogScan :=
  match _read : FrameReading.ofBytes bytes with
  | .whole entry rest => after (entry :: earlier) rest
  | .torn => { entries := earlier.reverse, damaged := false, tail := bytes }
  | .damaged => { entries := earlier.reverse, damaged := true, tail := bytes }
termination_by bytes.length
decreasing_by exact FrameReading.rest_shorter _read

def ofBytes (bytes : Bytes) : LogScan :=
  after [] bytes

end LogScan

structure LogSummary where
  recovered : Nat
  corrupted : Nat
  /-- The sequence number of the last entry, zero if there is none. -/
  lastLsn : UInt64
  truncated : Bool
  deriving DecidableEq, Repr

def LogScan.summary (scan : LogScan) : LogSummary where
  recovered := scan.entries.length
  corrupted := if scan.damaged then 1 else 0
  lastLsn := match scan.entries.getLast? with
    | some entry => entry.lsn
    | none => 0
  truncated := !scan.tail.isEmpty

namespace Log

/-- Look at a log without changing it. -/
def verify (path : String) : Disk LogSummary := do
  let bytes ← Disk.query (·.read path)
  return (LogScan.ofBytes bytes).summary

/-- Read a log and cut off what cannot be read. -/
def recover (path : String) : Disk (List LogEntry × LogSummary) := do
  let file ← Disk.query (·.fileAt path)
  let bytes := (← get).content file
  let scan := LogScan.ofBytes bytes
  if !scan.tail.isEmpty then
    modify (·.resize file (bytes.length - scan.tail.length))
  return (scan.entries, scan.summary)

end Log

end RowStore
