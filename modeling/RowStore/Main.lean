import RowStore.CommandLine.Run
import Std.Time.DateTime

/-!
The command line as a program. What a run can touch on the disk is read before it, and what it has
changed is written after it; what happens between is `CommandLine.respond`.
-/

namespace RowStore.CommandLine

/-- A path and the paths of the directories that lead to it, outermost first. -/
def pathsTo (path : String) : List String :=
  let root := if path.startsWith "/" then "/" else ""
  let steps := Path.steps path
  (List.range steps.length).map fun count => root ++ "/".intercalate (steps.take (count + 1))

/-- What a run opens the store with, if it gets that far. -/
def storeOptions (invocation : Invocation) (files : FileSystem) : Except Fault TableOptions := do
  (← Settings.ofProperties (← propertiesOf invocation files)).tableOptions

/-- The files of a store and the directories that lead to them. The snapshot comes before the log,
which is emptied once the snapshot stands. -/
def storePaths (options : TableOptions) : List String :=
  let snapshot := options.snapshotPath
  ([SnapshotWriter.temporaryName snapshot, snapshot, options.logPath].flatMap pathsTo).eraseDups

/-- Take over what the disk has under a path. Only a directory can be opened by its path with a step
to itself behind it. -/
def load (files : FileSystem) (path : String) : IO FileSystem := do
  if let .ok _ ← (IO.FS.Handle.mk (path ++ "/.") .read).toBaseIO then
    return (files.makeDirectorySteps (Path.steps path)).toOption.getD files
  if let .ok stored ← (IO.FS.readBinFile path).toBaseIO then
    return (files.write path stored.toList).toOption.getD files
  return files

/-- Bring the disk to what has become of a path. A file is replaced in one step. -/
def save (before after : FileSystem) (path : String) : IO Unit := do
  match after.lookup path with
  | .ok .directory => if !before.pathExists path then IO.FS.createDir path
  | .ok (.file id) =>
    let bytes := after.content id
    if (before.read path).toOption ≠ some bytes then
      let replacement := path ++ ".new"
      IO.FS.writeBinFile replacement ⟨bytes.toArray⟩
      IO.FS.rename replacement path
  | .error _ => if before.pathExists path then IO.FS.removeFile path

/-- What an invocation can touch, taken over from the disk, and the paths of the store. -/
def loadAll (invocation : Invocation) : IO (FileSystem × List String) := do
  let files ← match invocation.properties with
    | some path => (pathsTo path).foldlM load .empty
    | none => pure .empty
  match storeOptions invocation files with
  | .ok options => return (← (storePaths options).foldlM load files, storePaths options)
  | .error _ => return (files, [])

/-- Run on the disk, and the exit code. -/
def runOnDisk (arguments : List String) : IO UInt32 := do
  let (before, paths) ← match parse arguments with
    | .run invocation => loadAll invocation
    | _ => pure (.empty, [])
  let now ← Std.Time.Timestamp.now
  let timestamp := now.toMillisecondsSinceUnixEpoch.val.toNat.toUInt64
  let (outcome, after) := respond arguments before timestamp
  paths.forM (save before after)
  IO.print outcome.output
  if let some fault := outcome.fault then IO.eprintln fault.message
  return outcome.exitCode.toUInt32

end RowStore.CommandLine

def main (arguments : List String) : IO UInt32 :=
  RowStore.CommandLine.runOnDisk arguments
