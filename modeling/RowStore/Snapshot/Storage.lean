import RowStore.FileSystem.Disk
import RowStore.FileSystem.OutputBuffer
import RowStore.Snapshot.Image

namespace RowStore

/-- What is known of a snapshot that has been written or read. -/
structure SnapshotInfo where
  path : String
  entries : Nat
  size : Nat
  deriving DecidableEq, Repr

/-- A snapshot on its way to a file. -/
structure SnapshotWriter where
  path : String
  temporaryPath : String
  file : FileId
  /-- Where the next bytes go in the file. -/
  offset : Nat := 0
  buffer : OutputBuffer := {}
  entries : Nat := 0
  /-- The checksum of the entries so far. -/
  register : ChecksumRegister := ChecksumRegister.initial
  deriving DecidableEq, Repr

namespace SnapshotWriter

def temporaryName (path : String) : String :=
  Path.withExtension path "snap.tmp"

def emit (writer : SnapshotWriter) (pieces : List Bytes) : Disk SnapshotWriter := do
  let (sent, buffer) := writer.buffer.acceptAll pieces
  modify (·.writeAt writer.file writer.offset sent)
  return { writer with buffer, offset := writer.offset + sent.length }

/-- The files once the buffered bytes have been sent on. -/
def flushed (writer : SnapshotWriter) (files : FileSystem) : FileSystem :=
  files.writeAt writer.file writer.offset writer.buffer.held

/-- Begin a snapshot. The entry count in its header is filled in at the end. -/
def create (path : String) : Disk SnapshotWriter := do
  let temporaryPath := temporaryName path
  let file ← Disk.openFile temporaryPath
  modify (·.setContent file [])
  let writer : SnapshotWriter := { path, temporaryPath, file }
  writer.emit [Snapshot.magic, Snapshot.versionField, Snapshot.countField 0]

/-- Add an entry. Keys are to come in ascending order. -/
def add (writer : SnapshotWriter) (key value : Bytes) : Disk SnapshotWriter := do
  if Bytes.fieldRange 4 ≤ key.length then
    Disk.fail (.storage (.entryTooLarge key.length))
  if Bytes.fieldRange 4 ≤ value.length then
    Disk.fail (.storage (.entryTooLarge value.length))
  let written ← writer.emit (Snapshot.entryPieces key value)
  return { written with
    entries := written.entries + 1
    register := written.register.absorb (Snapshot.encodeEntry (key, value)) }

def addAll (writer : SnapshotWriter) (entries : List (Bytes × Bytes)) : Disk SnapshotWriter :=
  entries.foldlM (fun writer entry => writer.add entry.1 entry.2) writer

/-- Write what the file still lacks, and return its size. -/
def complete (writer : SnapshotWriter) : Disk Nat := do
  let closed ← writer.emit
    [Bytes.littleEndian 4 writer.register.value.toNat, Snapshot.padding]
  modify closed.flushed
  modify (·.writeAt writer.file Snapshot.countOffset (Snapshot.countField writer.entries))
  return ((← get).content writer.file).length

/-- Complete the file and give it its name. -/
def finish (writer : SnapshotWriter) : Disk SnapshotInfo := do
  let size ← writer.complete
  Disk.change (·.rename writer.temporaryPath writer.path)
  return { path := writer.path, entries := writer.entries, size }

end SnapshotWriter

namespace Snapshot

/-- Write the entries as the snapshot at a path. -/
def store (path : String) (entries : List (Bytes × Bytes)) : Disk SnapshotInfo := do
  let writer ← SnapshotWriter.create path
  let filled ← writer.addAll entries
  filled.finish

def load (path : String) : Disk (List (Bytes × Bytes) × SnapshotInfo) := do
  let bytes ← Disk.query (·.read path)
  match parse path bytes with
  | .error fault => Disk.fail (.snapshot fault)
  | .ok entries => return (entries, { path, entries := entries.length, size := bytes.length })

end Snapshot

end RowStore
