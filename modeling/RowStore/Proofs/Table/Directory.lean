import RowStore.Proofs.FileSystem.Extension
import RowStore.Proofs.Snapshot.Storage
import RowStore.Proofs.Table.Contents
import RowStore.Proofs.Table.Steps

namespace RowStore

open FileSystem

namespace TableOptions

/-- The name that a snapshot has until it is complete. -/
def temporaryName : String := "table.snap.tmp"

theorem logName_isName : Path.IsName logName :=
  ⟨by decide, by decide, by decide, by decide⟩

theorem snapshotName_isName : Path.IsName snapshotName :=
  ⟨by decide, by decide, by decide, by decide⟩

theorem temporaryName_isName : Path.IsName temporaryName :=
  ⟨by decide, by decide, by decide, by decide⟩

theorem logName_ne_snapshotName : logName ≠ snapshotName := by decide

theorem logName_ne_temporaryName : logName ≠ temporaryName := by decide

theorem snapshotName_ne_temporaryName : snapshotName ≠ temporaryName := by decide

theorem temporaryName_snapshotPath (options : TableOptions) :
    SnapshotWriter.temporaryName options.snapshotPath = Path.join options.path temporaryName :=
  Path.withExtension_join options.path "snap.tmp" snapshotName_isName (by decide)

end TableOptions

/-- A write as it was asked for, with the time at which it is logged. -/
structure Write where
  key : Bytes
  value : Bytes
  timestamp : UInt64
  deriving DecidableEq, Repr

namespace Write

def pair (write : Write) : Bytes × Bytes :=
  (write.key, write.value)

def weight (write : Write) : Nat :=
  write.key.length + write.value.length

/-- The entry of a write under a sequence number. -/
def entry (write : Write) (lsn : UInt64) : LogEntry where
  lsn
  key := write.key
  value := write.value
  timestamp := write.timestamp

/-- Whether the payload of a write has a length that a frame can state. -/
def Fits (write : Write) : Prop :=
  (write.entry 0).Fits

instance (write : Write) : Decidable write.Fits :=
  inferInstanceAs (Decidable (LogEntry.Fits _))

@[simp] theorem weight_entry (write : Write) (lsn : UInt64) :
    (write.entry lsn).weight = write.weight := rfl

theorem fits_iff (write : Write) : write.Fits ↔ 32 + write.weight < Bytes.fieldRange 4 := by
  rw [Fits, LogEntry.fits_iff, weight_entry]

theorem fits_entry {write : Write} (fits : write.Fits) (lsn : UInt64) : (write.entry lsn).Fits := by
  rw [LogEntry.fits_iff, weight_entry]
  exact write.fits_iff.mp fits

end Write

def LogEntry.write (entry : LogEntry) : Write where
  key := entry.key
  value := entry.value
  timestamp := entry.timestamp

@[simp] theorem Write.write_entry (write : Write) (lsn : UInt64) :
    (write.entry lsn).write = write := rfl

theorem LogEntry.fits_write {entry : LogEntry} : entry.write.Fits ↔ entry.Fits := by
  rw [Write.fits_iff, fits_iff]
  rfl

theorem total_weight_write (entries : List LogEntry) :
    total Write.weight (entries.map LogEntry.write) = total LogEntry.weight entries :=
  total_map Write.weight LogEntry.write entries

def mapAfter (writes : List Write) : OrderedMap :=
  OrderedMap.empty.insertAll (writes.map Write.pair)

theorem mapAfter_append (earlier later : List Write) :
    mapAfter (earlier ++ later) = (mapAfter earlier).insertAll (later.map Write.pair) := by
  rw [mapAfter, List.map_append, OrderedMap.insertAll_append]
  rfl

theorem find?_mapAfter (writes : List Write) (key : Bytes) :
    (mapAfter writes).find? key = lastValue (writes.map Write.pair) key := by
  rw [mapAfter, OrderedMap.find?_insertAll, OrderedMap.find?_empty, Option.or_none]

variable {files opened : FileSystem} {home : Location} {options : TableOptions}
  {settled : List Write} {logged : List LogEntry}

/-- The map after few enough writes that fit their frames can be put into a snapshot. -/
theorem storable_mapAfter (fit : ∀ write ∈ settled, write.Fits) (few : settled.length < wordLimit) :
    Snapshot.Storable (mapAfter settled).entries where
  chunks entry member := by
    obtain ⟨write, isWrite, rfl⟩ := List.mem_map.mp (OrderedMap.mem_of_mem_insertAll member)
    exact (fit write isWrite).chunks
  count := by
    have counted := OrderedMap.count_empty_insertAll_le (settled.map Write.pair)
    rw [List.length_map] at counted
    exact Nat.lt_of_le_of_lt counted few

/-- The snapshot of the map after some writes, or no snapshot after no write. -/
def SavedAfter (files : FileSystem) (home : Location) (settled : List Write) : Prop :=
  files.HoldsFile home TableOptions.snapshotName (Snapshot.image (mapAfter settled).entries) ∨
    files.node? (home ++ [TableOptions.snapshotName]) = none ∧ settled = []

theorem SavedAfter.of_changesOnly {name : String} (saved : SavedAfter files home settled)
    (changes : ChangesOnly home name files opened) (different : TableOptions.snapshotName ≠ name) :
    SavedAfter opened home settled := by
  rcases saved with holds | ⟨absent, none⟩
  · exact Or.inl (changes.holdsFile different holds)
  · exact Or.inr ⟨(changes.node?_other different).trans absent, none⟩

/-- A directory whose snapshot holds the `settled` writes and whose log holds the `logged` ones. -/
structure Durable (files : FileSystem) (path : String) (home : Location) (settled : List Write)
    (logged : List LogEntry) : Prop where
  directory : files.DirectoryAt path home
  saved : SavedAfter files home settled
  log : LogWriter.Stands files home TableOptions.logName logged
  settledFit : ∀ write ∈ settled, write.Fits
  loggedFit : ∀ entry ∈ logged, entry.Fits
  few : settled.length < wordLimit

/-- The sequence number of the last entry, zero if there is none. -/
def lastLsn (logged : List LogEntry) : UInt64 :=
  (logged.getLast?.map LogEntry.lsn).getD 0

namespace Table

theorem loadSnapshot_perform (directory : files.DirectoryAt options.path home)
    (saved : SavedAfter files home settled) (fit : ∀ write ∈ settled, write.Fits)
    (few : settled.length < wordLimit) :
    (loadSnapshot options.snapshotPath).perform files =
      (.ok (mapAfter settled).entries, files) := by
  have present := directory.pathExists_join TableOptions.snapshotName_isName
  simp only [loadSnapshot, TableOptions.snapshotPath, Disk.perform_bind, Disk.perform_get, present]
  rcases saved with holds | ⟨absent, none⟩
  · have loading := Snapshot.load_join directory TableOptions.snapshotName_isName holds
      (storable_mapAfter fit few)
    obtain ⟨id, found, _⟩ := holds
    simp only [found, Option.isSome_some, if_true, Disk.perform_bind, loading, Disk.perform_pure]
  · subst none
    simp only [absent, Option.isSome_none, Bool.false_eq_true, if_false]
    rfl

theorem replayLog_perform (directory : files.DirectoryAt options.path home)
    (log : LogWriter.Stands files home TableOptions.logName logged)
    (fit : ∀ entry ∈ logged, entry.Fits) :
    (replayLog options.logPath).perform files = (.ok (logged, lastLsn logged + 1), files) := by
  have present := directory.pathExists_join TableOptions.logName_isName
  simp only [replayLog, TableOptions.logPath, Disk.perform_bind, Disk.perform_get, present]
  rcases log with holds | ⟨absent, none⟩
  · have recovering := Log.recover_join directory TableOptions.logName_isName holds fit
    obtain ⟨id, found, _⟩ := holds
    simp only [found, Option.isSome_some, if_true, Disk.perform_bind, recovering, Disk.perform_pure,
      LogScan.summary_lastLsn]
    rfl
  · subst none
    simp only [absent, Option.isSome_none, Bool.false_eq_true, if_false]
    rfl

/-- A table opened on a directory, and the files it has left. -/
structure OpenedOn (table : Table) (opened files : FileSystem) (options : TableOptions)
    (home : Location) (settled : List Write) (logged : List LogEntry) : Prop where
  changes : ChangesOnly home TableOptions.logName files opened
  holds : table.log.Holds opened home TableOptions.logName logged []
  contents : table.contents.map = mapAfter (settled ++ logged.map LogEntry.write)
  dirty : table.dirty = total LogEntry.weight logged
  options_eq : table.options = options
  checkpointAt : table.checkpointAt = options.poolBytes
  strategy : table.log.strategy = options.strategy
  nextLsn : table.log.nextLsn = lastLsn logged + 1
  unsynced : table.log.unsynced = 0

theorem openAt_perform (durable : Durable files options.path home settled logged) :
    ∃ table opened, (openAt options).perform files = (.ok table, opened) ∧
      table.OpenedOn opened files options home settled logged := by
  have making := durable.directory.leads.makeDirectories
  have loading :=
    loadSnapshot_perform durable.directory durable.saved durable.settledFit durable.few
  have replaying := replayLog_perform durable.directory durable.log durable.loggedFit
  obtain ⟨log, opened, opening, changes, holds, strategy, nextLsn, unsynced⟩ :=
    LogWriter.openAt_perform durable.directory TableOptions.logName_isName durable.log
      options.strategy (lastLsn logged + 1)
  refine ⟨_, opened, openAt_restored making loading replaying opening, changes, holds, ?_, rfl, rfl,
    rfl, strategy, nextLsn, unsynced⟩
  simp only [restored, Contents.map_putAll, mapAfter_append, List.map_map]
  exact OrderedMap.insertAll_entries_insertAll _ _

end Table

end RowStore
