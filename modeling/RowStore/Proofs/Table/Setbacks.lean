import RowStore.Proofs.Table.Closing
import RowStore.Proofs.Table.Course

namespace RowStore

open FileSystem

namespace Table

variable {table later : Table} {files found left after : FileSystem} {home : Location}
  {options : TableOptions} {write : Write} {more : List Write} {fault : Fault}

/-- What a failed checkpoint leaves alone. -/
structure Spares (options : TableOptions) (home : Location) (before after : FileSystem) : Prop where
  changes : ChangesOnly home TableOptions.temporaryName before after
  snapshot : after.read options.snapshotPath = before.read options.snapshotPath
  log : after.read options.logPath = before.read options.logPath

theorem WorksIn.spares (works : table.WorksIn files home)
    (changes : ChangesOnly home TableOptions.temporaryName files left) :
    Spares table.options home files left where
  changes := changes
  snapshot := changes.read_join works.directory TableOptions.snapshotName_isName
    TableOptions.snapshotName_ne_temporaryName
  log := changes.read_join works.directory TableOptions.logName_isName
    TableOptions.logName_ne_temporaryName

/-- A table whose checkpoint has been made has all its entries in the snapshot and none in the
log. -/
structure SavesAll (table : Table) (left : FileSystem) : Prop where
  log : left.read table.options.logPath = .ok []
  snapshot : left.read table.options.snapshotPath =
    .ok (Snapshot.image table.contents.map.entries)
  loads : table.contents.count < wordLimit → table.SavedIn left

theorem WorksIn.savesAll (works : table.WorksIn left home) (fits : table.Fits)
    (snapshot : left.HoldsFile home TableOptions.snapshotName
      (Snapshot.image table.contents.map.entries))
    (log : left.HoldsFile home TableOptions.logName []) : table.SavesAll left := by
  obtain ⟨id, found, content⟩ := snapshot
  obtain ⟨logId, logFound, logContent⟩ := log
  have logReads := works.directory.read_join TableOptions.logName_isName logFound
  have reads := works.directory.read_join TableOptions.snapshotName_isName found
  rw [logContent] at logReads
  rw [content] at reads
  have loads (few : table.contents.count < wordLimit) :=
    Snapshot.load_join works.directory TableOptions.snapshotName_isName ⟨id, found, content⟩
      ⟨fits, few⟩
  exact ⟨logReads, reads, fun few => ⟨logReads, fun _ => ⟨_, loads few⟩⟩⟩

/-- A write that is made although the checkpoint fails that it brings about: it is in the log once
and in the contents, and the next checkpoint is due later. -/
structure PutUnsaved (table : Table) (write : Write) (home : Location) (found : FileSystem)
    (log : LogWriter) (logged left : FileSystem) : Prop where
  putting : (table.put write.key write.value write.timestamp).perform found =
    (.ok (table.recorded write.key write.value log).postponed, left)
  appends : table.log.Appends (LogEntry.framed (write.entry table.log.nextLsn).payload) found log
    logged
  spares : Spares table.options home logged left
  snapshot : left.read table.options.snapshotPath = found.read table.options.snapshotPath

/-- A write brings about a checkpoint that fails if it fills the budget with a directory in the way,
and only then. -/
theorem WorksIn.put_unsaved_iff (works : table.WorksIn found home) (fits : table.Fits) :
    (table.use (.put write found)).1 = .written write.weight (some false) ↔
      write.Fits ∧ table.checkpointAt ≤ table.dirty + write.weight ∧ Barred found home := by
  by_cases writeFits : write.Fits
  · obtain ⟨log, logged, recording, appends⟩ := table.record_fits found writeFits
    obtain ⟨tried, next, left, used, _, ends⟩ := put_ends recording
    have recordedWorks : (table.recorded write.key write.value log).WorksIn logged home :=
      works.recorded appends
    have barred : Barred logged home ↔ Barred found home := by
      simp only [Barred, appends.writes.node?]
    rw [use, used, ← barred]
    cases ends with
    | early below =>
        exact iff_of_false (by simp) fun ends => absurd ends.2.1 (Nat.not_le.mpr below)
    | saved _ made =>
        have free : ¬ Barred logged home := fun inTheWay => by
          obtain ⟨_, failing, -⟩ := recordedWorks.checkpoint_barred (fits.put writeFits) inTheWay
          cases failing.symm.trans made
        simp [free]
    | postponed isDue failing =>
        have inTheWay := (recordedWorks.checkpoint_eq_error (fits.put writeFits) failing).1
        exact iff_of_true rfl ⟨writeFits, isDue, inTheWay⟩
  · rw [use, table.usePut_refused found writeFits]
    simp [writeFits]

theorem WorksIn.putUnsaved (works : table.WorksIn found home) (fits : table.Fits)
    (unsaved : (table.use (.put write found)).1 = .written write.weight (some false)) :
    ∃ log logged left, table.PutUnsaved write home found log logged left := by
  obtain ⟨writeFits, -⟩ := (works.put_unsaved_iff fits).mp unsaved
  obtain ⟨log, logged, recording, appends⟩ := table.record_fits found writeFits
  obtain ⟨tried, next, left, used, putting, ends⟩ := put_ends recording
  rw [use, used] at unsaved
  cases unsaved
  cases ends with
  | postponed _ failing =>
      have recordedWorks : (table.recorded write.key write.value log).WorksIn logged home :=
        works.recorded appends
      have changes := (recordedWorks.checkpoint_eq_error (fits.put writeFits) failing).2
      have spares := recordedWorks.spares changes
      refine ⟨log, logged, left, putting, appends, spares, spares.snapshot.trans ?_⟩
      exact (appends.writes.changesOnly works.directory works.log).read_join works.directory
        TableOptions.snapshotName_isName TableOptions.logName_ne_snapshotName.symm

/-- Only a directory under one of the names of the snapshot makes a checkpoint fail, and then all is
as it was but for the temporary file. A write that has brought it about is made and logged once. The
first checkpoint after the directory is gone saves everything written before and since. -/
theorem failed_checkpoint_costs_nothing (reached : Reached options home table found) :
    ((∃ fault left, table.checkpoint.perform found = (.error fault, left)) ↔ Barred found home) ∧
    (∀ fault left, table.checkpoint.perform found = (.error fault, left) →
      table.use (.checkpoint found) = (.asked false, table) ∧ Spares options home found left) ∧
    (∀ write, ((table.use (.put write found)).1 = .written write.weight (some false) ↔
        write.Fits ∧ table.checkpointAt ≤ table.dirty + write.weight ∧ Barred found home) ∧
      ((table.use (.put write found)).1 = .written write.weight (some false) →
        ∃ log logged left, table.PutUnsaved write home found log logged left)) ∧
    ∀ more later after, Course home table found more later after → ¬ Barred after home →
      ∃ info left, later.checkpoint.perform after = (.ok (info, later.checkpointed), left) ∧
        later.options = options ∧
        (∀ key, later.find? key = (lastValue (more.map Write.pair) key).or (table.find? key)) ∧
        later.checkpointed.SavesAll left := by
  obtain ⟨rfl, works, fits⟩ := reached.keeps
  refine ⟨⟨?_, fun barred => ?_⟩, ?_,
    fun write => ⟨works.put_unsaved_iff fits, works.putUnsaved fits⟩, ?_⟩
  · rintro ⟨fault, left, failing⟩
    exact (works.checkpoint_eq_error fits failing).1
  · obtain ⟨left, failing, -⟩ := works.checkpoint_barred fits barred
    exact ⟨_, left, failing⟩
  · intro fault left failing
    have spares := works.spares (works.checkpoint_eq_error fits failing).2
    refine ⟨?_, spares⟩
    rw [use]
    exact useCheckpoint_failed failing
  · intro more later after course free
    obtain ⟨options_eq, contents, laterWorks, laterFits⟩ := reached.continues course
    obtain ⟨info, left, saving, savedWorks, snapshot, log⟩ :=
      laterWorks.checkpoint_free laterFits free
    refine ⟨info, left, saving, options_eq, fun key => ?_,
      savedWorks.savesAll laterFits snapshot log⟩
    change later.contents.map.find? key = _
    rw [contents, OrderedMap.find?_insertAll]
    rfl

/-- A directory in the way of the temporary file. -/
def obstructed (files : FileSystem) : FileSystem :=
  { files with nodes := files.nodes.set [TableOptions.temporaryName] .directory }

def cleared (files : FileSystem) : FileSystem :=
  { files with nodes := files.nodes.erase [TableOptions.temporaryName] }

/-- A write that fills the budget while there is a directory in the way, which is then removed. -/
theorem failed_checkpoint_costs_nothing_bulky :
    ∃ (table later : Table) (found after left : FileSystem) (info : SnapshotInfo),
      Reached crampedOptions [] table found ∧ Barred found [] ∧
      (table.use (.put (bulkyWrite 4999) found)).1 = .written 5000 (some false) ∧
      ¬ Barred after [] ∧
      later.checkpoint.perform after = (.ok (info, later.checkpointed), left) ∧
      later.find? [97] = some (List.replicate 4999 0) ∧ later.checkpointed.SavesAll left := by
  have vacant := FileSystem.emptyDirectory_empty
  obtain ⟨table, opened, opening, on⟩ :=
    @openAt_perform _ _ crampedOptions _ _ vacant.atRest.toDurable
  have directory : opened.DirectoryAt crampedOptions.path [] :=
    on.changes.directoryAt vacant.directoryAt
  have works : table.WorksIn opened [] := ⟨on.options_eq ▸ directory, on.holds.named⟩
  have obstructing : ChangesOnly [] TableOptions.temporaryName opened (obstructed opened) :=
    changesOnly_setDirectory opened [] TableOptions.temporaryName
  have inTheWay := works.of_changesOnly obstructing TableOptions.logName_ne_temporaryName
  have reached : Reached crampedOptions [] table (obstructed opened) :=
    ⟨⟨_, table, opened, [], opening, directory, .meddled .here inTheWay⟩⟩
  have barred : Barred (obstructed opened) [] :=
    Or.inl ((node?_set opened (by simp) .directory _).trans (if_pos rfl))
  obtain ⟨-, -, puts, checkpoints⟩ := failed_checkpoint_costs_nothing reached
  obtain ⟨exactly, unsaves⟩ := puts (bulkyWrite 4999)
  have isDue : table.checkpointAt ≤ table.dirty + (bulkyWrite 4999).weight := by
    have pool : crampedOptions.poolBytes = 4096 := by decide
    rw [on.checkpointAt, pool, bulkyWrite_weight]
    omega
  have unsaved := exactly.mpr ⟨bulkyWrite_fits (by omega), isDue, barred⟩
  obtain ⟨log, logged, left, putUnsaved⟩ := unsaves unsaved
  have written : Course [] table (obstructed opened) [bulkyWrite 4999] _ left :=
    .put .here putUnsaved.putting
  have clearing : ChangesOnly [] TableOptions.temporaryName left (cleared left) :=
    changesOnly_erase left [] TableOptions.temporaryName
  have nextWorks := (reached.continues written).works.of_changesOnly clearing
    TableOptions.logName_ne_temporaryName
  have temporaryFree : (cleared left).node? ([] ++ [TableOptions.temporaryName]) = none :=
    (node?_erase left (by simp) _).trans (if_pos rfl)
  have snapshotFree : (cleared left).node? ([] ++ [TableOptions.snapshotName]) = none := by
    have apart := TableOptions.snapshotName_ne_temporaryName
    rw [clearing.node?_other apart, putUnsaved.spares.changes.node?_other apart,
      putUnsaved.appends.writes.node?, obstructing.node?_other apart,
      on.changes.node?_other TableOptions.logName_ne_snapshotName.symm, vacant.empty]
  have free : ¬ Barred (cleared left) [] := by
    rw [Barred, temporaryFree, snapshotFree]
    simp
  obtain ⟨info, final, saving, -, finds, saved⟩ :=
    checkpoints _ _ _ (.meddled written nextWorks) free
  rw [bulkyWrite_weight] at unsaved
  exact ⟨table, _, _, _, final, info, reached, barred, unsaved, free, saving, finds [97], saved⟩

end Table

end RowStore
