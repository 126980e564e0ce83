import RowStore.Proofs.Table.Canonical

namespace RowStore

open FileSystem

variable {path name : String} {home : Location} {files after left : FileSystem}
  {table next : Table} {write : Write} {life : Lifetime}
  {logged flushed held : List LogEntry}

/-- A directory on which no table is open. Its log, if it has one, is the frames of entries. -/
structure FileSystem.LogsFrames (files : FileSystem) (path : String) (home : Location)
    (logged : List LogEntry) : Prop where
  directory : files.DirectoryAt path home
  log : LogWriter.Stands files home TableOptions.logName logged
  fit : ∀ entry ∈ logged, entry.Fits

theorem FileSystem.EmptyDirectory.logsFrames (vacant : files.EmptyDirectory path home) :
    files.LogsFrames path home [] where
  directory := vacant.directoryAt
  log := .inr ⟨vacant.empty _, rfl⟩
  fit _ member := absurd member List.not_mem_nil

theorem FileSystem.LogsFrames.of_changesOnly (frames : files.LogsFrames path home logged)
    (changes : ChangesOnly home name files after) (different : TableOptions.logName ≠ name) :
    after.LogsFrames path home logged where
  directory := changes.directoryAt frames.directory
  log := frames.log.of_changesOnly changes different
  fit := frames.fit

namespace Table

/-- A table open on a directory, with the entries whose frames are in the file of the log and those
whose frames are held back. Together they are what counts as dirty. -/
structure KeepsLog (table : Table) (files : FileSystem) (home : Location)
    (flushed held : List LogEntry) : Prop where
  directory : files.DirectoryAt table.options.path home
  log : table.log.Holds files home TableOptions.logName flushed held
  dirty : table.dirty = total LogEntry.weight (flushed ++ held)
  fit : ∀ entry ∈ flushed ++ held, entry.Fits
  entriesFit : table.Fits

theorem loadSnapshot_leaves (path : String) (files : FileSystem) :
    ((loadSnapshot path).perform files).2 = files := by
  simp only [loadSnapshot, Disk.perform_bind, Disk.perform_get]
  split
  · simp only [Snapshot.load, Disk.perform_bind, Disk.perform_query]
    cases files.read path with
    | error fault => rfl
    | ok bytes =>
        dsimp only
        cases Snapshot.parse path bytes <;> rfl
  · rfl

/-- A table that is opened counts as dirty what its log holds, and one that is not opened has left
everything as it was. -/
theorem openAt_keepsLog (options : TableOptions)
    (frames : files.LogsFrames options.path home logged) :
    (∃ table opened, (openAt options).perform files = (.ok table, opened) ∧
      table.options = options ∧ table.KeepsLog opened home logged []) ∨
    ∃ fault, (openAt options).perform files = (.error fault, files) := by
  have making := frames.directory.leads.makeDirectories
  have replaying := replayLog_perform frames.directory frames.log frames.fit
  obtain ⟨log, opened, openingLog, changes, holds, _⟩ :=
    LogWriter.openAt_perform frames.directory TableOptions.logName_isName frames.log
      options.strategy (lastLsn logged + 1)
  have leaves := loadSnapshot_leaves options.snapshotPath files
  cases loading : (loadSnapshot options.snapshotPath).perform files with
  | mk outcome loaded =>
      obtain rfl : loaded = files := by simpa only [loading] using leaves
      cases outcome with
      | error fault =>
          refine .inr ⟨fault, ?_⟩
          simp only [openAt, Disk.perform_bind, Disk.perform_makeDirectories, making, loading]
      | ok saved =>
          have opening := openAt_restored making loading replaying openingLog
          refine .inl ⟨_, opened, opening, rfl, ?_⟩
          exact {
            directory := changes.directoryAt frames.directory
            log := holds
            dirty := by rw [List.append_nil, restored]
            fit := by rw [List.append_nil]; exact frames.fit
            entriesFit := (openAt_eq_ok opening).2.1 }

theorem put_refused {fault : Fault}
    (refusing : (table.put write.key write.value write.timestamp).perform files =
      (.error fault, left)) : left = files := by
  rcases table.put_cases write files with ⟨_, _, _, _, _, _, _, made, _⟩ | ⟨_, _, refused⟩
  · cases made.symm.trans refusing
  · cases refused.symm.trans refusing
    rfl

namespace KeepsLog

theorem works (keeps : table.KeepsLog files home flushed held) : table.WorksIn files home :=
  ⟨keeps.directory, keeps.log.named⟩

theorem of_changesOnly (keeps : table.KeepsLog files home flushed held)
    (changes : ChangesOnly home name files after) (different : TableOptions.logName ≠ name) :
    table.KeepsLog after home flushed held :=
  { keeps with
    directory := changes.directoryAt keeps.directory
    log := keeps.log.of_changesOnly changes different }

theorem abandoned (keeps : table.KeepsLog files home flushed held) :
    (table.abandoned files).LogsFrames table.options.path home (flushed ++ held) where
  directory := (LogWriter.flushed_changesOnly keeps.directory keeps.log.named).directoryAt
    keeps.directory
  log := .inl keeps.log.synced.holdsFile
  fit := keeps.fit

theorem record (keeps : table.KeepsLog files home flushed held) (writeFits : write.Fits) :
    ∃ log recorded flushed' held',
      (table.record write.key write.value write.timestamp).perform files =
        (.ok (table.recorded write.key write.value log), recorded) ∧
      (table.recorded write.key write.value log).KeepsLog recorded home flushed' held' := by
  obtain ⟨log, recorded, flushed', held', appending, changes, holds, divides⟩ :=
    LogWriter.append_perform keeps.directory keeps.log
      (rfl : write.entry table.log.nextLsn = _) (Write.fits_entry writeFits _)
  refine ⟨log, recorded, flushed', held', ?_, changes.directoryAt keeps.directory, holds, ?_, ?_,
    keeps.entriesFit.put writeFits⟩
  · simp only [Table.record, Disk.perform_bind, appending]
    rfl
  · rw [divides.order, total_append, ← keeps.dirty]
    rfl
  · intro entry member
    rw [divides.order] at member
    rcases List.mem_append.mp member with old | new
    · exact keeps.fit entry old
    · exact List.mem_singleton.mp new ▸ Write.fits_entry writeFits _

/-- A checkpoint that is made empties the log, and one that fails leaves it as it is. -/
theorem checkpoint_saved {info : SnapshotInfo} (keeps : table.KeepsLog files home flushed held)
    (saving : table.checkpoint.perform files = (.ok (info, next), left)) :
    next.options = table.options ∧ next.KeepsLog left home [] [] := by
  have free : ¬ Barred files home := fun barred => by
    obtain ⟨_, refused, _⟩ := keeps.works.checkpoint_barred keeps.entriesFit barred
    cases refused.symm.trans saving
  obtain ⟨_, _, saved, savedWorks, _, id, found, emptied⟩ :=
    keeps.works.checkpoint_free keeps.entriesFit free
  cases saved.symm.trans saving
  cases savedWorks.log.symm.trans found
  exact ⟨rfl, savedWorks.directory, ⟨savedWorks.log, emptied, rfl, Nat.le_refl _, .inl rfl⟩, rfl,
    fun _ member => absurd member List.not_mem_nil, keeps.entriesFit⟩

theorem checkpoint_failed {fault : Fault} (keeps : table.KeepsLog files home flushed held)
    (failing : table.checkpoint.perform files = (.error fault, left)) :
    table.KeepsLog left home flushed held :=
  keeps.of_changesOnly (keeps.works.checkpoint_eq_error keeps.entriesFit failing).2
    TableOptions.logName_ne_temporaryName

theorem ends {tried : Option Bool} (keeps : table.KeepsLog files home flushed held)
    (ends : table.Ends files tried next left) :
    next.options = table.options ∧
      ∃ flushed' held', next.KeepsLog left home flushed' held' := by
  cases ends with
  | early => exact ⟨rfl, flushed, held, keeps⟩
  | saved _ made =>
      obtain ⟨same, emptied⟩ := keeps.checkpoint_saved made
      exact ⟨same, [], [], emptied⟩
  | postponed _ failed =>
      exact ⟨rfl, flushed, held, { keeps.checkpoint_failed failed with }⟩

theorem put (keeps : table.KeepsLog files home flushed held)
    (putting : (table.put write.key write.value write.timestamp).perform files =
      (.ok next, left)) :
    next.options = table.options ∧
      ∃ flushed' held', next.KeepsLog left home flushed' held' := by
  by_cases writeFits : write.Fits
  · obtain ⟨log, recorded, _, _, recording, recordedKeeps⟩ := keeps.record writeFits
    obtain ⟨_, _, _, _, made, ends⟩ := put_ends recording
    cases made.symm.trans putting
    exact recordedKeeps.ends ends
  · obtain ⟨fault, refused⟩ := table.record_refused files writeFits
    simp only [Table.put, Disk.perform_bind, refused] at putting
    cases putting

/-- Closing gives the table up, before or after a checkpoint or without one. -/
theorem close (keeps : table.KeepsLog files home flushed held) :
    ∃ logged, (table.close.perform files).2.LogsFrames table.options.path home logged := by
  by_cases clean : table.dirty = 0
  · rw [close_clean clean]
    exact ⟨_, keeps.abandoned⟩
  · cases saving : table.checkpoint.perform files with
    | mk outcome left =>
        cases outcome with
        | ok saved =>
            obtain ⟨same, emptied⟩ := keeps.checkpoint_saved saving
            rw [close_saved clean saving, ← same]
            exact ⟨_, emptied.abandoned⟩
        | error fault =>
            rw [close_refused clean saving]
            exact ⟨_, (keeps.checkpoint_failed saving).abandoned⟩

end KeepsLog

end Table

namespace Lifetime

theorem files_close (life : Lifetime) (table : Table) :
    (life.close table).files = (table.close.perform life.files).2 := by
  unfold close
  split
  · rename_i closing
    rw [closing]
    split <;> rfl
  · rename_i closing
    rw [closing]

/-- The log is whole frames, while no table is open and while one is. -/
inductive KeepsLog (path : String) (home : Location) (life : Lifetime) : Prop
  | atRest (logged : List LogEntry) (closed : life.table = none)
      (frames : life.files.LogsFrames path home logged)
  | inUse (table : Table) (flushed held : List LogEntry) (isOpen : life.table = some table)
      (located : table.options.path = path)
      (keeps : table.KeepsLog life.files home flushed held)

namespace KeepsLog

theorem directoryAt (keeps : KeepsLog path home life) : life.files.DirectoryAt path home := by
  cases keeps with
  | atRest _ _ frames => exact frames.directory
  | inUse _ _ _ _ located keeps => exact located ▸ keeps.directory

theorem of_changesOnly (keeps : KeepsLog path home life)
    (changes : ChangesOnly home TableOptions.temporaryName life.files after) :
    KeepsLog path home { life with files := after } := by
  have apart := TableOptions.logName_ne_temporaryName
  cases keeps with
  | atRest logged closed frames => exact .atRest logged closed (frames.of_changesOnly changes apart)
  | inUse table flushed held isOpen located keeps =>
      exact .inUse table flushed held isOpen located (keeps.of_changesOnly changes apart)

theorem obstruct (keeps : KeepsLog path home life) : KeepsLog path home (life.obstruct path) :=
  keeps.of_changesOnly
    (keeps.directoryAt.changesOnly_makeDirectory TableOptions.temporaryName_isName)

theorem clear (keeps : KeepsLog path home life) : KeepsLog path home (life.clear path) :=
  keeps.of_changesOnly
    (keeps.directoryAt.changesOnly_removeDirectory TableOptions.temporaryName_isName)

theorem stepClosed (keeps : KeepsLog path home life) (closed : life.table = none)
    (frames : life.files.LogsFrames path home logged) (event : Event) :
    KeepsLog path home (life.stepClosed path event) := by
  cases event with
  | openTable pages strategy =>
      rcases Table.openAt_keepsLog { path, pages, strategy } frames with
        ⟨table, opened, opening, same, tableKeeps⟩ | ⟨fault, refused⟩
      · rw [Lifetime.stepClosed, openTable, opening]
        exact .inUse table logged [] rfl (by rw [same]) tableKeeps
      · rw [Lifetime.stepClosed, openTable, refused]
        exact .atRest logged closed frames
  | put | checkpoint | close | abandon => exact keeps
  | obstruct => exact keeps.obstruct
  | clear => exact keeps.clear

theorem stepOpen (keeps : KeepsLog path home life) (isOpen : life.table = some table)
    (located : table.options.path = path) (tableKeeps : table.KeepsLog life.files home flushed held)
    (event : Event) : KeepsLog path home (life.stepOpen path table event) := by
  cases event with
  | openTable => exact keeps
  | put write =>
      rcases life.put_cases table write with ⟨next, putting, found⟩ | ⟨_, refused, found⟩
      · obtain ⟨same, _, _, nextKeeps⟩ := tableKeeps.put putting
        exact .inUse next _ _ found (same ▸ located) nextKeeps
      · have unchanged := Table.put_refused refused
        exact .inUse table flushed held (found.trans isOpen) located (unchanged ▸ tableKeeps)
  | checkpoint =>
      rcases life.checkpoint_cases table with ⟨_, saved, saving, found⟩ | ⟨_, failing, found⟩
      · obtain ⟨same, emptied⟩ := tableKeeps.checkpoint_saved saving
        exact .inUse saved [] [] found (same ▸ located) emptied
      · exact .inUse table flushed held (found.trans isOpen) located
          (tableKeeps.checkpoint_failed failing)
  | close =>
      obtain ⟨logged, frames⟩ := tableKeeps.close
      rw [← life.files_close, located] at frames
      exact .atRest logged (life.close_closed table) frames
  | abandon => exact .atRest _ rfl (located ▸ tableKeeps.abandoned)
  | obstruct => exact keeps.obstruct
  | clear => exact keeps.clear

theorem step (keeps : KeepsLog path home life) (event : Event) :
    KeepsLog path home (life.step path event) := by
  cases keeps with
  | atRest logged closed frames =>
      rw [step_closed closed]
      exact stepClosed (.atRest logged closed frames) closed frames event
  | inUse table flushed held isOpen located tableKeeps =>
      rw [step_open isOpen]
      exact stepOpen (.inUse table flushed held isOpen located tableKeeps) isOpen located
        tableKeeps event

end KeepsLog

theorem run_keepsLog (frames : files.LogsFrames path home logged) (events : List Event) :
    KeepsLog path home (run path files events) := by
  induction events using List.reverseRecOn with
  | nil => exact .atRest logged rfl frames
  | append_singleton earlier event ih =>
      rw [run_concat]
      exact ih.step event

end Lifetime

end RowStore
